import ScopeForest.Proofs.Forest.Growth
import ScopeForest.Proofs.Forest.Planning

namespace ScopeForest

namespace Forest

/-- A forest is a tree with scopes before their members, and a key describes the node that has
it. -/
structure Sound (f : Forest) : Prop where
  tree : f.store.Scoped f.root
  earlier : f.store.Earlier
  keyed : ∀ {key : MergeKey} {d : DeclId}, (key, d) ∈ f.keys →
    ∃ x, d.get? f.store.decls = some x ∧ x.parent = some key.parent ∧ x.kind = key.kind

/-- The state `g` of merging into `f` once the placements of `done` are carried out. -/
structure Merging (f : Forest) (r : Renaming) (done : List Placement) (g : Forest) : Prop where
  sound : g.Sound
  grows : ∀ {d : DeclId} {x : Declaration}, d.get? f.store.decls = some x →
    ∃ y, d.get? g.store.decls = some y ∧ x.Grows y
  root : ∀ {d : DeclId}, f.root = some d → g.root = some d
  length : g.store.decls.length = f.store.decls.length + done.countP (·.target.isNew)
  node : ∀ p ∈ done, ∃ y, p.target.id.get? g.store.decls = some y ∧ y.kind = p.source.kind ∧
    y.parent = p.source.parent.map r.decl
  created : ∀ {d : DeclId} {y : Declaration}, d.get? g.store.decls = some y →
    (∃ x, d.get? f.store.decls = some x ∧ x.Grows y) ∨
      ∃ p ∈ done, p.target = .new d ∧ y.unit = p.source.unit ∧
        y.externalId = p.source.externalId

variable {f g : Forest} {r : Renaming} {done : List Placement} {p : Placement} {d : DeclId}

theorem Sound.sameTree {g' : Forest} (h : g.Sound) (hroot : g'.root = g.root)
    (hkeys : g'.keys = g.keys) (hs : g.store.SameTree g'.store) : g'.Sound where
  tree := hroot ▸ h.tree.sameTree hs
  earlier := Store.Ranks.sameTree h.earlier hs
  keyed hk := by
    obtain ⟨x, hx, hp, hkind⟩ := h.keyed (hkeys ▸ hk)
    obtain ⟨y, hy, hg, -⟩ := hs.kept hx
    exact ⟨y, hy, hg.parent.trans hp, hg.kind.trans hkind⟩

theorem Merging.join (h : f.Merging r done g) (hp : p.target = .joined d)
    (hd : ∃ y, d.get? g.store.decls = some y ∧ y.kind = p.source.kind ∧
      y.parent = p.source.parent.map r.decl) :
    f.Merging r (done ++ [p]) (applyPlacement r g p) := by
  have hg : applyPlacement r g p =
      g.setDecls (d.modify (·.absorb (r.declaration d p.source)) g.store.decls) := by
    rw [applyPlacement, hp]
  rw [hg]
  have hsame : g.store.SameTree
      (g.setDecls (d.modify (·.absorb (r.declaration d p.source)) g.store.decls)).store :=
    Store.sameTree_modify d _ fun x ↦ ⟨Declaration.grows_absorb x _, Declaration.members_absorb x _⟩
  have hnode {e : DeclId} {kind : DeclKind} {parent : Option DeclId}
      (he : ∃ y, e.get? g.store.decls = some y ∧ y.kind = kind ∧ y.parent = parent) :
      ∃ y, e.get? (g.setDecls (d.modify (·.absorb (r.declaration d p.source))
        g.store.decls)).store.decls = some y ∧ y.kind = kind ∧ y.parent = parent := by
    obtain ⟨x, hx, hk, hpar⟩ := he
    obtain ⟨y, hy, hxy, -⟩ := hsame.kept hx
    exact ⟨y, hy, hxy.kind.trans hk, hxy.parent.trans hpar⟩
  refine ⟨h.sound.sameTree rfl rfl hsame, ?_, h.root, ?_, ?_, ?_⟩
  · intro e x he
    obtain ⟨y, hy, hxy⟩ := h.grows he
    obtain ⟨z, hz, hyz, -⟩ := hsame.kept hy
    exact ⟨z, hz, hxy.trans hyz⟩
  · simp [setDecls, h.length, hp, Target.isNew]
  · intro q hq
    rcases List.mem_append.mp hq with hq | hq
    · exact hnode (h.node q hq)
    · rw [List.mem_singleton.mp hq, hp]
      exact hnode hd
  · intro e y he
    obtain ⟨x, hx, hxy, -⟩ := hsame.origin he
    rcases h.created hx with ⟨w, hw, hwx⟩ | ⟨q, hq, hnew, hunit, hid⟩
    · exact .inl ⟨w, hw, hwx.trans hxy⟩
    · exact .inr ⟨q, List.mem_append_left _ hq, hnew, hxy.unit.trans hunit,
        hxy.externalId.trans hid⟩

theorem store_addKey (key : MergeKey) (d : DeclId) :
    (g.addKey key d).store = g.store ∧ (g.addKey key d).root = g.root := by
  unfold addKey
  split <;> exact ⟨rfl, rfl⟩

theorem mem_addKey {key : MergeKey} {entry : MergeKey × DeclId}
    (h : entry ∈ (g.addKey key d).keys) : entry ∈ g.keys ∨ entry = (key, d) := by
  unfold addKey at h
  split at h
  · exact .inl h
  · simpa using h

theorem applyPlacement_new (hp : p.target = .new d) :
    (applyPlacement r g p).store = (g.addNode (r.declaration d p.source)).store ∧
      (applyPlacement r g p).root = (g.addNode (r.declaration d p.source)).root ∧
      ∀ entry ∈ (applyPlacement r g p).keys, entry ∈ g.keys ∨ ∃ key ∈ p.key, entry = (key, d) := by
  have hkeys : (g.addNode (r.declaration d p.source)).keys = g.keys := by
    unfold addNode
    split <;> rfl
  rw [applyPlacement, hp]
  simp only
  split
  next => exact ⟨rfl, rfl, fun entry h ↦ .inl (hkeys ▸ h)⟩
  next key hkey =>
    obtain ⟨hstore, hroot⟩ := store_addKey (g := g.addNode (r.declaration d p.source)) key d
    refine ⟨hstore, hroot, fun entry h ↦ ?_⟩
    rcases mem_addKey h with h | h
    · exact .inl (hkeys ▸ h)
    · exact .inr ⟨key, hkey, h⟩

section New

variable (hp : p.target = .new (Id.next g.store.decls))
  (hfresh : g.Fresh (r.declaration (Id.next g.store.decls) p.source))

include hp hfresh

theorem Sound.applyPlacement_new (hg : g.Sound)
    (hkey : ∀ key ∈ p.key, p.source.parent.map r.decl = some key.parent ∧
      p.source.kind = key.kind) : (applyPlacement r g p).Sound := by
  obtain ⟨hstore, hroot, hkeys⟩ := Forest.applyPlacement_new (r := r) (g := g) hp
  refine ⟨?_, ?_, ?_⟩
  · rw [hstore, hroot]
    exact hfresh.scoped_addNode hg.tree
  · rw [hstore]
    exact hfresh.earlier_addNode hg.earlier
  · intro key e he
    rw [hstore]
    rcases hkeys _ he with he | ⟨k, hk, he⟩
    · obtain ⟨x, hx, hpar, hkind⟩ := hg.keyed he
      obtain ⟨y, hy, hxy⟩ := grows_addNode hx
      exact ⟨y, hy, hxy.parent.trans hpar, hxy.kind.trans hkind⟩
    · cases he
      exact ⟨_, get?_addNode_new hfresh.parent_ne, (hkey key hk).1, (hkey key hk).2⟩

theorem Merging.add (h : f.Merging r done g)
    (hkey : ∀ key ∈ p.key, p.source.parent.map r.decl = some key.parent ∧
      p.source.kind = key.kind) : f.Merging r (done ++ [p]) (applyPlacement r g p) := by
  obtain ⟨hstore, hroot, -⟩ := Forest.applyPlacement_new (r := r) (g := g) hp
  refine ⟨h.sound.applyPlacement_new hp hfresh hkey, ?_, ?_, ?_, ?_, ?_⟩
  · intro e x he
    rw [hstore]
    obtain ⟨y, hy, hxy⟩ := h.grows he
    obtain ⟨z, hz, hyz⟩ := grows_addNode hy
    exact ⟨z, hz, hxy.trans hyz⟩
  · -- a forest that has a root takes no second one
    intro e he
    have hold := h.root he
    rw [hroot, hfresh.root_addNode, if_neg fun hnone ↦ ?_]
    · exact hold
    · rw [(hfresh.root hnone).1] at hold
      cases hold
  · rw [hstore, length_addNode, h.length, List.countP_append]
    simp [hp, Target.isNew, Nat.add_assoc]
  · intro q hq
    rw [hstore]
    rcases List.mem_append.mp hq with hq | hq
    · obtain ⟨x, hx, hkind, hpar⟩ := h.node q hq
      obtain ⟨y, hy, hxy⟩ := grows_addNode hx
      exact ⟨y, hy, hxy.kind.trans hkind, hxy.parent.trans hpar⟩
    · rw [List.mem_singleton.mp hq, hp]
      exact ⟨_, get?_addNode_new hfresh.parent_ne, rfl, rfl⟩
  · intro e y he
    rw [hstore] at he
    rcases addNode_cases hfresh.parent_ne he with ⟨rfl, rfl⟩ | ⟨z, hz, rfl⟩
    · exact .inr ⟨p, List.mem_append_right _ List.mem_cons_self, hp, rfl, rfl⟩
    · obtain ⟨w, hw, hzw⟩ := grows_addNode hz
      rw [he] at hw
      cases hw
      rcases h.created hz with ⟨x, hx, hxz⟩ | ⟨q, hq, hqnew, hunit, hid⟩
      · exact .inl ⟨x, hx, hxz.trans hzw⟩
      · exact .inr ⟨q, List.mem_append_left _ hq, hqnew, hzw.unit.trans hunit,
          hzw.externalId.trans hid⟩

end New

theorem mem_keys_of_keyed? {key : MergeKey} (h : f.keyed? key = some d) : (key, d) ∈ f.keys := by
  obtain ⟨before, after, hkeys, -⟩ := List.lookup_eq_some_iff.mp h
  rw [hkeys]
  exact List.mem_append_right _ List.mem_cons_self

theorem Merging.start (hf : f.Sound) {typed : Forest} (hdecls : typed.store.decls = f.store.decls)
    (hroot : typed.root = f.root) (hkeys : typed.keys = f.keys) : f.Merging r [] typed := by
  have hsame : f.store.SameTree typed.store :=
    ⟨fun h ↦ ⟨_, hdecls ▸ h, .refl _, rfl⟩, fun h ↦ ⟨_, hdecls ▸ h, .refl _, rfl⟩⟩
  refine ⟨hf.sameTree hroot hkeys hsame, ?_, fun h ↦ hroot.trans h, ?_, ?_, ?_⟩
  · intro d x h
    exact ⟨x, hdecls ▸ h, .refl x⟩
  · rw [hdecls]
    rfl
  · intro p hp
    cases hp
  · intro d y h
    exact .inl ⟨y, hdecls ▸ h, .refl y⟩

section Run

variable {u : ResolvedUnit} {plan : List Placement} {x : Declaration}

theorem Merging.placeRoot (h : f.Merging r [] g) (hf : f.Sound) (hu : u.Sound)
    (hroot : g.root = f.root) (hx : u.root.get? u.store.decls = some x) :
    f.Merging r [⟨x, none, f.targetOf [] f.root⟩]
      (applyPlacement r g ⟨x, none, f.targetOf [] f.root⟩) := by
  obtain ⟨y, hy, hparent, hkind⟩ := hu.tree.root_held rfl
  rw [hx] at hy
  cases hy
  cases hr : f.root with
  | some d =>
    obtain ⟨z, hz, hzp, hzk⟩ := hf.tree.root_held hr
    obtain ⟨w, hw, hzw⟩ := h.grows hz
    refine h.join rfl ⟨w, hw, ?_, ?_⟩
    · exact hzw.kind.trans (hzk.trans hkind.symm)
    · rw [hzw.parent, hzp, hparent]
      rfl
  | none =>
    have hnext : (Id.next g.store.decls : DeclId) = Id.next f.store.decls := by
      rw [Id.next, h.length]
      rfl
    refine h.add (p := ⟨x, none, .new _⟩) (by rw [hnext]; rfl) ?_ fun k hk ↦ by cases hk
    refine ⟨rfl, Renaming.fitting_declaration r _ x (hu.tree.fitting hx), by simp, ?_, ?_⟩
    · intro p hp
      simp [Renaming.declaration, hparent] at hp
    · intro _
      exact ⟨hroot.trans hr, hkind⟩

theorem Merging.placeMember (h : f.Merging r done g) (hf : f.Sound) (hu : u.Sound)
    (hplans : f.Plans u done) {q scope : DeclId} {key : Option MergeKey}
    (hx : x.id.get? u.store.decls = some x) (hq : x.parent = some q)
    (hscope : placed? done q = some scope) (hrename : r.decl q = scope)
    (hkey : f.keyOf u scope x = .ok key) :
    f.Merging r (done ++ [⟨x, key, f.targetOf done (key.bind f.keyed?)⟩])
      (applyPlacement r g ⟨x, key, f.targetOf done (key.bind f.keyed?)⟩) := by
  have hparent : x.parent.map r.decl = some scope := by
    rw [hq, Option.map_some, hrename]
  have hkeyed := keyOf_eq_ok hkey
  cases ht : f.targetOf done (key.bind f.keyed?) with
  | joined d =>
    obtain ⟨k, hk, hd⟩ := Option.bind_eq_some_iff.mp (targetOf_joined ht)
    obtain ⟨hkparent, hkkind, -⟩ := hkeyed k hk
    obtain ⟨z, hz, hzp, hzk⟩ := hf.keyed (mem_keys_of_keyed? hd)
    obtain ⟨w, hw, hzw⟩ := h.grows hz
    refine h.join rfl ⟨w, hw, hzw.kind.trans (hzk.trans hkkind), ?_⟩
    rw [hzw.parent, hzp, hkparent]
    exact hparent.symm
  | new d =>
    have hnext : d = Id.next g.store.decls := by
      rw [targetOf_new ht, newId, Id.next, h.length]
    subst hnext
    refine h.add rfl ⟨rfl, Renaming.fitting_declaration r _ x (hu.tree.fitting hx), by simp, ?_,
      ?_⟩ fun k hk ↦ ?_
    · intro p hp
      obtain ⟨s, hs, hsid, hstarget⟩ := placed?_eq_some hscope
      obtain ⟨w, hw, hwk, -⟩ := h.node s hs
      obtain ⟨y, hy, hscopeKind, -⟩ := hu.tree.parent hx hq
      have hsource := hplans.get?_source hu s hs
      rw [hsid, hy] at hsource
      cases hsource
      cases hparent.symm.trans hp
      exact ⟨w, hstarget ▸ hw, hwk ▸ hscopeKind⟩
    · intro hnone
      cases hparent.symm.trans hnone
    · obtain ⟨hkparent, hkkind, -⟩ := hkeyed k hk
      exact ⟨hkparent ▸ hparent, hkkind.symm⟩

theorem Plans.merging (hf : f.Sound) (hu : u.Sound) {typed : Forest}
    (hdecls : typed.store.decls = f.store.decls) (hroot : typed.root = f.root)
    (hkeys : typed.keys = f.keys) (hrename : ∀ {d e}, placed? plan d = some e → r.decl d = e)
    (h : f.Plans u done) (hinit : done <+: plan) :
    f.Merging r done (done.foldl (applyPlacement r) typed) := by
  induction h with
  | root hx => exact (Merging.start hf hdecls hroot hkeys).placeRoot hf hu hroot hx
  | snoc hplans hx hfresh hp hscope hkey ih =>
    have hbefore := (List.prefix_append _ _).trans hinit
    obtain ⟨rest, rfl⟩ := hbefore
    rw [List.foldl_append]
    exact (ih (List.prefix_append _ _)).placeMember hf hu hplans hx hp hscope
      (hrename (placed?_append hscope)) hkey

end Run

end Forest

end ScopeForest
