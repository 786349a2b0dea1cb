import ScopeForest.Proofs.Forest.Run

namespace ScopeForest

namespace Forest

def holding (f : Forest) : Holding := f.store.holding f.files

/-- All ids that types, declarations and bindings store name something of the right kind. -/
structure Refers (f : Forest) : Prop where
  types : ∀ node ∈ f.store.types, node.Refers f.holding
  decls : ∀ x ∈ f.store.decls, x.Refers f.holding
  declBindings : ∀ registry ∈ f.registries, ∀ {id : ExternalId} {d : DeclId},
    registry.get? id = some (.decl d) → ∃ kind, f.holding.decl d kind
  typeBindings : ∀ registry ∈ f.registries, ∀ {id : ExternalId} {t : TypeId},
    registry.get? id = some (.type t) → f.holding.type t

variable {f g : Forest}

theorem Grows.within (h : f.Grows g) : f.holding.Within g.holding where
  type := by
    rintro t ⟨node, ht⟩
    exact ⟨node, Id.get?_of_prefix ht h.types⟩
  decl := by
    rintro d kind ⟨x, hx, rfl⟩
    obtain ⟨y, hy, hxy⟩ := h.decls hx
    exact ⟨y, hy, hxy.kind⟩
  file := by
    rintro i ⟨path, hi⟩
    exact ⟨path, Id.get?_of_prefix hi h.files⟩

theorem Merged.maps {u : ResolvedUnit} {r : Renaming} (h : f.Merged u r g) :
    (u.store.holding u.files).Maps g.holding r where
  type := by
    rintro t ⟨node, ht⟩
    exact ⟨_, h.type ht⟩
  decl := by
    rintro d kind ⟨x, hx, rfl⟩
    obtain ⟨y, hy, hk, -⟩ := h.node hx
    exact ⟨y, hy, hk⟩
  file := by
    rintro i ⟨path, hi⟩
    exact ⟨path, h.file hi⟩

theorem Refers.merge {u : ResolvedUnit} {r : Renaming} (hf : f.Refers) (hu : u.Sound)
    (h : f.Merged u r g) : g.Refers := by
  have hwithin := h.grows.within
  have hmaps := h.maps
  obtain ⟨registry, hregistries, hget⟩ := h.registry
  refine ⟨?_, ?_, ?_, ?_⟩
  · intro node hnode
    rw [h.types, List.mem_append, List.mem_map] at hnode
    rcases hnode with hnode | ⟨node, hnode, rfl⟩
    · exact (hf.types node hnode).mono hwithin
    · obtain ⟨t, ht⟩ := Id.exists_get?_of_mem (k := .type) hnode
      exact (hu.typeRefers ht).rename hmaps
  · refine h.only _ (fun x hx ↦ (hf.decls x hx).mono hwithin) (fun x hx d ↦ ?_)
      (fun x m hx ↦ hx.withMembers _) fun x y hx hy ↦ hx.absorb hy
    obtain ⟨e, he⟩ := Id.exists_get?_of_mem (k := .decl) hx
    exact (hu.refers he).rename hmaps d
  · intro other hother id d hid
    rw [hregistries, List.mem_append, List.mem_singleton] at hother
    rcases hother with hother | rfl
    · obtain ⟨kind, hk⟩ := hf.declBindings other hother hid
      exact ⟨kind, hwithin.decl hk⟩
    · rw [hget] at hid
      obtain ⟨node, hnode, hd⟩ := Option.map_eq_some_iff.mp hid
      cases node with
      | decl e =>
        cases hd
        obtain ⟨x, hx⟩ := hu.bound hnode
        exact ⟨x.kind, hmaps.decl ⟨x, hx, rfl⟩⟩
      | type t => cases hd
  · intro other hother id t hid
    rw [hregistries, List.mem_append, List.mem_singleton] at hother
    rcases hother with hother | rfl
    · exact hwithin.type (hf.typeBindings other hother hid)
    · rw [hget] at hid
      obtain ⟨node, hnode, ht⟩ := Option.map_eq_some_iff.mp hid
      cases node with
      | decl e => cases ht
      | type a =>
        cases ht
        exact hmaps.type (hu.boundType hnode)

theorem get?_congr {r s : Registry} (h : r.bindings = s.bindings) (id : ExternalId) :
    r.get? id = s.get? id :=
  congrArg (NameMap.get? · id) h

theorem Refers.of_grows (hf : f.Refers) (h : f.Grows g)
    (htypes : g.store.types = f.store.types) (hdecls : ∀ x ∈ g.store.decls, x.Refers g.holding)
    (hregistries : ∀ registry ∈ g.registries, ∃ old ∈ f.registries,
      registry.bindings = old.bindings) : g.Refers := by
  have hwithin := h.within
  refine ⟨?_, hdecls, ?_, ?_⟩
  · intro node hnode
    exact (hf.types node (htypes ▸ hnode)).mono hwithin
  · intro registry hr id d hid
    obtain ⟨old, hold, hb⟩ := hregistries registry hr
    obtain ⟨kind, hk⟩ := hf.declBindings old hold (get?_congr hb id ▸ hid)
    exact ⟨kind, hwithin.decl hk⟩
  · intro registry hr id t hid
    obtain ⟨old, hold, hb⟩ := hregistries registry hr
    exact hwithin.type (hf.typeBindings old hold (get?_congr hb id ▸ hid))

theorem refers_empty (settings : BuilderSettings) : Forest.Refers { settings } where
  types _ h := absurd h List.not_mem_nil
  decls _ h := absurd h List.not_mem_nil
  declBindings _ h := absurd h List.not_mem_nil
  typeBindings _ h := absurd h List.not_mem_nil

theorem Refers.rooted (hs : f.Sound) (hf : f.Refers) : f.rooted.1.Refers := by
  cases h : f.root with
  | some d =>
    rw [rooted_of_root h]
    exact hf
  | none =>
    have hgrows := hs.rooted.2.2
    rw [rooted_of_none h] at hgrows ⊢
    refine hf.of_grows hgrows rfl (fun x hx ↦ ?_) fun registry hr ↦ ⟨registry, hr, rfl⟩
    rcases List.mem_append.mp hx with hx | hx
    · exact (hf.decls x hx).mono hgrows.within
    · rw [List.mem_singleton.mp hx]
      exact ⟨nofun, nofun, nofun, nofun⟩

theorem isTypedef_of_aliasedClass? {s : Store} {files : List String} {root : Option DeclId}
    (hs : s.Scoped root) {d c : DeclId} (h : s.aliasedClass? d = some c) :
    (s.holding files).decl d .typedef := by
  unfold Store.aliasedClass? at h
  obtain ⟨x, hx, h⟩ := Option.bind_eq_some_iff.mp h
  obtain ⟨target, haliased, -⟩ := Option.bind_eq_some_iff.mp h
  have hfits := hs.fitting hx
  refine ⟨x, hx, ?_⟩
  rcases x with ⟨_, _, _, _, _, _, _, _, _, details⟩
  cases details with
  | typedef t => exact hfits
  | _ => cases haliased

theorem Refers.freeze (hs : f.Sound) (hf : f.Refers) : f.freeze.forest.Refers := by
  obtain ⟨hsound, -, -⟩ := hs.rooted
  have hrooted := hf.rooted hs
  have hwithin := (grows_freeze f).within
  refine hrooted.of_grows (grows_freeze f) (types_freeze f) (fun x hx ↦ ?_) fun registry hr ↦ ?_
  · by_cases hbind : f.rooted.1.settings.bindAliases
    · have hstore : f.freeze.forest.store = f.rooted.1.store.bindAliases f.freeze.order :=
        if_pos hbind
      rw [hstore] at hx
      obtain ⟨c, hc⟩ := Id.exists_get?_of_mem (k := .decl) hx
      rw [Store.get?_bindAliases] at hc
      obtain ⟨y, hy, rfl⟩ := Option.map_eq_some_iff.mp hc
      have hrefers := (hrooted.decls y (Id.mem_of_get? hy)).mono hwithin
      refine hrefers.withAliases fun a ha ↦ ?_
      rcases List.mem_append.mp ha with ha | ha
      · exact hrefers.aliases a ha
      · have hclass := beq_iff_eq.mp (List.mem_filter.mp ha).2
        exact hwithin.decl (isTypedef_of_aliasedClass? hsound.tree hclass)
    · have hstore : f.freeze.forest.store = f.rooted.1.store := if_neg hbind
      rw [hstore] at hx
      exact (hrooted.decls x hx).mono hwithin
  · obtain ⟨old, hold, rfl⟩ := List.mem_map.mp hr
    exact ⟨old, hold, rfl⟩

theorem Refers.reopen (hs : f.Sound) (hf : f.Refers) : f.freeze.reopen.Refers := by
  have hfrozen := hf.freeze hs
  have hgrows := grows_reopen hs.freeze.2.1
  refine hfrozen.of_grows hgrows rfl (fun x hx ↦ ?_) fun registry hr ↦ ⟨registry, hr, rfl⟩
  obtain ⟨y, hy, rfl⟩ := List.mem_map.mp hx
  exact ((hfrozen.decls y hy).mono hgrows.within).withAliases nofun

structure Integral (f : Forest) : Prop where
  refers : f.Refers
  parents : ∀ x ∈ f.store.decls, ∀ p ∈ x.parent, ∃ kind, f.holding.decl p kind ∧ kind.isScope
  members : ∀ x ∈ f.store.decls, ∀ m ∈ x.members, ∃ kind, f.holding.decl m kind
  keys : ∀ entry ∈ f.keys, f.holding.decl entry.2 entry.1.kind ∧
    ∃ kind, f.holding.decl entry.1.parent kind ∧ kind.isScope
  root : ∀ d ∈ f.root, f.holding.decl d .namespaceDecl

theorem Sound.integral (hs : f.Sound) (hf : f.Refers) : f.Integral := by
  have hparent {x : Declaration} {d p : DeclId} (hx : d.get? f.store.decls = some x)
      (hp : x.parent = some p) : ∃ kind, f.holding.decl p kind ∧ kind.isScope := by
    obtain ⟨y, hy, hscope, -⟩ := hs.tree.parent hx hp
    exact ⟨y.kind, ⟨y, hy, rfl⟩, hscope⟩
  refine ⟨hf, ?_, ?_, ?_, ?_⟩
  · intro x hx p hp
    obtain ⟨d, hd⟩ := Id.exists_get?_of_mem (k := .decl) hx
    exact hparent hd hp
  · intro x hx m hm
    obtain ⟨d, hd⟩ := Id.exists_get?_of_mem (k := .decl) hx
    obtain ⟨y, hy, -⟩ := hs.tree.member hd hm
    exact ⟨y.kind, y, hy, rfl⟩
  · rintro ⟨key, d⟩ hentry
    obtain ⟨x, hx, hp, hk⟩ := hs.keyed hentry
    exact ⟨⟨x, hx, hk⟩, hparent hx hp⟩
  · intro d hd
    obtain ⟨x, hx, -, hk⟩ := hs.tree.root_held hd
    exact ⟨x, hx, hk⟩

end Forest

theorem Run.refers {units : List (List Record)} {lone : Bool} {f : Forest}
    (h : Run units lone f) : f.Refers := by
  have hboth : f.Sound ∧ f.Refers := by
    refine Run.invariant (P := fun _ _ f ↦ f.Sound ∧ f.Refers) ?_ ?_ ?_ h
    · exact fun settings ↦ ⟨Forest.sound_empty settings, Forest.refers_empty settings⟩
    · rintro units lone f g settings unit records u summary ⟨hs, hf⟩ hbuild hok
      obtain ⟨hu, -, -⟩ := buildUnit_eq_ok hbuild
      obtain ⟨r, hm⟩ := Forest.merge_eq_ok hs hu hok
      exact ⟨hm.sound, hf.merge hu hm⟩
    · rintro units lone f ⟨hs, hf⟩
      exact ⟨hs.reopen.1, hf.reopen hs⟩
  exact hboth.2

end ScopeForest
