import ScopeForest.Proofs.Forest.Apart
import ScopeForest.Proofs.Forest.Steps

namespace ScopeForest

/-- The declaration is an unnamed scope or lies inside one. -/
def Store.Secluded (s : Store) (d : DeclId) : Prop :=
  ∃ e x, s.Below e d ∧ e.get? s.decls = some x ∧ x.isAnonymous = true

namespace Forest

variable {f : Forest} {u : ResolvedUnit} {plan : List Placement} {p : Placement} {d e l : DeclId}
  {x : Declaration}

theorem Plans.named_of_key (h : f.Plans u plan) (hp : p ∈ plan) {key : MergeKey}
    (hkey : p.key = some key) : p.source.isAnonymous = false := by
  induction h with
  | root hx =>
    rw [List.mem_singleton.mp hp] at hkey
    cases hkey
  | snoc _ _ _ _ _ hok ih =>
    rcases List.mem_append.mp hp with hp | hp
    · exact ih hp
    · rw [List.mem_singleton.mp hp] at hkey ⊢
      exact (keyOf_eq_ok hok key hkey).2.2

theorem Plans.joined_scope (hf : f.Sound) (hu : u.Sound) (h : f.Plans u plan) (hp : p ∈ plan)
    (ht : p.target = .joined d) (hl : p.source.parent = some l) :
    p.source.isAnonymous = false ∧ ∃ q ∈ plan, ∃ e x, q.source.id = l ∧ q.target = .joined e ∧
      d.get? f.store.decls = some x ∧ x.parent = some e := by
  induction h with
  | root hx =>
    obtain ⟨y, hy, hparent, -⟩ := hu.tree.root_held rfl
    rw [hx] at hy
    cases hy
    rw [List.mem_singleton.mp hp, hparent] at hl
    cases hl
  | @snoc done x parent scope key h hx hfresh hparent hscope hok ih =>
    rcases List.mem_append.mp hp with hp | hp
    · obtain ⟨hnamed, q, hq, hrest⟩ := ih hp
      exact ⟨hnamed, q, List.mem_append_left _ hq, hrest⟩
    · rw [List.mem_singleton.mp hp] at ht hl ⊢
      cases hparent.symm.trans hl
      obtain ⟨k, hk, hd⟩ := Option.bind_eq_some_iff.mp (targetOf_joined ht)
      obtain ⟨hkparent, -, hnamed⟩ := keyOf_eq_ok hok k hk
      obtain ⟨y, hy, hyp, -⟩ := hf.keyed (mem_keys_of_keyed? hd)
      rw [hkparent] at hyp
      obtain ⟨q, hq, hqid, hqt⟩ := placed?_eq_some hscope
      refine ⟨hnamed, q, List.mem_append_left _ hq, scope, y, hqid, ?_, hy, hyp⟩
      -- the scope was there before
      obtain ⟨z, hz, -⟩ := hf.tree.parent hy hyp
      have hle := (Id.val_pos_of_get? hz).2
      cases hnew : q.target with
      | joined e =>
        rw [hnew] at hqt
        exact congrArg Target.joined hqt
      | new e =>
        rw [hnew] at hqt
        cases hqt
        have hlt := (h.target_new hq hnew).1
        simp only [Target.id] at hle
        omega

theorem Plans.not_secluded_of_joined (hf : f.Sound) (hu : u.Sound)
    (hroot : ∀ {x}, u.root.get? u.store.decls = some x → x.anonymous = none)
    (h : f.Plans u plan) (hp : p ∈ plan) (ht : p.target = .joined d) :
    ¬u.store.Secluded p.source.id := by
  rintro ⟨e, x, hbelow, hx, hanonymous⟩
  generalize hid : p.source.id = l at hbelow
  induction hbelow generalizing p d with
  | refl =>
    have hsource := h.get?_source hu p hp
    rw [hid, hx] at hsource
    cases hsource
    cases hparent : p.source.parent with
    | none =>
      cases hu.tree.orphan hx hparent
      simp [Declaration.isAnonymous, hroot hx] at hanonymous
    | some scope =>
      obtain ⟨hnamed, -⟩ := h.joined_scope hf hu hp ht hparent
      rw [hanonymous] at hnamed
      cases hnamed
  | @step l scope y hl hparent _ ih =>
    have hsource := h.get?_source hu p hp
    rw [hid, hl] at hsource
    cases hsource
    obtain ⟨-, q, hq, e', z, hqid, hqt, -⟩ := h.joined_scope hf hu hp ht hparent
    exact ih hq hqt hqid

def KeysNamed (f : Forest) : Prop :=
  ∀ d x, (f.root = some d ∨ ∃ key, f.keyed? key = some d) → d.get? f.store.decls = some x →
    x.isAnonymous = false

theorem Plans.node_not_secluded (hf : f.Sound) (hnamed : f.KeysNamed) (hu : u.Sound)
    (h : f.Plans u plan) (hp : p ∈ plan) (ht : p.target = .joined d) : ¬f.store.Secluded d := by
  rintro ⟨e, x, hbelow, hx, hanonymous⟩
  induction hbelow generalizing p with
  | refl =>
    have hknown : f.root = some e ∨ ∃ key, f.keyed? key = some e := by
      rcases h.joined hp ht with ⟨-, hroot⟩ | ⟨key, -, hkey⟩
      · exact .inl hroot
      · exact .inr ⟨key, hkey⟩
    rw [hnamed e x hknown hx] at hanonymous
    cases hanonymous
  | @step d scope y hd hparent _ ih =>
    cases hl : p.source.parent with
    | none =>
      -- only the root of the forest is joined by that of a unit
      have hroot := targetOf_joined ((h.target_of_orphan hp hl).symm.trans ht)
      obtain ⟨z, hz, hzp, -⟩ := hf.tree.root_held hroot
      cases hz.symm.trans hd
      rw [hparent] at hzp
      cases hzp
    | some l =>
      obtain ⟨-, q, hq, e', z, -, hqt, hz, hzp⟩ := h.joined_scope hf hu hp ht hl
      cases hz.symm.trans hd
      rw [hparent] at hzp
      cases hzp
      exact ih hq hqt

end Forest

theorem MergeStep.Valid.namesDecl_iff {m : MergeStep} {d : DeclId} {registry : Registry}
    (hm : m.Valid) (h : m.unit.registry.rebind m.remap.node = .ok registry) :
    (∃ id, registry.NamesDecl id d) ↔ ∃ p ∈ m.plan, p.target.id = d := by
  simp only [Registry.NamesDecl, Forest.get?_rebind h, Option.map_eq_some_iff]
  constructor
  · rintro ⟨id, node, hnode, heq⟩
    cases node with
    | type t => cases heq
    | decl l =>
      obtain ⟨x, hx⟩ := hm.unit.bound hnode
      obtain ⟨p, hp, -, -, himage⟩ := hm.image hx
      exact ⟨p, hp, himage.symm.trans (Node.decl.inj heq)⟩
  · rintro ⟨p, hp, rfl⟩
    exact ⟨p.source.externalId, .decl p.source.id, hm.unit.named (hm.source hp),
      congrArg Node.decl (hm.remap_source hp)⟩

namespace History

variable {steps : List MergeStep} {f : Forest} {m n : MergeStep} {p q : Placement} {d e l : DeclId}
  {y : Declaration}

theorem anonymous_new (h : History steps f) (hm : m ∈ steps) (hp : p ∈ m.plan)
    (ht : p.target = .new d) (hd : d.get? f.store.decls = some y) :
    y.anonymous = p.source.anonymous := by
  have hvalid := h.valid hm
  obtain ⟨registry, -, hafter, -⟩ := m.carryOut_plan hvalid.planned hvalid.merged
  obtain ⟨x, hx, -⟩ := hvalid.node hp
  obtain ⟨z, hz, hxz⟩ := (h.grows hm).decls hx
  rw [ht] at hz hx
  cases hz.symm.trans hd
  rw [hafter] at hx
  exact hxz.anonymous.trans
    (hvalid.plans.alike_new hvalid.sound hvalid.unit hp ht hx).anonymous

theorem keysNamed (h : History steps f) : f.KeysNamed := by
  rintro d x (hroot | ⟨key, hkey⟩) hx
  · obtain ⟨lone, hrun⟩ := h.run
    rw [Declaration.isAnonymous, (hrun.rootNamed d x hroot hx).2]
    rfl
  · obtain ⟨m, hm, p, hp, hpkey, ht⟩ := h.key_origin hkey
    rw [Declaration.isAnonymous, h.anonymous_new hm hp ht hx]
    exact (h.valid hm).plans.named_of_key hp hpkey

theorem below_image (h : History steps f) (hm : m ∈ steps) (hbelow : m.unit.store.Below e l) :
    f.store.Below (m.remap.decl e) (m.remap.decl l) := by
  induction hbelow with
  | refl => exact .refl
  | step hl hparent _ ih =>
    obtain ⟨p, hp, rfl, -, himage⟩ := (h.valid hm).image hl
    obtain ⟨y, hy, -, hyp⟩ := h.node hm hp
    rw [hparent, Option.map_some] at hyp
    rw [himage]
    exact .step hy hyp ih

theorem created_of_secluded (h : History steps f) (hm : m ∈ steps)
    (hd : m.unit.store.HoldsDecl d) (hsecluded : m.unit.store.Secluded d) :
    ∃ p ∈ m.plan, p.source.id = d ∧ p.target = .new (m.remap.decl d) := by
  have hvalid := h.valid hm
  obtain ⟨x, hx⟩ := hd
  obtain ⟨p, hp, -, rfl, himage⟩ := hvalid.image hx
  refine ⟨p, hp, rfl, ?_⟩
  rw [himage]
  cases ht : p.target with
  | new e => rfl
  | joined e =>
    refine absurd hsecluded (hvalid.plans.not_secluded_of_joined hvalid.sound hvalid.unit ?_ hp ht)
    exact fun hroot ↦ (root_of_buildUnit hvalid.built hroot).2

theorem secluded_image (h : History steps f) (hm : m ∈ steps)
    (hsecluded : m.unit.store.Secluded d) : f.store.Secluded (m.remap.decl d) := by
  obtain ⟨e, x, hbelow, hx, hanonymous⟩ := hsecluded
  -- the unnamed scope itself has a node of its own, which is a copy of it
  obtain ⟨p, hp, rfl, ht⟩ := h.created_of_secluded hm ⟨x, hx⟩ ⟨e, x, .refl, hx, hanonymous⟩
  cases hx.symm.trans ((h.valid hm).source hp)
  obtain ⟨y, hy, -⟩ := h.node hm hp
  rw [ht] at hy
  refine ⟨_, y, h.below_image hm hbelow, hy, ?_⟩
  rw [Declaration.isAnonymous, h.anonymous_new hm hp ht hy]
  exact hanonymous

theorem alone_of_secluded (h : History steps f) (hm : m ∈ steps)
    (hd : m.unit.store.HoldsDecl d) (hsecluded : m.unit.store.Secluded d) (hn : n ∈ steps)
    (hq : q ∈ n.plan) (htarget : q.target.id = m.remap.decl d) : n = m ∧ q.source.id = d := by
  obtain ⟨p, hp, hid, ht⟩ := h.created_of_secluded hm hd hsecluded
  have hpt : p.target.id = m.remap.decl d := congrArg Target.id ht
  rcases h.order hm hn with rfl | ⟨done, hbefore, hn⟩ | ⟨done, hbefore, hm⟩
  · cases (h.valid hn).eq_of_target hq hp (htarget.trans hpt.symm)
    exact ⟨rfl, hid⟩
  · -- the node was not there for an earlier unit
    obtain ⟨y, hy, -⟩ := hbefore.node hn hq
    rw [htarget] at hy
    have hle := (Id.val_pos_of_get? hy).2
    have hlt := (h.valid hm).new_lt hp ht
    omega
  · -- a later unit would have joined it
    have hvalid := h.valid hn
    obtain ⟨y, hy, -⟩ := hbefore.node hm hp
    rw [hpt] at hy
    have hle := (Id.val_pos_of_get? hy).2
    cases hqt : q.target with
    | new e =>
      have hlt := hvalid.new_lt hq hqt
      have he : e = m.remap.decl d := by rwa [hqt] at htarget
      rw [he] at hlt
      omega
    | joined e =>
      have he : e = m.remap.decl d := by rwa [hqt] at htarget
      rw [he] at hqt
      exact absurd (hbefore.secluded_image hm hsecluded)
        (hvalid.plans.node_not_secluded hbefore.sound hbefore.keysNamed hvalid.unit hq hqt)

/-- A registry binds just the nodes that the declarations of its unit were mapped onto. -/
theorem namesDecl_iff (h : History steps f) {unit : UnitId} :
    (∃ registry ∈ unit.get? f.registries, ∃ id, registry.NamesDecl id d) ↔
      ∃ m ∈ steps, m.unit.unit = unit ∧ ∃ p ∈ m.plan, p.target.id = d := by
  induction h with
  | start settings =>
    constructor
    · rintro ⟨registry, hget, -⟩
      exact absurd (Id.mem_of_get? hget) List.not_mem_nil
    · rintro ⟨m, hm, -⟩
      cases hm
  | @merge steps m _ hbefore hbuild hplan hok ih =>
    have hlast : m ∈ steps ++ [m] := List.mem_append_right _ List.mem_cons_self
    have hm := hbefore.valid_merge hbuild hplan hok
    have hunit : m.unit.unit = m.before.nextUnit := (Forest.merge_eq_ok_iff.mp hok).1
    obtain ⟨kept, hkept, hafter, -⟩ := m.carryOut_plan hplan hok
    have hregistries : m.after.registries = m.before.registries ++ [kept] := by rw [hafter]; rfl
    rw [hregistries]
    constructor
    · rintro ⟨registry, hget, id, hid⟩
      rcases Id.get?_append_singleton hget with hget | ⟨rfl, rfl⟩
      · obtain ⟨n, hn, hrest⟩ := ih.mp ⟨registry, hget, id, hid⟩
        exact ⟨n, List.mem_append_left _ hn, hrest⟩
      · exact ⟨m, hlast, hunit, (hm.namesDecl_iff hkept).mp ⟨id, hid⟩⟩
    · rintro ⟨n, hn, rfl, himage⟩
      rcases List.mem_append.mp hn with hn | hn
      · obtain ⟨registry, hget, hid⟩ := ih.mpr ⟨n, hn, rfl, himage⟩
        exact ⟨registry, Id.get?_append_left hget, hid⟩
      · rw [List.mem_singleton.mp hn] at himage ⊢
        refine ⟨kept, ?_, (hm.namesDecl_iff hkept).mpr himage⟩
        rw [hunit]
        exact Id.get?_next_append
  | @reopen steps f hbefore ih =>
    have hregistries : f.freeze.reopen.registries = f.registries.map Registry.freeze :=
      Forest.registries_freeze f
    rw [← ih, hregistries, Id.get?_map]
    constructor
    · rintro ⟨_, hfrozen, id, hid⟩
      obtain ⟨registry, hget, rfl⟩ := Option.map_eq_some_iff.mp hfrozen
      exact ⟨registry, hget, id, hid⟩
    · rintro ⟨registry, hget, id, hid⟩
      exact ⟨registry.freeze, Option.map_eq_some_iff.mpr ⟨registry, hget, rfl⟩, id, hid⟩

end History

/-- The node of the declaration `d` of a unit belongs to that unit alone. -/
structure Private (steps : List MergeStep) (registries : List Registry) (m : MergeStep)
    (d : DeclId) : Prop where
  created : ∃ p ∈ m.plan, p.source.id = d ∧ p.target = .new (m.remap.decl d)
  alone : ∀ n ∈ steps, ∀ q ∈ n.plan, q.target.id = m.remap.decl d → n = m ∧ q.source.id = d
  bound : ∀ unit, (∃ registry ∈ unit.get? registries, ∃ id,
    registry.NamesDecl id (m.remap.decl d)) ↔ unit = m.unit.unit

section Private

variable {steps : List MergeStep} {f : Forest} {m : MergeStep} {d : DeclId}

theorem History.private_of_secluded (h : History steps f) (hm : m ∈ steps)
    (hd : m.unit.store.HoldsDecl d) (hsecluded : m.unit.store.Secluded d) :
    Private steps f.registries m d := by
  have halone {n : MergeStep} {q : Placement} (hn : n ∈ steps) (hq : q ∈ n.plan)
      (ht : q.target.id = m.remap.decl d) := h.alone_of_secluded hm hd hsecluded hn hq ht
  refine ⟨h.created_of_secluded hm hd hsecluded, fun n hn q hq ht ↦ halone hn hq ht,
    fun unit ↦ ?_⟩
  rw [h.namesDecl_iff]
  constructor
  · rintro ⟨n, hn, rfl, q, hq, ht⟩
    rw [(halone hn hq ht).1]
  · rintro rfl
    obtain ⟨p, hp, -, ht⟩ := h.created_of_secluded hm hd hsecluded
    exact ⟨m, hm, rfl, p, hp, by rw [ht]; rfl⟩

/-- In every run, what is an unnamed scope or lies inside one gets a node of its own. -/
theorem Run.keepsPrivate {units : List (List Record)} {lone : Bool} (h : Run units lone f) :
    (∃ steps, History steps f ∧ steps.map (·.records) = units) ∧ ∀ steps, History steps f →
      ∀ m ∈ steps, ∀ d, m.unit.store.HoldsDecl d → m.unit.store.Secluded d →
        Private steps f.registries m d ∧ Private steps f.freeze.forest.registries m d := by
  refine ⟨h.history, fun steps hsteps m hm d hd hsecluded ↦ ⟨?_, ?_⟩⟩
  · exact hsteps.private_of_secluded hm hd hsecluded
  · exact hsteps.reopen.private_of_secluded hm hd hsecluded

def Sample.hidden : List Record :=
  [({ tag := .namespaceTag, id := "n" } : Record).withLiteral Field.name "::",
    ({ tag := .structTag, id := "a" } : Record).withRef Field.context "n",
    (({ tag := .structTag, id := "b" } : Record).withLiteral Field.name "b").withRef
      Field.context "a"]

/-- The inner structures of two such units have one name, but each has its own node. -/
theorem keepsPrivate_sample : ∃ f lone steps, Run (steps.map (·.records)) lone f ∧
    History steps f ∧ ∃ m ∈ steps, m.unit.unit = ⟨2⟩ ∧ m.unit.store.HoldsDecl ⟨3⟩ ∧
      m.unit.store.Secluded ⟨3⟩ ∧ m.remap.decl ⟨3⟩ = ⟨5⟩ ∧ Private steps f.registries m ⟨3⟩ := by
  have h : (fun k : MergeStep × MergeStep ↦ (k.2.unit.unit, k.2.remap.decl ⟨3⟩,
        k.2.unit.store.decls.map fun x ↦ (x.parent, x.isAnonymous))) <$> mergeTwice Sample.hidden =
      .ok (⟨2⟩, ⟨5⟩, [(none, false), (some ⟨1⟩, true), (some ⟨2⟩, false)]) := by
    cbv
  obtain ⟨⟨m, n⟩, htwice, hdata⟩ := Outcome.map_eq_ok h
  simp only [Prod.mk.injEq] at hdata
  obtain ⟨hunit, himage, hdecls⟩ := hdata
  have hnode {d : DeclId} {parent : Option DeclId} {unnamed : Bool}
      (hd : d.get? [(none, false), (some ⟨1⟩, true), (some ⟨2⟩, false)] = some (parent, unnamed)) :
      ∃ x, d.get? n.unit.store.decls = some x ∧ x.parent = parent ∧ x.isAnonymous = unnamed := by
    rw [← hdecls, Id.get?_map] at hd
    obtain ⟨x, hx, heq⟩ := Option.map_eq_some_iff.mp hd
    exact ⟨x, hx, Prod.mk.inj heq⟩
  obtain ⟨x, hx, -, hanonymous⟩ := hnode (d := ⟨2⟩) rfl
  obtain ⟨y, hy, hparent, -⟩ := hnode (d := ⟨3⟩) rfl
  have hsecluded : n.unit.store.Secluded ⟨3⟩ :=
    ⟨⟨2⟩, x, .step hy hparent .refl, hx, hanonymous⟩
  obtain ⟨hsteps, -⟩ := history_of_mergeTwice htwice (by decide)
  obtain ⟨lone, hrun⟩ := hsteps.run
  have hn : n ∈ [m, n] := by simp
  exact ⟨n.after, lone, [m, n], hrun, hsteps, n, hn, hunit, ⟨y, hy⟩, hsecluded, himage,
    (hrun.keepsPrivate.2 [m, n] hsteps n hn ⟨3⟩ ⟨y, hy⟩ hsecluded).1⟩

end Private

end ScopeForest
