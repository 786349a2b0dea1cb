import ScopeForest.Proofs.Forest.Merging

namespace ScopeForest

theorem Registry.returns_rebind_iff {registry : Registry} {change : Node → Node} :
    Outcome.Returns (registry.rebind change) ↔ registry.frozen = false := by
  unfold Registry.rebind
  split
  next hfrozen => simp [hfrozen, Outcome.Returns]
  next hthawed => exact ⟨fun _ ↦ by simpa using hthawed, fun _ ↦ ⟨_, rfl⟩⟩

namespace Forest

structure Grows (f g : Forest) : Prop where
  decls : ∀ {d : DeclId} {x : Declaration}, d.get? f.store.decls = some x →
    ∃ y, d.get? g.store.decls = some y ∧ x.Grows y
  types : f.store.types <+: g.store.types
  files : f.files <+: g.files
  registries : ∀ {unit : UnitId} {registry : Registry}, unit.get? f.registries = some registry →
    ∃ kept, unit.get? g.registries = some kept ∧ kept.bindings = registry.bindings
  root : ∀ {d : DeclId}, f.root = some d → g.root = some d

theorem Grows.refl (f : Forest) : f.Grows f :=
  ⟨fun hd ↦ ⟨_, hd, .refl _⟩, List.prefix_rfl, List.prefix_rfl, fun hr ↦ ⟨_, hr, rfl⟩, fun hd ↦ hd⟩

theorem Grows.trans {f g h : Forest} (hfg : f.Grows g) (hgh : g.Grows h) : f.Grows h where
  decls hd := by
    obtain ⟨y, hy, hxy⟩ := hfg.decls hd
    obtain ⟨z, hz, hyz⟩ := hgh.decls hy
    exact ⟨z, hz, hxy.trans hyz⟩
  types := hfg.types.trans hgh.types
  files := hfg.files.trans hgh.files
  registries hr := by
    obtain ⟨s, hs, hrs⟩ := hfg.registries hr
    obtain ⟨t, ht, hst⟩ := hgh.registries hs
    exact ⟨t, ht, hst.trans hrs⟩
  root hd := hgh.root (hfg.root hd)

/-- The forest `g` is `f` with the unit `u`, whose ids `r` renames. -/
structure Merged (f : Forest) (u : ResolvedUnit) (r : Renaming) (g : Forest) : Prop where
  unit : u.unit = f.nextUnit
  settings : g.settings = f.settings
  sound : g.Sound
  grows : f.Grows g
  rooted : g.root ≠ none
  types : g.store.types = f.store.types ++ u.store.types.map r.ty
  type : ∀ {t : TypeId} {node : Ty}, t.get? u.store.types = some node →
    (r.type t).get? g.store.types = some (r.ty node)
  node : ∀ {d : DeclId} {x : Declaration}, d.get? u.store.decls = some x →
    ∃ y, (r.decl d).get? g.store.decls = some y ∧ y.kind = x.kind ∧
      y.parent = x.parent.map r.decl
  created : ∀ {d : DeclId} {y : Declaration}, d.get? g.store.decls = some y →
    (∃ x, d.get? f.store.decls = some x ∧ x.Grows y) ∨
      ∃ e x, e.get? u.store.decls = some x ∧ r.decl e = d ∧ y.unit = x.unit ∧
        y.externalId = x.externalId
  file : ∀ {i : FileId} {path : String}, i.get? u.files = some path →
    (r.file i).get? g.files = some path
  registry : ∃ registry, g.registries = f.registries ++ [registry] ∧
    ∀ x, registry.get? x = (u.registry.get? x).map r.node
  /-- A merge only copies declarations, adds members and lets nodes absorb copies. -/
  only : ∀ P : Declaration → Prop, (∀ x ∈ f.store.decls, P x) →
    (∀ x ∈ u.store.decls, ∀ d, P (r.declaration d x)) → (∀ x m, P x → P (x.addMember m)) →
    (∀ x y, P x → P y → P (x.absorb y)) → ∀ x ∈ g.store.decls, P x

variable {f g : Forest} {r : Renaming} {u : ResolvedUnit} {plan : List Placement} {p : Placement}

theorem addNode_frame (g : Forest) (y : Declaration) :
    (g.addNode y).store.types = g.store.types ∧ (g.addNode y).files = g.files ∧
      (g.addNode y).registries = g.registries ∧ (g.addNode y).settings = g.settings := by
  unfold addNode
  split <;> exact ⟨rfl, rfl, rfl, rfl⟩

theorem applyPlacement_frame (r : Renaming) (g : Forest) (p : Placement) :
    (applyPlacement r g p).store.types = g.store.types ∧
      (applyPlacement r g p).files = g.files ∧
      (applyPlacement r g p).registries = g.registries ∧
      (applyPlacement r g p).settings = g.settings := by
  unfold applyPlacement
  split
  · simp only
    split
    · exact addNode_frame g _
    · unfold addKey
      split <;> exact addNode_frame g _
  · exact ⟨rfl, rfl, rfl, rfl⟩

theorem foldl_applyPlacement_frame (r : Renaming) (plan : List Placement) (g : Forest) :
    (plan.foldl (applyPlacement r) g).store.types = g.store.types ∧
      (plan.foldl (applyPlacement r) g).files = g.files ∧
      (plan.foldl (applyPlacement r) g).registries = g.registries ∧
      (plan.foldl (applyPlacement r) g).settings = g.settings := by
  induction plan generalizing g with
  | nil => exact ⟨rfl, rfl, rfl, rfl⟩
  | cons p plan ih =>
    obtain ⟨ht, hf, hr, hs⟩ := applyPlacement_frame r g p
    obtain ⟨iht, ihf, ihr, ihs⟩ := ih (applyPlacement r g p)
    exact ⟨iht.trans ht, ihf.trans hf, ihr.trans hr, ihs.trans hs⟩

theorem forall_applyPlacement {P : Declaration → Prop} (hg : ∀ x ∈ g.store.decls, P x)
    (hcopy : ∀ d, P (r.declaration d p.source)) (hmember : ∀ x m, P x → P (x.addMember m))
    (habsorb : ∀ x y, P x → P y → P (x.absorb y)) :
    ∀ x ∈ (applyPlacement r g p).store.decls, P x := by
  have hmodify {decls : List Declaration} {change : Declaration → Declaration} (i : DeclId)
      (hall : ∀ x ∈ decls, P x) (hchange : ∀ x, P x → P (change x)) :
      ∀ x ∈ i.modify change decls, P x := by
    intro x hx
    obtain ⟨d, hd⟩ := Id.exists_get?_of_mem (k := .decl) hx
    rw [Id.get?_modify] at hd
    split at hd
    · obtain ⟨y, hy, rfl⟩ := Option.map_eq_some_iff.mp hd
      exact hchange y (hall y (Id.mem_of_get? hy))
    · exact hall x (Id.mem_of_get? hd)
  cases hp : p.target with
  | joined d =>
    rw [applyPlacement, hp]
    exact hmodify d hg fun x hx ↦ habsorb x _ hx (hcopy d)
  | new d =>
    rw [(applyPlacement_new hp).1]
    have hnew : ∀ x ∈ g.store.decls ++ [r.declaration d p.source], P x := by
      intro x hx
      rcases List.mem_append.mp hx with hx | hx
      · exact hg x hx
      · rw [List.mem_singleton.mp hx]
        exact hcopy d
    unfold addNode
    split
    · exact hnew
    · exact hmodify _ hnew fun x hx ↦ hmember x _ hx

theorem forall_foldl_applyPlacement {P : Declaration → Prop} (hg : ∀ x ∈ g.store.decls, P x)
    (hcopy : ∀ p ∈ plan, ∀ d, P (r.declaration d p.source))
    (hmember : ∀ x m, P x → P (x.addMember m)) (habsorb : ∀ x y, P x → P y → P (x.absorb y)) :
    ∀ x ∈ (plan.foldl (applyPlacement r) g).store.decls, P x := by
  induction plan generalizing g with
  | nil => exact hg
  | cons p plan ih =>
    refine ih (forall_applyPlacement hg (hcopy p List.mem_cons_self) hmember habsorb) ?_
    exact fun q hq ↦ hcopy q (List.mem_cons_of_mem p hq)

theorem prefix_internFiles (files paths : List String) : files <+: internFiles files paths := by
  unfold internFiles
  induction paths generalizing files with
  | nil => exact List.prefix_rfl
  | cons path paths ih =>
    rw [List.foldl_cons]
    split
    · exact ih files
    · exact (List.prefix_append _ _).trans (ih _)

theorem mem_internFiles {files paths : List String} {path : String} (h : path ∈ paths) :
    path ∈ internFiles files paths := by
  induction paths generalizing files with
  | nil => cases h
  | cons first paths ih =>
    rcases List.mem_cons.mp h with rfl | h
    · have hstep : path ∈ internFiles files [path] := by
        simp only [internFiles, List.foldl_cons, List.foldl_nil]
        split
        · assumption
        · simp
      exact (prefix_internFiles (internFiles files [path]) paths).subset hstep
    · exact ih h

theorem file_renamingOf {i : FileId} {path : String} (h : i.get? u.files = some path) :
    ((f.renamingOf u plan (internFiles f.files u.files)).file i).get?
      (internFiles f.files u.files) = some path := by
  have hmem : path ∈ internFiles f.files u.files := mem_internFiles (Id.mem_of_get? h)
  simp only [renamingOf, h, Id.get?_ofIndex]
  exact List.getElem?_idxOf hmem

theorem type_renamingOf {files : List String} {t : TypeId} {node : Ty}
    (h : t.get? u.store.types = some node) :
    ((f.renamingOf u plan files).type t).get?
      (f.store.types ++ u.store.types.map (f.renamingOf u plan files).ty) =
        some ((f.renamingOf u plan files).ty node) := by
  obtain ⟨n, rfl, hn⟩ := Id.get?_eq_some_iff.mp h
  have hid : (f.renamingOf u plan files).type (Id.ofIndex n) =
      Id.ofIndex (f.store.types.length + n) :=
    congrArg Id.mk (by simp only [Id.val_ofIndex]; omega)
  rw [hid]
  refine Id.get?_append_right ?_
  rw [List.getElem?_map, hn]
  rfl

theorem decl_renamingOf {files : List String} {d e : DeclId} (h : placed? plan d = some e) :
    (f.renamingOf u plan files).decl d = e := by
  simp only [renamingOf, h, Option.getD_some]

theorem Merging.node_of_unit (hm : f.Merging r plan g) (hu : u.Sound) (hplans : f.Plans u plan)
    (hrename : ∀ {d e}, placed? plan d = some e → r.decl d = e) {d e : DeclId} {x : Declaration}
    (hd : d.get? u.store.decls = some x) (he : placed? plan d = some e) :
    ∃ y, (r.decl d).get? g.store.decls = some y ∧ y.kind = x.kind ∧
      y.parent = x.parent.map r.decl := by
  obtain ⟨p, hp, hid, rfl⟩ := placed?_eq_some he
  have hsource := hplans.get?_source hu p hp
  rw [hid, hd] at hsource
  cases hsource
  rw [hrename he]
  exact hm.node p hp

theorem get?_rebind {registry kept : Registry} {change : Node → Node}
    (h : registry.rebind change = .ok kept) (x : ExternalId) :
    kept.get? x = (registry.get? x).map change := by
  unfold Registry.rebind at h
  split at h
  · cases h
  · cases h
    exact NameMap.get?_map _ _ _

def carryOut (f : Forest) (u : ResolvedUnit) (plan : List Placement) (registry : Registry) :
    Forest :=
  { f.grow u plan with registries := f.registries ++ [registry] }

theorem merge_eq (f : Forest) (u : ResolvedUnit) : f.merge u =
    if u.unit ≠ f.nextUnit then Outcome.refuse (.unitOutOfOrder f.nextUnit u.unit) else do
      let plan ← f.plan u
      let registry ← Outcome.ofExcept (u.registry.rebind (f.planRenaming u plan).node)
      return (f.carryOut u plan registry, summary u plan) := by
  by_cases hunit : u.unit ≠ f.nextUnit
  · rw [merge, attemptMerge, if_pos hunit, if_pos hunit]
    rfl
  · rw [merge, attemptMerge, if_neg hunit, if_neg hunit]
    cases f.plan u with
    | error e => rfl
    | ok plan =>
      simp only [bind, Except.bind]
      cases Outcome.ofExcept (u.registry.rebind (f.planRenaming u plan).node) <;> rfl

theorem merge_eq_ok_iff {summary : MergeSummary} :
    f.merge u = .ok (g, summary) ↔ u.unit = f.nextUnit ∧ ∃ plan registry, f.plan u = .ok plan ∧
      u.registry.rebind (f.planRenaming u plan).node = .ok registry ∧
        g = f.carryOut u plan registry ∧ summary = Forest.summary u plan := by
  rw [merge_eq]
  constructor
  · intro h
    split at h
    next => cases h
    next hunit =>
      obtain ⟨plan, hplan, h⟩ := Outcome.bind_eq_ok h
      obtain ⟨registry, hregistry, h⟩ := Outcome.bind_eq_ok h
      obtain ⟨rfl, rfl⟩ := Prod.mk.inj (Except.ok.inj h)
      exact ⟨by simpa using hunit, plan, registry, hplan, Outcome.ofExcept_eq_ok hregistry, rfl, rfl⟩
  · rintro ⟨hunit, plan, registry, hplan, hregistry, rfl, rfl⟩
    rw [if_neg (by simpa using hunit), hplan]
    simp only [bind, Except.bind, hregistry]
    rfl

section Attempts

variable {summary : MergeSummary} {records : List Record} {unit : UnitId} {e : Failure}

theorem attemptMerge_of_ok (h : f.merge u = .ok (g, summary)) :
    f.attemptMerge u = (g, .ok summary) := by
  unfold merge at h
  cases hmerge : f.attemptMerge u with
  | mk k answer =>
    rw [hmerge] at h
    cases answer with
    | error e => cases h
    | ok s =>
      cases h
      rfl

/-- A merge that fails leaves the forest as it was, since the registry of the unit can be rebound. -/
theorem attemptMerge_of_error (hu : u.registry.frozen = false) (h : f.merge u = .error e) :
    f.attemptMerge u = (f, .error e) := by
  rw [merge_eq] at h
  unfold attemptMerge
  by_cases hunit : u.unit ≠ f.nextUnit
  · rw [if_pos hunit] at h ⊢
    cases h
    rfl
  · rw [if_neg hunit] at h ⊢
    cases hplan : f.plan u with
    | error e' =>
      rw [hplan] at h
      cases h
      rfl
    | ok plan =>
      have hrebind : Outcome.Returns (u.registry.rebind (f.planRenaming u plan).node) :=
        Registry.returns_rebind_iff.mpr hu
      obtain ⟨registry, hregistry⟩ := hrebind
      simp only [hplan, bind, Except.bind, hregistry] at h
      cases h

theorem addUnit_eq (f : Forest) (records : List Record) : f.addUnit records = do
    let (g, summary) ← f.merge (← buildUnit f.settings f.nextUnit records)
    return (g, summary.unit) := by
  unfold addUnit attempt
  cases buildUnit f.settings f.nextUnit records with
  | error e => rfl
  | ok u =>
    simp only [merge, bind, Except.bind]
    cases f.attemptMerge u with
    | mk g answer => cases answer <;> rfl

theorem addUnit_eq_ok (h : f.addUnit records = .ok (g, unit)) :
    ∃ u summary, buildUnit f.settings f.nextUnit records = .ok u ∧
      f.merge u = .ok (g, summary) := by
  rw [addUnit_eq] at h
  obtain ⟨u, hbuild, h⟩ := Outcome.bind_eq_ok h
  obtain ⟨⟨g, summary⟩, hmerge, h⟩ := Outcome.bind_eq_ok h
  cases h
  exact ⟨u, summary, hbuild, hmerge⟩

theorem attempt_of_ok (h : f.addUnit records = .ok (g, unit)) :
    f.attempt records = (g, .ok unit) := by
  unfold addUnit at h
  cases hadd : f.attempt records with
  | mk k answer =>
    rw [hadd] at h
    cases answer with
    | error e => cases h
    | ok s =>
      cases h
      rfl

theorem attempt_of_error (h : f.addUnit records = .error e) : f.attempt records = (f, .error e) := by
  rw [addUnit_eq] at h
  unfold attempt
  cases hbuild : buildUnit f.settings f.nextUnit records with
  | error e' =>
    rw [hbuild] at h
    cases h
    rfl
  | ok u =>
    rw [hbuild] at h
    cases hmerge : f.merge u with
    | error e' =>
      simp only [bind, Except.bind, hmerge] at h
      cases h
      simp only [attemptMerge_of_error (unfrozen_of_buildUnit hbuild) hmerge]
      rfl
    | ok merged =>
      simp only [bind, Except.bind, hmerge] at h
      cases h

end Attempts

/-- A merge that succeeds adds the unit under some renaming of its ids. -/
theorem merge_eq_ok (hf : f.Sound) (hu : u.Sound) {summary : MergeSummary}
    (h : f.merge u = .ok (g, summary)) : ∃ r, f.Merged u r g := by
  obtain ⟨hunit, plan, registry, hplan, hregistry, rfl, -⟩ := merge_eq_ok_iff.mp h
  obtain ⟨hplans, hall⟩ := plan_eq_ok hu hplan
  let r := f.planRenaming u plan
  have hrename {d e : DeclId} (hd : placed? plan d = some e) : r.decl d = e := decl_renamingOf hd
  let typed := f.typed u plan
  have hm : f.Merging r plan (plan.foldl (applyPlacement r) typed) :=
    Plans.merging hf hu rfl rfl rfl hrename hplans List.prefix_rfl
  obtain ⟨htypes, hfiles, -, hsettings⟩ := foldl_applyPlacement_frame r plan typed
  have hnode {d : DeclId} {x : Declaration} (hd : d.get? u.store.decls = some x) :=
    hm.node_of_unit hu hplans hrename hd (hall hd).choose_spec
  refine ⟨r, ?_⟩
  constructor
  case unit => exact hunit
  case settings => exact hsettings
  case sound => exact ⟨hm.sound.tree, hm.sound.earlier, hm.sound.keyed⟩
  case grows =>
    refine ⟨hm.grows, ?_, ?_, fun hkept ↦ ⟨_, Id.get?_append_left hkept, rfl⟩, hm.root⟩
    · show f.store.types <+: (plan.foldl (applyPlacement r) typed).store.types
      rw [htypes]
      exact List.prefix_append _ _
    · show f.files <+: (plan.foldl (applyPlacement r) typed).files
      rw [hfiles]
      exact prefix_internFiles _ _
  case rooted =>
    obtain ⟨x, hx, hp, -⟩ := hu.tree.root_held rfl
    obtain ⟨y, hy, -, hparent⟩ := hnode hx
    rw [hp] at hparent
    have hroot := hm.sound.tree.orphan hy hparent
    exact fun hnone ↦ by cases hroot.symm.trans hnone
  case types => exact htypes
  case type =>
    intro t node ht
    show (r.type t).get? (plan.foldl (applyPlacement r) typed).store.types = _
    rw [htypes]
    exact type_renamingOf ht
  case node => exact hnode
  case created =>
    intro d y hd
    rcases hm.created hd with hold | ⟨p, hp, hnew, hpunit, hpid⟩
    · exact .inl hold
    · refine .inr ⟨p.source.id, p.source, hplans.get?_source hu p hp, ?_, hpunit, hpid⟩
      rw [hrename (hplans.placed?_source p hp), hnew]
      rfl
  case file =>
    intro i path hi
    show (r.file i).get? (plan.foldl (applyPlacement r) typed).files = _
    rw [hfiles]
    exact file_renamingOf hi
  case registry => exact ⟨registry, rfl, get?_rebind hregistry⟩
  case only =>
    intro P hP hcopy hmember habsorb
    refine forall_foldl_applyPlacement hP (fun p hp ↦ hcopy p.source ?_) hmember habsorb
    exact Id.mem_of_get? (hplans.get?_source hu p hp)

end Forest

end ScopeForest
