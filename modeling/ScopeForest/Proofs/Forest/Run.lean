import ScopeForest.Proofs.Forest.Merged

namespace ScopeForest

namespace Declaration

theorem foldl_addAlias (x : Declaration) (typedefs : List DeclId) :
    typedefs.foldl (fun x t ↦ x.addAlias t) x = x.withAliases (x.aliases ++ typedefs) := by
  have hself (x : Declaration) : x.withAliases x.aliases = x := by
    rcases x with ⟨_, _, _, _, _, _, _, _, _, details⟩
    cases details <;> rfl
  have hstep (x : Declaration) (t : DeclId) (more : List DeclId) :
      (x.addAlias t).withAliases ((x.addAlias t).aliases ++ more) =
        x.withAliases (x.aliases ++ t :: more) := by
    rcases x with ⟨_, _, _, _, _, _, _, _, _, details⟩
    cases details <;>
      simp [addAlias, Declaration.aliases, classDetails?, withAliases, Details.withAliases]
  induction typedefs generalizing x with
  | nil => rw [List.foldl_nil, List.append_nil, hself]
  | cons t typedefs ih => rw [List.foldl_cons, ih, hstep]

theorem withAliases_withAliases (x : Declaration) (aliases more : List DeclId) :
    (x.withAliases aliases).withAliases more = x.withAliases more := by
  rcases x with ⟨_, _, _, _, _, _, _, _, _, details⟩
  cases details <;> rfl

end Declaration

namespace Store

variable (s : Store) (order : List DeclId)

/-- The list of a class goes on with those of the order that are found to stand for it. -/
theorem get?_bindAliases (c : DeclId) :
    c.get? (s.bindAliases order).decls = (c.get? s.decls).map fun x ↦
      x.withAliases (x.aliases ++ order.filter fun d ↦ s.aliasedClass? d == some c) := by
  have hlist : ((order.filterMap fun d ↦ (s.aliasedClass? d).map (·, d)).filter
      (·.1 == c)).map (·.2) = order.filter fun d ↦ s.aliasedClass? d == some c := by
    induction order with
    | nil => rfl
    | cons d order ih =>
      cases h : s.aliasedClass? d with
      | none => simp [h, ih]
      | some e => by_cases he : e = c <;> simp [h, he, ih]
  rw [bindAliases, Id.get?_foldl_modify Declaration.addAlias, hlist]
  simp only [Declaration.foldl_addAlias]

theorem sameTree_bindAliases : s.SameTree (s.bindAliases order) := by
  constructor
  · intro d x hd
    refine ⟨_, by rw [get?_bindAliases, hd, Option.map_some], x.grows_withAliases _, ?_⟩
    exact x.members_withAliases _
  · intro d y hd
    rw [get?_bindAliases] at hd
    obtain ⟨x, hx, rfl⟩ := Option.map_eq_some_iff.mp hd
    exact ⟨x, hx, x.grows_withAliases _, x.members_withAliases _⟩

theorem clearAliases_bindAliases : (s.bindAliases order).clearAliases = s.clearAliases := by
  refine congrArg (Store.mk · s.types) (Id.ext_get? (k := .decl) fun d ↦ ?_)
  rw [Id.get?_map, Id.get?_map, get?_bindAliases, Option.map_map]
  simp only [Function.comp_def, Declaration.withAliases_withAliases]

end Store

namespace Forest

variable {f g : Forest}

theorem sound_empty (settings : BuilderSettings) : Forest.Sound { settings } := by
  have hnone {α : Type} {d : DeclId} {x : α} (h : d.get? [] = some x) : False :=
    List.not_mem_nil (Id.mem_of_get? h)
  exact ⟨⟨fun h ↦ (hnone h).elim, fun h ↦ (hnone h).elim, nofun, fun h ↦ (hnone h).elim,
    fun h ↦ (hnone h).elim, fun h ↦ (hnone h).elim, fun h ↦ (hnone h).elim⟩,
    fun h ↦ (hnone h).elim, nofun⟩

theorem fresh_loneRoot (h : f.root = none) : f.Fresh (loneRoot (Id.next f.store.decls)) :=
  ⟨rfl, rfl, rfl, nofun, fun _ ↦ ⟨h, rfl⟩⟩

theorem Sound.addRoot (hf : f.Sound) (h : f.root = none) :
    (f.addNode (loneRoot (Id.next f.store.decls))).Sound := by
  have hfresh := fresh_loneRoot h
  refine ⟨hfresh.scoped_addNode hf.tree, hfresh.earlier_addNode hf.earlier, fun hk ↦ ?_⟩
  obtain ⟨x, hx, hp, hkind⟩ := hf.keyed hk
  obtain ⟨y, hy, hxy⟩ := grows_addNode hx
  exact ⟨y, hy, hxy.parent.trans hp, hxy.kind.trans hkind⟩

theorem rooted_of_root {d : DeclId} (h : f.root = some d) : f.rooted = (f, d) := by
  rw [rooted, h]

theorem rooted_of_none (h : f.root = none) : f.rooted =
    (f.addNode (loneRoot (Id.next f.store.decls)), Id.next f.store.decls) := by
  rw [rooted, h]

theorem Sound.rooted (hf : f.Sound) :
    f.rooted.1.Sound ∧ f.rooted.1.root = some f.rooted.2 ∧ f.Grows f.rooted.1 := by
  cases h : f.root with
  | some d =>
    rw [rooted_of_root h]
    exact ⟨hf, h, .refl f⟩
  | none =>
    rw [rooted_of_none h]
    exact ⟨hf.addRoot h, rfl, fun hd ↦ grows_addNode hd, List.prefix_rfl, List.prefix_rfl,
      fun hr ↦ ⟨_, hr, rfl⟩, fun hd ↦ by cases h.symm.trans hd⟩

theorem sameTree_freeze (f : Forest) : f.rooted.1.store.SameTree f.freeze.store := by
  unfold freeze Graph.store
  simp only
  split
  · exact f.rooted.1.store.sameTree_bindAliases _
  · exact .refl _

theorem types_freeze (f : Forest) : f.freeze.store.types = f.rooted.1.store.types := by
  unfold freeze Graph.store
  simp only
  split <;> rfl

theorem get?_registries_freeze {unit : UnitId} {registry : Registry}
    (h : unit.get? f.rooted.1.registries = some registry) :
    unit.get? f.freeze.forest.registries = some registry.freeze := by
  show unit.get? (f.rooted.1.registries.map Registry.freeze) = _
  rw [Id.get?_map, h]
  rfl

theorem grows_freeze (f : Forest) : f.rooted.1.Grows f.freeze.forest where
  decls hd := by
    obtain ⟨y, hy, hxy, -⟩ := (sameTree_freeze f).kept hd
    exact ⟨y, hy, hxy⟩
  types := types_freeze f ▸ List.prefix_rfl
  files := List.prefix_rfl
  registries hr := ⟨_, get?_registries_freeze hr, rfl⟩
  root hd := hd

theorem Sound.freeze (hf : f.Sound) : f.freeze.forest.Sound ∧
    f.freeze.forest.root = some f.freeze.root ∧ f.Grows f.freeze.forest := by
  obtain ⟨hsound, hroot, hgrows⟩ := hf.rooted
  exact ⟨hsound.sameTree rfl rfl (sameTree_freeze f), hroot, hgrows.trans (grows_freeze f)⟩

theorem sameTree_reopen (g : Graph) : g.store.SameTree g.reopen.store :=
  Store.sameTree_map _ fun x ↦ ⟨x.grows_withAliases [], x.members_withAliases []⟩

theorem grows_reopen {g : Graph} (h : g.forest.root = some g.root) :
    g.forest.Grows g.reopen where
  decls hd := by
    obtain ⟨y, hy, hxy, -⟩ := (sameTree_reopen g).kept hd
    exact ⟨y, hy, hxy⟩
  types := List.prefix_rfl
  files := List.prefix_rfl
  registries hr := ⟨_, hr, rfl⟩
  root hd := h.symm.trans hd

theorem Sound.reopen (hf : f.Sound) : f.freeze.reopen.Sound ∧ f.Grows f.freeze.reopen := by
  obtain ⟨hsound, hroot, hgrows⟩ := hf.freeze
  exact ⟨hsound.sameTree hroot.symm rfl (sameTree_reopen f.freeze),
    hgrows.trans (grows_reopen hroot)⟩

theorem clearAliases_freeze (f : Forest) :
    f.freeze.store.clearAliases = f.rooted.1.store.clearAliases := by
  unfold freeze Graph.store
  simp only
  split
  next => exact f.rooted.1.store.clearAliases_bindAliases _
  next => rfl

/-- Each node of a reopened forest was there before, or is the root that freezing supplied. -/
theorem reopen_cases {d : DeclId} {y : Declaration}
    (h : d.get? f.freeze.reopen.store.decls = some y) :
    (∃ x, d.get? f.store.decls = some x ∧ y = x.withAliases []) ∨
      d = Id.next f.store.decls ∧ y = loneRoot d := by
  have hclear : d.get? f.rooted.1.store.clearAliases.decls = some y := by
    rw [← clearAliases_freeze]
    exact h
  rw [Store.clearAliases, Id.get?_map] at hclear
  obtain ⟨x, hx, rfl⟩ := Option.map_eq_some_iff.mp hclear
  cases hroot : f.root with
  | some e =>
    rw [rooted_of_root hroot] at hx
    exact .inl ⟨x, hx, rfl⟩
  | none =>
    rw [rooted_of_none hroot] at hx
    rcases Id.get?_append_singleton hx with hx | ⟨rfl, rfl⟩
    · exact .inl ⟨x, hx, rfl⟩
    · exact .inr ⟨rfl, rfl⟩

theorem length_merge {u : ResolvedUnit} {summary : MergeSummary}
    (h : f.merge u = .ok (g, summary)) : g.registries.length = f.registries.length + 1 := by
  obtain ⟨-, plan, registry, -, -, rfl, -⟩ := merge_eq_ok_iff.mp h
  exact List.length_append

section Several

variable {records : List Record} {unit : Outcome ResolvedUnit}
  {streams : List (List Record)} {units : List (Outcome ResolvedUnit)}

def Builds (records : List Record) (unit : Outcome ResolvedUnit) : Prop :=
  ∃ settings number, buildUnit settings number records = unit

theorem forall₂_builds (f : Forest) (streams : List (List Record)) :
    List.Forall₂ Builds streams (f.buildUnits streams) := by
  unfold buildUnits
  generalize f.registries.length = n
  induction streams generalizing n with
  | nil => exact .nil
  | cons records streams ih => exact .cons ⟨f.settings, Id.ofIndex n, rfl⟩ (ih (n + 1))

theorem mergeUnits_of_error {e : Failure} (hunit : Builds records unit)
    (h : unit.bind f.merge = .error e) : f.mergeUnits (unit :: units) = (f, .error e) := by
  obtain ⟨settings, number, hbuild⟩ := hunit
  cases unit with
  | error e' =>
    cases h
    rw [mergeUnits]
  | ok u => simp only [mergeUnits, attemptMerge_of_error (unfrozen_of_buildUnit hbuild) h]

theorem mergeUnits_of_ok {summary : MergeSummary} (h : unit.bind f.merge = .ok (g, summary)) :
    f.mergeUnits (unit :: units) =
      ((g.mergeUnits units).1, (g.mergeUnits units).2.map (summary.unit :: ·)) := by
  obtain ⟨u, rfl, hmerge⟩ := Outcome.bind_eq_ok h
  simp only [mergeUnits, attemptMerge_of_ok hmerge]
  rfl

theorem length_mergeUnits (hunits : List.Forall₂ Builds streams units) (f : Forest) :
    f.registries.length ≤ (f.mergeUnits units).1.registries.length := by
  induction hunits generalizing f with
  | nil => exact Nat.le_refl _
  | @cons records unit streams units hunit _ ih =>
    cases h : unit.bind f.merge with
    | error e => rw [mergeUnits_of_error hunit h]
    | ok merged =>
      obtain ⟨u, -, hm⟩ := Outcome.bind_eq_ok h
      have hlength := length_merge hm
      rw [mergeUnits_of_ok h]
      exact Nat.le_trans (by omega) (ih merged.1)

end Several

end Forest

/-- How a forest comes about. The records of its units are `units`, in order; `lone` tells whether
it was ever frozen before the first of them, which gives it a root that no unit declares. -/
inductive Run : List (List Record) → Bool → Forest → Prop
  | start (settings : BuilderSettings) : Run [] false { settings }
  | addUnit {units : List (List Record)} {lone : Bool} {f g : Forest} {records : List Record}
      {unit : UnitId} (h : Run units lone f) (hok : f.addUnit records = .ok (g, unit)) :
      Run (units ++ [records]) lone g
  /-- Of several units, those before the first failure are merged, `n` in number. -/
  | addUnits {units : List (List Record)} {lone : Bool} {f : Forest}
      {streams : List (List Record)} {n : Nat} (h : Run units lone f)
      (hn : (f.addUnits streams).1.registries.length = f.registries.length + n) :
      Run (units ++ streams.take n) lone (f.addUnits streams).1
  | merge {units : List (List Record)} {lone : Bool} {f g : Forest} {settings : BuilderSettings}
      {unit : UnitId} {records : List Record} {u : ResolvedUnit} {summary : MergeSummary}
      (h : Run units lone f) (hbuild : buildUnit settings unit records = .ok u)
      (hok : f.merge u = .ok (g, summary)) : Run (units ++ [records]) lone g
  | reopen {units : List (List Record)} {lone : Bool} {f : Forest} (h : Run units lone f) :
      Run units (lone || units.isEmpty) f.freeze.reopen

namespace Run

variable {P : List (List Record) → Bool → Forest → Prop} {units : List (List Record)} {lone : Bool}
  {f : Forest}

theorem mergeUnits_induction
    (hmerge : ∀ {units lone f g settings unit records u summary}, P units lone f →
      buildUnit settings unit records = .ok u → f.merge u = .ok (g, summary) →
      P (units ++ [records]) lone g)
    {streams : List (List Record)} {outcomes : List (Outcome ResolvedUnit)} {n : Nat}
    (hbuilt : List.Forall₂ Forest.Builds streams outcomes) (h : P units lone f)
    (hn : (f.mergeUnits outcomes).1.registries.length = f.registries.length + n) :
    P (units ++ streams.take n) lone (f.mergeUnits outcomes).1 := by
  induction hbuilt generalizing f units n with
  | nil =>
    obtain rfl : n = 0 := Nat.left_eq_add.mp hn
    rw [List.take_zero, List.append_nil]
    exact h
  | @cons records outcome streams outcomes hout hrest ih =>
    cases hm : outcome.bind f.merge with
    | error e =>
      rw [Forest.mergeUnits_of_error hout hm] at hn ⊢
      obtain rfl : n = 0 := Nat.left_eq_add.mp hn
      rw [List.take_zero, List.append_nil]
      exact h
    | ok merged =>
      obtain ⟨g, summary⟩ := merged
      obtain ⟨settings, unit, hbuild⟩ := hout
      obtain ⟨u, hu, hg⟩ := Outcome.bind_eq_ok hm
      have hlength := Forest.length_merge hg
      rw [Forest.mergeUnits_of_ok hm] at hn ⊢
      dsimp only at hn ⊢
      have hle := Forest.length_mergeUnits hrest g
      obtain ⟨m, rfl⟩ : ∃ m, n = m + 1 := ⟨n - 1, by omega⟩
      rw [List.take_succ_cons, List.append_cons]
      exact ih (hmerge h (hbuild.trans hu) hg) (by omega)

/-- What holds of the empty forest and is kept by single merges and by reopening holds of every
run. -/
theorem invariant (hstart : ∀ settings, P [] false { settings })
    (hmerge : ∀ {units lone f g settings unit records u summary}, P units lone f →
      buildUnit settings unit records = .ok u → f.merge u = .ok (g, summary) →
      P (units ++ [records]) lone g)
    (hreopen : ∀ {units lone f}, P units lone f → P units (lone || units.isEmpty) f.freeze.reopen)
    (h : Run units lone f) : P units lone f := by
  induction h with
  | start settings => exact hstart settings
  | addUnit _ hok ih =>
    obtain ⟨u, summary, hu, hg⟩ := Forest.addUnit_eq_ok hok
    exact hmerge ih hu hg
  | @addUnits _ _ f streams n _ hn ih =>
    unfold Forest.addUnits at hn ⊢
    cases hfault : (f.buildUnits streams).findSome? Outcome.fault? with
    | some fault =>
      simp only [hfault] at hn ⊢
      obtain rfl : n = 0 := Nat.left_eq_add.mp hn
      rw [List.take_zero, List.append_nil]
      exact ih
    | none =>
      simp only [hfault] at hn ⊢
      exact mergeUnits_induction hmerge (f.forall₂_builds streams) ih hn
  | merge _ hbuild hok ih => exact hmerge ih hbuild hok
  | reopen _ ih => exact hreopen ih

theorem sound (h : Run units lone f) : f.Sound := by
  refine invariant (P := fun _ _ f ↦ f.Sound) ?_ ?_ ?_ h
  · exact fun settings ↦ Forest.sound_empty settings
  · intro units lone f g settings unit records u summary hf hbuild hok
    obtain ⟨r, hm⟩ := Forest.merge_eq_ok hf (buildUnit_eq_ok hbuild).1 hok
    exact hm.sound
  · intro units lone f hf
    exact hf.reopen.1

end Run

def Forest.ofUnits (settings : BuilderSettings) (units : List (List Record)) : Outcome Forest :=
  units.foldlM (fun f records ↦ Prod.fst <$> f.addUnit records) { settings }

theorem Run.foldlM_addUnit {done units : List (List Record)} {lone : Bool} {f g : Forest}
    (h : Run done lone f)
    (hok : units.foldlM (fun f records ↦ Prod.fst <$> f.addUnit records) f = .ok g) :
    Run (done ++ units) lone g := by
  induction units generalizing done f with
  | nil =>
    cases hok
    rwa [List.append_nil]
  | cons records units ih =>
    rw [List.foldlM_cons] at hok
    obtain ⟨next, hnext, hok⟩ := Outcome.bind_eq_ok hok
    obtain ⟨⟨next, unit⟩, hadd, rfl⟩ := Outcome.map_eq_ok hnext
    rw [List.append_cons]
    exact ih (h.addUnit hadd) hok

theorem Run.ofUnits {settings : BuilderSettings} {units : List (List Record)} {f : Forest}
    (h : Forest.ofUnits settings units = .ok f) : Run units false f :=
  (Run.start settings).foldlM_addUnit h

namespace Sample

def header : List Record :=
  [({ tag := .namespaceTag, id := "n" } : Record).withLiteral Field.name "::",
    (({ tag := .namespaceTag, id := "a" } : Record).withLiteral Field.name "a").withRef
      Field.context "n",
    ((({ tag := .structTag, id := "s" } : Record).withLiteral Field.name "s").withRef
      Field.context "a").withFlag Field.incomplete,
    ({ tag := .pointerType, id := "p" } : Record).withRef Field.type "s",
    ({ tag := .fundamentalType, id := "v" } : Record).withLiteral Field.name "void",
    (((({ tag := .function, id := "f" } : Record).withLiteral Field.name "f").withRef
      Field.context "a").withRef Field.returns "v").withChild
        { kind := .argument, attrs := NameMap.ofList [(Field.type, .ref "p")] }]

def source : List Record :=
  [({ tag := .namespaceTag, id := "n" } : Record).withLiteral Field.name "::",
    (({ tag := .namespaceTag, id := "a" } : Record).withLiteral Field.name "a").withRef
      Field.context "n",
    (({ tag := .structTag, id := "s" } : Record).withLiteral Field.name "s").withRef
      Field.context "a",
    ({ tag := .namespaceTag, id := "u" } : Record).withRef Field.context "a",
    ((({ tag := .enumeration, id := "e" } : Record).withLiteral Field.name "e").withRef
      Field.context "u").withChild
        { kind := .enumerator, attrs := NameMap.ofList [(Field.name, .literal "one")] },
    ((({ tag := .cvQualifiedType, id := "q" } : Record).withRef Field.type "s").withFlag
      Field.const).withFlag Field.volatile,
    ((({ tag := .typedef, id := "t" } : Record).withLiteral Field.name "t").withRef
      Field.context "a").withRef Field.type "q"]

end Sample

end ScopeForest
