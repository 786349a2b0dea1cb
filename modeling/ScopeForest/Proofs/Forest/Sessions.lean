import ScopeForest.Proofs.Forest.Acceptance
import ScopeForest.Proofs.Unit.Rendering

namespace ScopeForest

open Outcome

def Sample.aliased : List Record :=
  [({ tag := .namespaceTag, id := "n" } : Record).withLiteral Field.name "::",
    ({ tag := .structTag, id := "s" } : Record).withLiteral Field.name "s",
    (({ tag := .typedef, id := "t" } : Record).withLiteral Field.name "t").withRef Field.type "s"]

/-- What is done to a forest that units are added to. -/
inductive Action
  | addUnit (records : List Record)
  /-- Freezes the forest and reopens it. -/
  | reopen

def Action.addsUnit : Action → Bool
  | addUnit _ => true
  | reopen => false

namespace Forest

variable {f g : Forest} {records : List Record}

def perform (f : Forest) : List Action → Forest × List (Outcome UnitId)
  | [] => (f, [])
  | .addUnit records :: actions =>
    let (g, answer) := f.attempt records
    let (h, answers) := g.perform actions
    (h, answer :: answers)
  | .reopen :: actions => f.freeze.reopen.perform actions

def sealed (f : Forest) : Forest := { f with registries := f.registries.map Registry.freeze }

section Sealed

theorem sealed_sealed (f : Forest) : f.sealed.sealed = f.sealed := by
  have hregistries : f.sealed.registries.map Registry.freeze = f.sealed.registries := List.map_map
  unfold sealed at hregistries ⊢
  rw [hregistries]

theorem nextUnit_sealed (f : Forest) : f.sealed.nextUnit = f.nextUnit := by
  simp [nextUnit, Id.next_eq, sealed]

theorem sealed_addNode (f : Forest) (y : Declaration) :
    (f.addNode y).sealed = f.sealed.addNode y := by
  unfold addNode
  split <;> rfl

theorem sealed_applyPlacement (r : Renaming) (f : Forest) (p : Placement) :
    (applyPlacement r f p).sealed = applyPlacement r f.sealed p := by
  have hkey (g : Forest) (key : MergeKey) (d : DeclId) :
      (g.addKey key d).sealed = g.sealed.addKey key d := by
    have hkeyed : g.sealed.keyed? key = g.keyed? key := rfl
    unfold addKey
    rw [hkeyed]
    split <;> rfl
  unfold applyPlacement
  cases p.target with
  | joined d => rfl
  | new d =>
    cases p.key with
    | none => exact sealed_addNode f _
    | some key => simp only [hkey, sealed_addNode]

theorem sealed_foldl (r : Renaming) (f : Forest) (plan : List Placement) :
    (plan.foldl (applyPlacement r) f).sealed = plan.foldl (applyPlacement r) f.sealed := by
  induction plan generalizing f with
  | nil => rfl
  | cons p plan ih => rw [List.foldl_cons, List.foldl_cons, ih, sealed_applyPlacement]

theorem sealed_carryOut (f : Forest) (u : ResolvedUnit) (plan : List Placement)
    (registry : Registry) :
    (f.sealed.carryOut u plan registry).sealed = (f.carryOut u plan registry).sealed := by
  have hcarry : f.sealed.carryOut u plan registry =
      { f.carryOut u plan registry with registries := f.sealed.registries ++ [registry] } := by
    have hfold : plan.foldl (applyPlacement (f.planRenaming u plan)) (f.typed u plan).sealed =
        (plan.foldl (applyPlacement (f.planRenaming u plan)) (f.typed u plan)).sealed :=
      (sealed_foldl ..).symm
    show { plan.foldl (applyPlacement (f.planRenaming u plan)) (f.typed u plan).sealed with
      registries := f.sealed.registries ++ [registry] } = _
    rw [hfold]
    rfl
  have hregistries : (f.carryOut u plan registry).registries = f.registries ++ [registry] := rfl
  rw [hcarry]
  simp [sealed, hregistries, Registry.freeze]

/-- A merge does not read the marks of the registries. -/
theorem merge_sealed (f : Forest) (u : ResolvedUnit) :
    Prod.map sealed id <$> f.sealed.merge u = Prod.map sealed id <$> f.merge u := by
  have hplan : f.sealed.plan u = f.plan u := rfl
  have hrenaming : f.sealed.planRenaming u = f.planRenaming u := rfl
  rw [merge_eq, merge_eq, nextUnit_sealed, hplan, hrenaming]
  split
  next => rfl
  next =>
    simp only [map_bind, map_pure, Prod.map_apply, sealed_carryOut]

theorem addUnit_sealed (f : Forest) (records : List Record) :
    Prod.map sealed id <$> f.sealed.addUnit records = Prod.map sealed id <$> f.addUnit records := by
  have hadd (g : Forest) : Prod.map sealed id <$> g.addUnit records =
      buildUnit g.settings g.nextUnit records >>= fun u ↦
        Prod.map id MergeSummary.unit <$> Prod.map sealed id <$> g.merge u := by
    rw [addUnit_eq, map_bind]
    refine bind_congr fun u ↦ ?_
    cases g.merge u <;> rfl
  rw [hadd, hadd, nextUnit_sealed]
  simp only [merge_sealed]
  rfl

theorem attempt_sealed (f : Forest) (records : List Record) :
    Prod.map sealed id (f.sealed.attempt records) = Prod.map sealed id (f.attempt records) := by
  have hadd := addUnit_sealed f records
  cases hf : f.addUnit records with
  | error e =>
    rw [hf] at hadd
    cases hs : f.sealed.addUnit records with
    | error e' =>
      rw [hs] at hadd
      cases hadd
      rw [attempt_of_error hf, attempt_of_error hs]
      exact Prod.ext (sealed_sealed f) rfl
    | ok added =>
      rw [hs] at hadd
      cases hadd
  | ok added =>
    rw [hf] at hadd
    obtain ⟨⟨g, unit⟩, hg, hadded⟩ := map_eq_ok hadd
    obtain ⟨hforest, rfl⟩ := Prod.mk.inj hadded
    rw [attempt_of_ok hf, attempt_of_ok hg]
    exact Prod.ext hforest rfl

theorem rooted_sealed (f : Forest) : f.sealed.rooted = (f.rooted.1.sealed, f.rooted.2) := by
  cases h : f.root with
  | some d => rw [rooted_of_root h, rooted_of_root (f := f.sealed) h]
  | none =>
    rw [rooted_of_none h, rooted_of_none (f := f.sealed) h, sealed_addNode]
    rfl

theorem freeze_sealed (f : Forest) : f.sealed.freeze = f.freeze := by
  have hregistries (g : Forest) :
      g.sealed.registries.map Registry.freeze = g.registries.map Registry.freeze := List.map_map
  unfold freeze
  simp only [rooted_sealed, hregistries]
  rfl

/-- Reopening a frozen forest gives it back but for the marks of its registries. -/
theorem reopen_freeze {d : DeclId} (hroot : f.root = some d)
    (haliases : ∀ x ∈ f.store.decls, x.aliases = []) : f.freeze.reopen = f.sealed := by
  have hclear (x : Declaration) (hx : x ∈ f.store.decls) : x.withAliases [] = x := by
    have hnone := haliases x hx
    rcases x with ⟨_, _, _, _, _, _, _, _, _, details⟩
    cases details with
    | cls c =>
      have hc : c.aliases = [] := hnone
      rw [← hc]
      rfl
    | _ => rfl
  have hstore : f.freeze.store.clearAliases = f.store := by
    rw [clearAliases_freeze, rooted_of_root hroot]
    refine congrArg (Store.mk · f.store.types) ?_
    exact (List.map_congr_left hclear).trans (List.map_id _)
  unfold Graph.reopen
  rw [hstore]
  simp only [freeze, rooted_of_root hroot, sealed, hroot]

end Sealed

section Several

variable {streams : List (List Record)} {unit : UnitId}

end Several

end Forest

namespace Run

variable {units : List (List Record)} {lone : Bool} {f : Forest}

theorem aliases_eq_nil (h : Run units lone f) : ∀ x ∈ f.store.decls, x.aliases = [] := by
  have hboth : f.Sound ∧ ∀ x ∈ f.store.decls, x.aliases = [] := by
    refine Run.invariant (P := fun _ _ f ↦ f.Sound ∧ ∀ x ∈ f.store.decls, x.aliases = []) ?_ ?_ ?_ h
    · intro settings
      exact ⟨Forest.sound_empty settings, fun x hx ↦ absurd hx List.not_mem_nil⟩
    · rintro units lone f g settings unit records u summary ⟨hs, hf⟩ hbuild hok
      obtain ⟨r, hm⟩ := Forest.merge_eq_ok hs (buildUnit_eq_ok hbuild).1 hok
      refine ⟨hm.sound, hm.only _ hf ?_ ?_ ?_⟩
      · intro x _ d
        rcases x with ⟨_, _, _, _, _, _, _, _, _, details⟩
        cases details <;> rfl
      · intro x m hx
        rcases x with ⟨_, _, _, _, _, _, _, _, _, details⟩
        cases details <;> exact hx
      · intro x y hx _
        rw [Declaration.absorb]
        split
        next k s hk _ =>
          have hkept : k.aliases = [] := by
            simpa [Declaration.aliases, Declaration.classDetails?, hk] using hx
          simp only [Declaration.aliases, Declaration.classDetails?, ClassDetails.absorb]
          split <;> exact hkept
        next => exact hx
    · rintro units lone f ⟨hs, hf⟩
      refine ⟨hs.reopen.1, fun x hx ↦ ?_⟩
      obtain ⟨y, -, rfl⟩ := List.mem_map.mp hx
      rcases y with ⟨_, _, _, _, _, _, _, _, _, details⟩
      cases details <;> rfl
  exact hboth.2

theorem root_ne_none (h : Run units lone f) (hne : units ≠ []) : f.root ≠ none := by
  have hboth : f.Sound ∧ (units ≠ [] → f.root ≠ none) := by
    refine Run.invariant (P := fun units _ f ↦ f.Sound ∧ (units ≠ [] → f.root ≠ none)) ?_ ?_ ?_ h
    · exact fun settings ↦ ⟨Forest.sound_empty settings, fun h ↦ absurd rfl h⟩
    · rintro units lone f g settings unit records u summary ⟨hs, -⟩ hbuild hok
      obtain ⟨r, hm⟩ := Forest.merge_eq_ok hs (buildUnit_eq_ok hbuild).1 hok
      exact ⟨hm.sound, fun _ ↦ hm.rooted⟩
    · rintro units lone f ⟨hs, -⟩
      refine ⟨hs.reopen.1, fun _ ↦ ?_⟩
      simp [Graph.reopen]
  exact hboth.2 hne

/-- Two forests that differ in the marks of their registries only give the same answers, and freezing
and reopening the first one now and then does not tell them apart. -/
theorem perform_alike {g : Forest} (h : Run units lone f) (hne : units ≠ [])
    (hfg : f.sealed = g.sealed) (actions : List Action) :
    (f.perform actions).2 = (g.perform (actions.filter Action.addsUnit)).2 ∧
      (f.perform actions).1.sealed = (g.perform (actions.filter Action.addsUnit)).1.sealed := by
  induction actions generalizing units lone f g with
  | nil => exact ⟨rfl, hfg⟩
  | cons action actions ih =>
    cases action with
    | reopen =>
      obtain ⟨d, hd⟩ := Option.ne_none_iff_exists'.mp (h.root_ne_none hne)
      have hsame : f.freeze.reopen.sealed = g.sealed := by
        rw [Forest.reopen_freeze hd h.aliases_eq_nil, Forest.sealed_sealed, hfg]
      exact ih h.reopen hne hsame
    | addUnit records =>
      have hboth : Prod.map Forest.sealed id (f.attempt records) =
          Prod.map Forest.sealed id (g.attempt records) := by
        rw [← Forest.attempt_sealed f, hfg, Forest.attempt_sealed g]
      obtain ⟨hforest, hanswer⟩ := Prod.mk.inj hboth
      have hrun : ∃ units' lone', units' ≠ [] ∧ Run units' lone' (f.attempt records).1 := by
        cases hadd : f.addUnit records with
        | error e =>
          rw [Forest.attempt_of_error hadd]
          exact ⟨units, lone, hne, h⟩
        | ok added =>
          rw [Forest.attempt_of_ok hadd]
          exact ⟨units ++ [records], lone, by simp, h.addUnit hadd⟩
      obtain ⟨units', lone', hne', hrun⟩ := hrun
      obtain ⟨hanswers, hlast⟩ := ih hrun hne' hforest
      exact ⟨congrArg₂ List.cons hanswer hanswers, hlast⟩

/-- Freezing and reopening a forest between units changes neither an answer nor the graph that comes
out in the end. -/
theorem perform_eq (h : Run units lone f) (hne : units ≠ []) (actions : List Action) :
    (f.perform actions).2 = (f.perform (actions.filter Action.addsUnit)).2 ∧
      (f.perform actions).1.freeze = (f.perform (actions.filter Action.addsUnit)).1.freeze := by
  obtain ⟨hanswers, hsealed⟩ := h.perform_alike hne rfl actions
  refine ⟨hanswers, ?_⟩
  rw [← Forest.freeze_sealed, hsealed, Forest.freeze_sealed]

end Run

/-- A forest that is reopened twice, with one unit accepted and one refused: the typedef is listed
once. -/
theorem perform_eq_sample : ∃ f, Run [Sample.aliased] false f ∧
    (f.perform [.reopen, .addUnit Sample.aliased, .reopen, .addUnit []]).2 =
      [.ok ⟨2⟩, .error (.input (.missingGlobalNamespace ⟨3⟩))] ∧
    (f.perform [.reopen, .addUnit Sample.aliased, .reopen, .addUnit []]).1.freeze.store.decls.map
      (·.aliases) = [[], [⟨3⟩], []] := by
  have h : (fun f ↦ ((f.perform [.addUnit Sample.aliased, .addUnit []]).2,
      (f.perform [.addUnit Sample.aliased, .addUnit []]).1.freeze.store.decls.map (·.aliases))) <$>
        Forest.ofUnits {} [Sample.aliased] =
      .ok ([.ok ⟨2⟩, .error (.input (.missingGlobalNamespace ⟨3⟩))], [[], [⟨3⟩], []]) := by
    cbv
  obtain ⟨f, hf, hpair⟩ := Outcome.map_eq_ok h
  obtain ⟨hanswers, haliases⟩ := Prod.mk.inj hpair
  have hrun := Run.ofUnits hf
  obtain ⟨hsame, hfreeze⟩ := hrun.perform_eq (by simp)
    [.reopen, .addUnit Sample.aliased, .reopen, .addUnit []]
  exact ⟨f, hrun, hsame.trans hanswers, by rw [hfreeze]; exact haliases⟩

end ScopeForest
