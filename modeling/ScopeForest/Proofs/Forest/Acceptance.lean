import ScopeForest.Proofs.Forest.Placed
import ScopeForest.Proofs.Unit.Numbering

namespace ScopeForest

open Outcome

variable {f g : Forest} {u : ResolvedUnit} {done plan : List Placement} (j : UnitId)

def ResolvedUnit.order (u : ResolvedUnit) : List Declaration :=
  (u.store.preorder u.root).filterMap (·.get? u.store.decls)

theorem Forest.plan_eq_ok_iff : f.plan u = .ok plan ↔ u.order.foldlM (f.placeNext u) [] = .ok plan ∧
    ∀ x ∈ u.store.decls, (placed? plan x.id).isSome = true := by
  have hall (placements : List Placement) :
      u.store.decls.find? (fun x ↦ (placed? placements x.id).isNone) = none ↔
        ∀ x ∈ u.store.decls, (placed? placements x.id).isSome = true := by
    simp [List.find?_eq_none, Option.isSome_iff_ne_none]
  unfold Forest.plan
  constructor
  · intro h
    obtain ⟨placements, hfold, h⟩ := bind_eq_ok h
    split at h
    next hnone =>
      cases h
      exact ⟨hfold, (hall plan).mp hnone⟩
    next => cases h
  · rintro ⟨hfold, hplaced⟩
    have hnone := (hall plan).mpr hplaced
    unfold ResolvedUnit.order at hfold
    simp only [hfold, bind, Except.bind, hnone]
    rfl

section Numbering

def Placement.inUnit (p : Placement) : Placement := { p with source := p.source.inUnit j }

theorem ResolvedUnit.keyName_inUnit (x : Declaration) :
    (u.inUnit j).keyName (x.inUnit j) = u.keyName x := by
  have hspecial : (x.inUnit j).instantiates? = x.instantiates? := rfl
  have hname := Store.mergeName_mapDecls (s := u.store) (Declaration.neutral_inUnit j) x.id
  unfold keyName
  rw [hspecial]
  split
  next => exact hname
  next => rfl

theorem ResolvedUnit.keyStep_inUnit (x : Declaration) :
    (u.inUnit j).keyStep (x.inUnit j) = u.keyStep x := by
  unfold keyStep
  rw [keyName_inUnit]
  rfl

theorem placed?_inUnit (d : DeclId) : placed? (done.map (·.inUnit j)) d = placed? done d := by
  unfold placed?
  rw [List.find?_map, Option.map_map]
  rfl

namespace Forest

theorem targetOf_inUnit (shared : Option DeclId) :
    f.targetOf (done.map (·.inUnit j)) shared = f.targetOf done shared := by
  have hjoined (d : DeclId) : (done.map (·.inUnit j)).any (·.target == .joined d) =
      done.any (·.target == .joined d) := by
    rw [List.any_map]
    rfl
  have hnew : f.newId (done.map (·.inUnit j)) = f.newId done := by
    rw [newId, newId, List.countP_map]
    rfl
  unfold targetOf
  simp only [hjoined, hnew]

theorem placeNext_inUnit (x : Declaration) :
    f.placeNext (u.inUnit j) (done.map (·.inUnit j)) (x.inUnit j) =
      List.map (·.inUnit j) <$> f.placeNext u done x := by
  have hkey (scope : DeclId) : f.keyOf (u.inUnit j) scope (x.inUnit j) = f.keyOf u scope x := by
    have hanonymous : (x.inUnit j).isAnonymous = x.isAnonymous := rfl
    unfold keyOf
    rw [ResolvedUnit.keyName_inUnit, hanonymous]
    rfl
  have hparent : (x.inUnit j).parent = x.parent := rfl
  unfold placeNext
  rw [hparent]
  cases x.parent with
  | none =>
    simp only [targetOf_inUnit]
    rw [map_pure, List.map_append]
    rfl
  | some p =>
    simp only [placed?_inUnit]
    cases placed? done p with
    | none => rfl
    | some scope =>
      simp only [hkey, targetOf_inUnit, map_bind, map_pure, List.map_append]
      rfl

theorem foldlM_placeNext_inUnit (done : List Placement) (xs : List Declaration) :
    (xs.map (·.inUnit j)).foldlM (f.placeNext (u.inUnit j)) (done.map (·.inUnit j)) =
      List.map (·.inUnit j) <$> xs.foldlM (f.placeNext u) done := by
  induction xs generalizing done with
  | nil => rfl
  | cons x xs ih =>
    rw [List.map_cons, List.foldlM_cons, List.foldlM_cons, placeNext_inUnit, map_bind,
      bind_map_left]
    exact bind_congr ih

theorem order_inUnit (u : ResolvedUnit) : (u.inUnit j).order = u.order.map (·.inUnit j) := by
  have hmembers : ∀ x : Declaration, (x.inUnit j).members = x.members := fun _ ↦ rfl
  have hpreorder : (u.inUnit j).store.preorder (u.inUnit j).root = u.store.preorder u.root :=
    Store.preorder_mapDecls hmembers u.root
  unfold ResolvedUnit.order
  rw [hpreorder, List.map_filterMap]
  congr 1
  funext d
  exact Id.get?_map _

theorem plan_inUnit (h : f.plan u = .ok plan) :
    f.plan (u.inUnit j) = .ok (plan.map (·.inUnit j)) := by
  obtain ⟨hfold, hplaced⟩ := plan_eq_ok_iff.mp h
  refine plan_eq_ok_iff.mpr ⟨?_, fun x hx ↦ ?_⟩
  · have hmap : (u.order.map (·.inUnit j)).foldlM (f.placeNext (u.inUnit j)) [] =
        List.map (·.inUnit j) <$> u.order.foldlM (f.placeNext u) [] :=
      foldlM_placeNext_inUnit j [] u.order
    rw [order_inUnit, hmap, hfold]
    rfl
  · obtain ⟨y, hy, rfl⟩ := List.mem_map.mp hx
    rw [placed?_inUnit]
    exact hplaced y hy

end Forest

end Numbering

section Forests

theorem isSome_placed? (d : DeclId) :
    (placed? done d).isSome = true ↔ d ∈ done.map (·.source.id) := by
  simp [placed?]

namespace Forest

variable {done' : List Placement} {xs : List Declaration}

theorem returns_keyOf (hjoin : f.settings.joinDeclarations = true) {scope : DeclId}
    {x : Declaration} {key : Option MergeKey} (h : f.keyOf u scope x = .ok key)
    (scope' : DeclId) : Returns (g.keyOf u scope' x) := by
  unfold keyOf at h ⊢
  rw [hjoin] at h
  split
  next hc =>
    have hnamed : x.isAnonymous = false := by
      rw [Bool.and_eq_true] at hc
      simpa using hc.2
    simp only [hnamed] at h
    obtain ⟨name, hname, -⟩ := bind_eq_ok h
    exact returns_bind hname ⟨_, rfl⟩
  next => exact ⟨none, rfl⟩

theorem foldlM_placeNext_of_sources (hjoin : f.settings.joinDeclarations = true)
    (hids : done'.map (·.source.id) = done.map (·.source.id))
    (h : xs.foldlM (f.placeNext u) done = .ok plan) :
    ∃ plan', xs.foldlM (g.placeNext u) done' = .ok plan' ∧
      plan'.map (·.source.id) = plan.map (·.source.id) := by
  induction xs generalizing done done' with
  | nil =>
    cases h
    exact ⟨done', rfl, hids⟩
  | cons x xs ih =>
    rw [List.foldlM_cons] at h
    obtain ⟨next, hnext, h⟩ := bind_eq_ok h
    have hstep : ∃ next', g.placeNext u done' x = .ok next' ∧
        next'.map (·.source.id) = next.map (·.source.id) := by
      unfold placeNext at hnext ⊢
      cases hp : x.parent with
      | none =>
        rw [hp] at hnext
        cases hnext
        exact ⟨_, rfl, by simp [hids]⟩
      | some p =>
        rw [hp] at hnext
        have hplaced : (placed? done' p).isSome = (placed? done p).isSome := by
          rw [Bool.eq_iff_iff, isSome_placed?, isSome_placed?, hids]
        cases hold : placed? done p with
        | none =>
          have hnone : placed? done' p = none := by simpa [hold] using hplaced
          simp only [hold] at hnext
          cases hnext
          exact ⟨done', by simp only [hnone]; rfl, hids⟩
        | some scope =>
          obtain ⟨scope', hscope'⟩ : ∃ scope', placed? done' p = some scope' := by
            rw [← Option.isSome_iff_exists, hplaced, hold]
            rfl
          simp only [hold] at hnext
          obtain ⟨key, hkey, hnext⟩ := bind_eq_ok hnext
          cases hnext
          obtain ⟨key', hkey'⟩ := returns_keyOf (g := g) hjoin hkey scope'
          simp only [hscope', hkey']
          exact ⟨_, rfl, by simp [hids]⟩
    obtain ⟨next', hnext', hids'⟩ := hstep
    obtain ⟨plan', hplan', hsources⟩ := ih hids' h
    refine ⟨plan', ?_, hsources⟩
    rw [List.foldlM_cons, hnext']
    exact hplan'

theorem returns_plan (hjoin : f.settings.joinDeclarations = true) (h : f.plan u = .ok plan)
    (g : Forest) : Returns (g.plan u) := by
  obtain ⟨hfold, hplaced⟩ := plan_eq_ok_iff.mp h
  obtain ⟨plan', hfold', hids⟩ := foldlM_placeNext_of_sources (g := g) hjoin rfl hfold
  refine ⟨plan', plan_eq_ok_iff.mpr ⟨hfold', fun x hx ↦ ?_⟩⟩
  have hold := hplaced x hx
  rw [isSome_placed?] at hold ⊢
  rwa [hids]

theorem returns_merge (hjoin : f.settings.joinDeclarations = true)
    {summary : MergeSummary} {f' : Forest} (h : f.merge u = .ok (f', summary))
    (g : Forest) : Returns (g.merge (u.inUnit g.nextUnit)) := by
  obtain ⟨-, plan, registry, hplan, hregistry, -, -⟩ := merge_eq_ok_iff.mp h
  obtain ⟨plan', hplan'⟩ := returns_plan hjoin hplan g
  have hthawed : u.registry.frozen = false := Registry.returns_rebind_iff.mp ⟨_, hregistry⟩
  have hrebind (change : Node → Node) : Returns ((u.inUnit g.nextUnit).registry.rebind change) :=
    Registry.returns_rebind_iff.mpr hthawed
  obtain ⟨registry', hregistry'⟩ := hrebind (g.planRenaming (u.inUnit g.nextUnit) _).node
  exact ⟨_, merge_eq_ok_iff.mpr ⟨rfl, _, registry', plan_inUnit g.nextUnit hplan', hregistry', rfl,
    rfl⟩⟩

/-- Records without unnamed scopes that one forest takes are taken by every forest with the same
settings. -/
theorem returns_addUnit {records : List Record} {i : UnitId} {f' : Forest}
    (hjoin : f.settings.joinDeclarations = true) (hnamed : NamedScopes records)
    (h : f.addUnit records = .ok (f', i)) (hsettings : g.settings = f.settings) :
    Returns (g.addUnit records) := by
  obtain ⟨u, summary, hbuild, hmerge⟩ := addUnit_eq_ok h
  obtain ⟨merged, hmerged⟩ := returns_merge hjoin hmerge g
  have hbuild' := hnamed.buildUnit_inUnit g.nextUnit hbuild
  rw [← hsettings] at hbuild'
  rw [addUnit_eq]
  refine returns_bind hbuild' (returns_bind hmerged ?_)
  exact ⟨_, rfl⟩

theorem settings_carryOut (f : Forest) (u : ResolvedUnit) (plan : List Placement)
    (registry : Registry) : (f.carryOut u plan registry).settings = f.settings :=
  (foldl_applyPlacement_frame _ plan _).2.2.2

theorem settings_addUnit {records : List Record} {i : UnitId} (h : f.addUnit records = .ok (g, i)) :
    g.settings = f.settings := by
  obtain ⟨u, summary, -, hmerge⟩ := addUnit_eq_ok h
  obtain ⟨-, plan, registry, -, -, rfl, -⟩ := merge_eq_ok_iff.mp hmerge
  exact settings_carryOut f u plan registry

/-- The records are taken by some forest with these settings. -/
def Accepted (settings : BuilderSettings) (records : List Record) : Prop :=
  ∃ (f g : Forest) (i : UnitId), f.settings = settings ∧ f.addUnit records = .ok (g, i)

variable {settings : BuilderSettings} {units units' : List (List Record)}

theorem accepted_of_foldlM (hf : f.settings = settings)
    (h : units.foldlM (fun f records ↦ Prod.fst <$> f.addUnit records) f = .ok g) :
    ∀ records ∈ units, Accepted settings records := by
  induction units generalizing f with
  | nil => exact fun records hr ↦ absurd hr List.not_mem_nil
  | cons first units ih =>
    rw [List.foldlM_cons] at h
    obtain ⟨next, hnext, h⟩ := bind_eq_ok h
    obtain ⟨⟨next, i⟩, hadd, rfl⟩ := map_eq_ok hnext
    intro records hr
    rcases List.mem_cons.mp hr with rfl | hr
    · exact ⟨f, next, i, hf, hadd⟩
    · exact ih ((settings_addUnit hadd).trans hf) h records hr

theorem returns_foldlM (hjoin : settings.joinDeclarations = true) (hf : f.settings = settings)
    (hnamed : ∀ records ∈ units, NamedScopes records)
    (haccepted : ∀ records ∈ units, Accepted settings records) :
    Returns (units.foldlM (fun f records ↦ Prod.fst <$> f.addUnit records) f) := by
  induction units generalizing f with
  | nil => exact ⟨f, rfl⟩
  | cons records units ih =>
    obtain ⟨f', g', i, hsettings, hadd⟩ := haccepted records List.mem_cons_self
    obtain ⟨⟨g, j⟩, hg⟩ := returns_addUnit (g := f) (hsettings ▸ hjoin)
      (hnamed records List.mem_cons_self) hadd (hf.trans hsettings.symm)
    rw [List.foldlM_cons, hg]
    refine ih ((settings_addUnit hg).trans hf) ?_ ?_
    · exact fun other hother ↦ hnamed other (List.mem_cons_of_mem records hother)
    · exact fun other hother ↦ haccepted other (List.mem_cons_of_mem records hother)

/-- Units that are accepted in one order are accepted in every order. -/
theorem returns_ofUnits_of_perm (hjoin : settings.joinDeclarations = true)
    (hnamed : ∀ records ∈ units, NamedScopes records) (h : ofUnits settings units = .ok f)
    (hperm : units.Perm units') : Returns (ofUnits settings units') := by
  refine returns_foldlM hjoin rfl ?_ ?_
  · exact fun records hr ↦ hnamed records (hperm.mem_iff.mpr hr)
  · exact fun records hr ↦ accepted_of_foldlM rfl h records (hperm.mem_iff.mpr hr)

end Forest

end Forests

end ScopeForest
