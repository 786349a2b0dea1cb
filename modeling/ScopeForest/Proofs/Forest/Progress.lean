import ScopeForest.Proofs.Forest.Sessions
import ScopeForest.Proofs.Unit.Rendering

namespace ScopeForest

open Outcome

variable {settings : BuilderSettings} {unit : UnitId} {records : List Record} {u : ResolvedUnit}

theorem ResolvedUnit.returns_keyName (hu : u.Sound) (hacyclic : u.store.Acyclic)
    (hends : ∀ q, u.store.Ends q) {d : DeclId} {x : Declaration}
    (hd : d.get? u.store.decls = some x) : Returns (u.keyName x) := by
  obtain ⟨rank, hr⟩ := Store.exists_rank hu.closed.expands hacyclic
  have hanswers {q : Request} (hq : u.store.HoldsRequest q) : u.store.Answers q :=
    (Store.answers_iff hu.closed hr hq).mpr (hends q)
  unfold keyName
  split
  · refine Store.mergeName_returns hu.closed hanswers ⟨x, ?_⟩
    rwa [hu.tree.dense hd]
  · exact ⟨_, rfl⟩

namespace Forest

variable {f : Forest} {done : List Placement} {d : DeclId} {x : Declaration}

theorem returns_keyOf_of_keyName (h : Returns (u.keyName x)) (scope : DeclId) :
    Returns (f.keyOf u scope x) := by
  unfold keyOf
  split
  · exact h.bind fun name ↦ ⟨_, rfl⟩
  · exact ⟨none, rfl⟩

theorem exists_placeNext (h : Returns (u.keyName x))
    (hscope : ∀ p ∈ x.parent, p ∈ done.map (·.source.id)) :
    ∃ next, f.placeNext u done x = .ok next ∧
      next.map (·.source.id) = done.map (·.source.id) ++ [x.id] := by
  unfold placeNext
  cases hp : x.parent with
  | none => exact ⟨_, rfl, by simp⟩
  | some p =>
    obtain ⟨scope, hplaced⟩ := Option.isSome_iff_exists.mp ((isSome_placed? p).mpr (hscope p hp))
    obtain ⟨key, hkey⟩ := returns_keyOf_of_keyName (f := f) h scope
    simp only [hplaced, hkey]
    exact ⟨_, rfl, by simp⟩

section Visits

variable (hu : u.Sound)
  (hkeys : ∀ {d : DeclId} {x : Declaration}, d.get? u.store.decls = some x → Returns (u.keyName x))

include hu hkeys

/-- A walk that starts where the scopes around are placed places all that it visits. -/
theorem exists_foldlM_visit (f : Forest) (fuel : Nat) {stack : List DeclId}
    (hstack : ∀ d ∈ stack, ∃ x, d.get? u.store.decls = some x ∧
      ∀ p ∈ x.parent, p ∈ done.map (·.source.id)) :
    ∃ plan, ((u.store.visit fuel stack).filterMap (·.get? u.store.decls)).foldlM
        (f.placeNext u) done = .ok plan ∧
      plan.map (·.source.id) = done.map (·.source.id) ++ u.store.visit fuel stack := by
  induction fuel generalizing stack done with
  | zero => exact ⟨done, rfl, (List.append_nil _).symm⟩
  | succ fuel ih =>
    cases stack with
    | nil => exact ⟨done, rfl, (List.append_nil _).symm⟩
    | cons d stack =>
      obtain ⟨x, hd, hscope⟩ := hstack d List.mem_cons_self
      obtain ⟨next, hnext, hids⟩ := exists_placeNext (f := f) (hkeys hd) hscope
      rw [hu.tree.dense hd] at hids
      -- the members come after the scope, and the others still come after theirs
      have hstack' : ∀ e ∈ u.store.membersOf d ++ stack, ∃ y, e.get? u.store.decls = some y ∧
          ∀ p ∈ y.parent, p ∈ next.map (·.source.id) := by
        intro e he
        rw [hids]
        rcases List.mem_append.mp he with he | he
        · obtain ⟨y, hy, hp⟩ := (Store.mem_membersOf hu.tree).mp he
          refine ⟨y, hy, fun p hp' ↦ ?_⟩
          rw [hp] at hp'
          cases hp'
          exact List.mem_append_right _ List.mem_cons_self
        · obtain ⟨y, hy, hscope'⟩ := hstack e (List.mem_cons_of_mem d he)
          exact ⟨y, hy, fun p hp ↦ List.mem_append_left _ (hscope' p hp)⟩
      obtain ⟨plan, hplan, hplanIds⟩ := ih hstack'
      refine ⟨plan, ?_, ?_⟩
      · have hfirst (ds : List DeclId) : (d :: ds).filterMap (·.get? u.store.decls) =
            x :: ds.filterMap (·.get? u.store.decls) := List.filterMap_cons_some hd
        rw [Store.visit, hfirst, List.foldlM_cons, hnext]
        exact hplan
      · rw [hplanIds, hids, Store.visit, List.append_assoc]
        rfl

theorem returns_plan_of_keyName (f : Forest) : Returns (f.plan u) := by
  obtain ⟨x, hx, hp, -⟩ := hu.tree.root_held rfl
  obtain ⟨rank, hrank, -⟩ := Store.exists_ranks_of_climb hu.climbs
  have hstack : ∀ d ∈ [u.root], ∃ x, d.get? u.store.decls = some x ∧
      ∀ p ∈ x.parent, p ∈ ([] : List Placement).map (·.source.id) := by
    intro d hd
    rw [List.mem_singleton.mp hd]
    exact ⟨x, hx, by rw [hp]; exact nofun⟩
  obtain ⟨plan, hplan, hids⟩ := exists_foldlM_visit hu hkeys f u.store.decls.length hstack
  refine ⟨plan, plan_eq_ok_iff.mpr ⟨hplan, fun y hy ↦ ?_⟩⟩
  obtain ⟨d, hd⟩ := Id.exists_get?_of_mem (k := .decl) hy
  have hmem := (Store.preorder_perm_all hu.tree hrank).mem_iff.mpr (Id.mem_all_of_get? hd)
  rw [isSome_placed?, hids, hu.tree.dense hd]
  exact List.mem_append_right _ hmem

end Visits

/-- Whatever merging `u` calls returns, and only a unit that comes out of turn is refused. -/
structure Merges (f : Forest) (u : ResolvedUnit) : Prop where
  /-- The walk over the unit visits every declaration just once. -/
  order : (u.store.preorder u.root).Perm (Id.all u.store.decls)
  keyName : ∀ x ∈ u.store.decls, Returns (u.keyName x)
  plan : Returns (f.plan u)
  rebind : ∀ change, Returns (u.registry.rebind change)
  merge : u.unit = f.nextUnit → Returns (f.merge u)
  refuse : u.unit ≠ f.nextUnit → f.merge u = refuse (.unitOutOfOrder f.nextUnit u.unit) ∧
    f.attemptMerge u = (f, refuse (.unitOutOfOrder f.nextUnit u.unit))

theorem returns_merge_of_plan (hunit : u.unit = f.nextUnit) (hplan : Returns (f.plan u))
    (hrebind : ∀ change, Returns (u.registry.rebind change)) : Returns (f.merge u) := by
  obtain ⟨plan, hplan⟩ := hplan
  obtain ⟨registry, hregistry⟩ := hrebind (f.planRenaming u plan).node
  exact ⟨_, merge_eq_ok_iff.mpr ⟨hunit, plan, registry, hplan, hregistry, rfl, rfl⟩⟩

/-- Where the renderings of a unit end, its merge fails only if it comes out of turn, and adding its
records fails only as building it does. -/
theorem merges_of_ends (f : Forest)
    (hends : ∀ {u}, buildUnit settings unit records = .ok u → ∀ q, u.store.Ends q) :
    (∀ {u}, buildUnit settings unit records = .ok u → f.Merges u) ∧
      (settings = f.settings → unit = f.nextUnit → ∀ e,
        f.attempt records = (f, .error e) ↔ buildUnit settings unit records = .error e) := by
  have hmerges {u : ResolvedUnit} (h : buildUnit settings unit records = .ok u) : f.Merges u := by
    obtain ⟨hu, -, -⟩ := buildUnit_eq_ok h
    obtain ⟨rank, hrank, -⟩ := Store.exists_ranks_of_climb hu.climbs
    have hkeys {d : DeclId} {x : Declaration} (hd : d.get? u.store.decls = some x) :
        Returns (u.keyName x) := u.returns_keyName hu (acyclic_of_buildUnit h) (hends h) hd
    have hplan := returns_plan_of_keyName hu hkeys f
    have hrebind (change : Node → Node) : Returns (u.registry.rebind change) :=
      Registry.returns_rebind_iff.mpr (unfrozen_of_buildUnit h)
    constructor
    case order => exact Store.preorder_perm_all hu.tree hrank
    case keyName =>
      intro x hx
      obtain ⟨d, hd⟩ := Id.exists_get?_of_mem (k := .decl) hx
      exact hkeys hd
    case plan => exact hplan
    case rebind => exact hrebind
    case merge => exact fun hunit ↦ returns_merge_of_plan hunit hplan hrebind
    case refuse =>
      intro hunit
      have hrefused : f.merge u = refuse (.unitOutOfOrder f.nextUnit u.unit) := by
        rw [merge_eq, if_pos hunit]
      exact ⟨hrefused, attemptMerge_of_error (unfrozen_of_buildUnit h) hrefused⟩
  refine ⟨hmerges, ?_⟩
  rintro rfl rfl e
  cases hbuild : buildUnit f.settings f.nextUnit records with
  | error e' => simp [attempt, hbuild]
  | ok u =>
    obtain ⟨⟨g, summary⟩, hok⟩ := (hmerges hbuild).merge (buildUnit_eq_ok hbuild).2.1
    simp [attempt, hbuild, attemptMerge_of_ok hok, Except.map]

end Forest

theorem merges_of_ends_sample : ∃ u, buildUnit {} ⟨1⟩ (Sample.boxed "v") = .ok u ∧
    (∀ q, u.store.Ends q) ∧ Returns (Forest.merge {} u) ∧
      Forest.merge { registries := [⟨⟨1⟩, ∅, false⟩] } u = refuse (.unitOutOfOrder ⟨2⟩ ⟨1⟩) := by
  have h : (fun u ↦ (u.store.decls.map (·.instantiates?), u.store.declName ⟨3⟩,
        u.store.anonymousScopes ⟨2⟩)) <$> buildUnit {} ⟨1⟩ (Sample.boxed "v") =
      .ok ([none, none, some ⟨2⟩, none], .ok "v<v>", .ok []) := by
    cbv
  obtain ⟨u, hu, hdata⟩ := map_eq_ok h
  simp only [Prod.mk.injEq] at hdata
  obtain ⟨hspecial, hname, hscopes⟩ := hdata
  -- the third declaration is the only specialized class
  have honly {d : DeclId} {x : Declaration} {i : TypeId} (hx : d.get? u.store.decls = some x)
      (hi : x.instantiates? = some i) : d = ⟨3⟩ ∧ i = ⟨2⟩ := by
    have hget : d.get? (u.store.decls.map (·.instantiates?)) = some (some i) := by
      rw [Id.get?_map, hx, Option.map_some, hi]
    rw [hspecial] at hget
    obtain ⟨n, rfl, hn⟩ := Id.get?_eq_some_iff.mp hget
    rcases n with _ | _ | _ | _ | n <;> simp at hn
    exact ⟨rfl, hn.symm⟩
  have huntangled : u.store.Untangled := by
    refine Store.untangled_of_returns fun {d x i} hx hi ↦ ?_
    obtain ⟨rfl, rfl⟩ := honly hx hi
    exact ⟨⟨_, hname⟩, ⟨_, hscopes⟩⟩
  obtain ⟨hsound, hunit, -⟩ := buildUnit_eq_ok hu
  obtain ⟨rank, hr⟩ := Store.exists_rank hsound.closed.expands (acyclic_of_buildUnit hu)
  have hends := (Store.untangled_iff hr hsound.closed).mp huntangled
  have hbuilt {v : ResolvedUnit} (hv : buildUnit {} ⟨1⟩ (Sample.boxed "v") = .ok v) :
      ∀ q, v.store.Ends q := by
    rw [hu] at hv
    cases hv
    exact hends
  have hfirst := (Forest.merges_of_ends {} hbuilt).1 hu
  have hlater := (Forest.merges_of_ends { registries := [⟨⟨1⟩, ∅, false⟩] } hbuilt).1 hu
  refine ⟨u, hu, hends, hfirst.merge hunit, ?_⟩
  have hrefused := (hlater.refuse (by rw [hunit]; decide)).1
  rw [hunit] at hrefused
  exact hrefused

end ScopeForest
