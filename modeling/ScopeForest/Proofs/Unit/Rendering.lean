import ScopeForest.Proofs.Types.Tangles
import ScopeForest.Proofs.Unit.Building

namespace ScopeForest

open Outcome

def AllocatedUnit.check (a : AllocatedUnit) (settings : BuilderSettings) : Outcome Store := do
  a.slots.checkReferences
  let types ← a.slots.types.mapM a.slots.typeOf
  let decls ← a.slots.linkMembers (← a.declarations settings)
  a.slots.checkReachable decls
  a.slots.checkAcyclic ⟨decls, types⟩
  return ⟨decls, types⟩

/-- The declarations and types of a unit that passes the checks. -/
def checkUnit (settings : BuilderSettings) (unit : UnitId) (records : List Record) :
    Outcome Store := do
  (← Outcome.ofExcept (allocate unit records)).check settings

namespace AllocatedUnit

variable {a : AllocatedUnit} {settings : BuilderSettings} {unit : UnitId} {records : List Record}
  {s : Store}

/-- After the checks only the signatures of callables are left to compute. -/
theorem resolve_eq : a.resolve settings = do
    let store ← a.check settings
    let signatureKeys ← (Id.all store.decls).mapM store.signatureKey
    return { unit := a.slots.unit, store, root := a.root, registry := a.slots.registry,
             files := a.slots.files.map (·.2), signatureKeys } := by
  simp only [resolve, check, bind_assoc, pure_bind]

theorem check_eq_ok (h : a.check settings = .ok s) : ∃ decls linked types,
    a.declarations settings = .ok decls ∧ a.slots.linkMembers decls = .ok linked ∧
      a.slots.types.mapM a.slots.typeOf = .ok types ∧ a.slots.checkReachable linked = .ok () ∧
        a.slots.checkAcyclic s = .ok () ∧ s = ⟨linked, types⟩ := by
  obtain ⟨_, -, h⟩ := bind_eq_ok h
  obtain ⟨types, htypes, h⟩ := bind_eq_ok h
  obtain ⟨decls, hdecls, h⟩ := bind_eq_ok h
  obtain ⟨linked, hlinked, h⟩ := bind_eq_ok h
  obtain ⟨_, hreachable, h⟩ := bind_eq_ok h
  obtain ⟨_, hacyclic, h⟩ := bind_eq_ok h
  cases h
  exact ⟨decls, linked, types, hdecls, hlinked, htypes, hreachable, hacyclic, rfl⟩

theorem acyclic_of_check (h : a.check settings = .ok s) : s.Acyclic := by
  obtain ⟨decls, linked, types, -, -, -, -, hacyclic, -⟩ := check_eq_ok h
  exact Store.acyclic_of_findCycle (checkAcyclic_eq_ok_iff.mp hacyclic)

theorem sound_of_check (ha : a.Sound unit records) (h : a.check settings = .ok s) :
    s.Closed ∧ s.Acyclic := by
  have hacyclic := acyclic_of_check h
  obtain ⟨decls, linked, types, hdecls, hlinked, htypes, hreachable, -, rfl⟩ := check_eq_ok h
  rw [linkMembers_declarations ha hdecls] at hlinked
  cases hlinked
  exact ⟨(sound_declarations ha hdecls htypes hreachable []).closed, hacyclic⟩

end AllocatedUnit

/-- Every request ends with an answer, and every declaration has the texts that merging compares. -/
structure Store.Renders (s : Store) : Prop where
  ends : ∀ q, s.Ends q
  answers : ∀ {q}, s.HoldsRequest q → s.Answers q
  signatureKey : ∀ {d}, s.HoldsDecl d → Returns (s.signatureKey d)
  mergeName : ∀ {d}, s.HoldsDecl d → Returns (s.mergeName d)

section Checked

variable {settings : BuilderSettings} {unit : UnitId} {records : List Record} {s : Store}

theorem ranking_of_checkUnit (h : checkUnit settings unit records = .ok s) :
    s.Closed ∧ ∃ rank, s.Ranking s.Expands rank := by
  obtain ⟨a, ha, h⟩ := bind_eq_ok h
  obtain ⟨hs, hacyclic⟩ := AllocatedUnit.sound_of_check (allocate_eq_ok (ofExcept_eq_ok ha)) h
  exact ⟨hs, Store.exists_rank hs.expands hacyclic⟩

theorem buildUnit_of_checkUnit (h : checkUnit settings unit records = .ok s)
    (hkeys : ∀ {d}, s.HoldsDecl d → Returns (s.signatureKey d)) :
    Returns (buildUnit settings unit records) := by
  obtain ⟨a, ha, h⟩ := bind_eq_ok h
  refine returns_bind ha ?_
  rw [AllocatedUnit.resolve_eq]
  refine returns_bind h ((returns_mapM fun d hd ↦ ?_).bind fun keys ↦ ⟨_, rfl⟩)
  exact hkeys (Id.exists_get?_of_mem_all hd)

/-- The requests of a unit that passes the checks are answered just if they end, and all of them end
just if no specialized class leads back to itself. -/
theorem renders_of_checkUnit (h : checkUnit settings unit records = .ok s) :
    (∀ q, s.HoldsRequest q → (s.Answers q ↔ s.Ends q)) ∧ (s.Renders ↔ s.Untangled) ∧
      (s.Untangled → Returns (buildUnit settings unit records)) := by
  obtain ⟨hs, rank, hr⟩ := ranking_of_checkUnit h
  have hanswers (q : Request) (hq : s.HoldsRequest q) : s.Answers q ↔ s.Ends q :=
    Store.answers_iff hs hr hq
  have hrenders (huntangled : s.Untangled) : s.Renders := by
    have hends := (Store.untangled_iff hr hs).mp huntangled
    have hall {q : Request} (hq : s.HoldsRequest q) : s.Answers q := (hanswers q hq).mpr (hends q)
    exact ⟨hends, hall, Store.signatureKey_returns hs hall, Store.mergeName_returns hs hall⟩
  refine ⟨hanswers, ⟨fun hrender ↦ (Store.untangled_iff hr hs).mpr hrender.ends, hrenders⟩, ?_⟩
  intro huntangled
  exact buildUnit_of_checkUnit h (hrenders huntangled).signatureKey

namespace Sample

def outline (x : Declaration) : Option DeclId × Bool × Option TypeId × Option TypeId :=
  (x.parent, x.isAnonymous, x.expansion?, x.instantiates?)

/-- A class inside a specialized class, whose template argument is of the given type. -/
def boxed (argument : ExternalId) : List Record :=
  [({ tag := .namespaceTag, id := "n" } : Record).withLiteral Field.name "::",
    (({ tag := .classTag, id := "v" } : Record).withLiteral Field.name "v").withRef
      Field.context "n",
    (({ tag := .templateInstantiation, id := "t" } : Record).withRef Field.template "v").withChild
      { kind := .templateArgument, attrs := NameMap.ofList [(Field.type, .ref argument)] },
    ((({ tag := .classTag, id := "w" } : Record).withLiteral Field.name "w").withRef
      Field.context "n").withRef Field.instantiates "t",
    (({ tag := .classTag, id := "i" } : Record).withLiteral Field.name "i").withRef
      Field.context "w"]

end Sample

/-- With the template itself for an argument there are all texts. -/
theorem renders_boxed : ∃ s, checkUnit {} ⟨1⟩ (Sample.boxed "v") = .ok s ∧ s.Renders ∧
    s.qualifiedName ⟨4⟩ = .ok "v<v>::i" := by
  have h : (fun s ↦ (s.decls.map (·.instantiates?), s.qualifiedName ⟨4⟩, s.declName ⟨3⟩,
        s.anonymousScopes ⟨2⟩)) <$> checkUnit {} ⟨1⟩ (Sample.boxed "v") =
      .ok ([none, none, some ⟨2⟩, none], .ok "v<v>::i", .ok "v<v>", .ok []) := by
    cbv
  obtain ⟨s, hs, hdata⟩ := map_eq_ok h
  simp only [Prod.mk.injEq] at hdata
  obtain ⟨hspecial, hpath, hname, hscopes⟩ := hdata
  refine ⟨s, hs, (renders_of_checkUnit hs).2.1.mpr ?_, hpath⟩
  -- the third declaration is the only specialized class
  have honly {d : DeclId} {x : Declaration} {i : TypeId} (hx : d.get? s.decls = some x)
      (hi : x.instantiates? = some i) : d = ⟨3⟩ ∧ i = ⟨2⟩ := by
    have hget : d.get? (s.decls.map (·.instantiates?)) = some (some i) := by
      rw [Id.get?_map, hx, Option.map_some, hi]
    rw [hspecial] at hget
    obtain ⟨n, rfl, hn⟩ := Id.get?_eq_some_iff.mp hget
    rcases n with _ | _ | _ | _ | n <;> simp at hn
    exact ⟨rfl, hn.symm⟩
  intro q hq
  cases hq with
  | name hx hi =>
    rw [(honly hx hi).1]
    exact (Store.ends_of_nameWith Store.ends_of_spellAux ⟨_, hname⟩).not_transGen
  | scopes hx hi =>
    rw [(honly hx hi).2]
    exact (Store.ends_of_scopesAux ⟨_, hscopes⟩).not_transGen

/-- With the inner class for an argument the checks pass and the unit is built, but the name of the
specialized class is asked for on the way to itself. -/
theorem endless_boxed : ∃ s, checkUnit {} ⟨1⟩ (Sample.boxed "i") = .ok s ∧
    Returns (buildUnit {} ⟨1⟩ (Sample.boxed "i")) ∧ s.HoldsRequest (.name ⟨3⟩) ∧
      ¬s.Ends (.name ⟨3⟩) ∧ ¬Returns (s.mergeName ⟨3⟩) := by
  have h : (fun s ↦ (s.types, s.decls.map Sample.outline)) <$>
        checkUnit {} ⟨1⟩ (Sample.boxed "i") =
      .ok ([.declared ⟨2⟩, .instantiation ⟨2⟩ [.type ⟨4⟩], .declared ⟨3⟩, .declared ⟨4⟩],
        [(none, false, none, none), (some ⟨1⟩, false, none, none),
          (some ⟨1⟩, false, some ⟨2⟩, some ⟨2⟩), (some ⟨3⟩, false, none, none)]) := by
    cbv
  have hbuilt : (·.store.decls.length) <$> buildUnit {} ⟨1⟩ (Sample.boxed "i") = .ok 4 := by
    cbv
  obtain ⟨s, hs, hdata⟩ := map_eq_ok h
  obtain ⟨u, hu, -⟩ := map_eq_ok hbuilt
  simp only [Prod.mk.injEq] at hdata
  obtain ⟨htypes, hdecls⟩ := hdata
  have hget (d : DeclId) : d.get? (s.decls.map Sample.outline) = _ := Id.get?_map _
  rw [hdecls] at hget
  obtain ⟨outer, houter, hdata⟩ := Option.map_eq_some_iff.mp (hget ⟨3⟩).symm
  obtain ⟨inner, hinner, hdata'⟩ := Option.map_eq_some_iff.mp (hget ⟨4⟩).symm
  simp only [Sample.outline, Prod.mk.injEq] at hdata hdata'
  obtain ⟨hparent, hnamed, -, hspecial⟩ := hdata
  obtain ⟨hinside, -, hplain, -⟩ := hdata'
  -- from the name of the outer class to its argument, the inner class, and to the path of that one
  have hargs : (⟨2⟩ : TypeId).get? s.types = some (.instantiation ⟨2⟩ [.type ⟨4⟩]) := by
    rw [htypes]
    rfl
  have hnode : (⟨4⟩ : TypeId).get? s.types = some (.declared ⟨4⟩) := by
    rw [htypes]
    rfl
  have hfront : s.Front true ⟨4⟩ ⟨4⟩ :=
    ⟨.refl, (Store.names_of_declared hnode hinner hplain).canonical⟩
  have hcircle : Relation.TransGen s.Asks (.name ⟨3⟩) (.name ⟨3⟩) :=
    .head (.argument houter hspecial hargs List.mem_cons_self)
      (.head (.owner hfront hnode rfl)
        (.single (.scope (.step hinner hinside .refl) houter (by simp [hparent]) hnamed)))
  have hendless : ¬s.Ends (.name ⟨3⟩) := fun hends ↦ hends.not_transGen hcircle
  refine ⟨s, hs, ⟨u, hu⟩, ⟨outer, houter⟩, hendless, fun hmerge ↦ hendless ?_⟩
  obtain ⟨name, hname, -⟩ := returns_bind_iff.mp hmerge
  exact Store.ends_of_nameWith Store.ends_of_spellAux ⟨name, hname⟩

end Checked

end ScopeForest
