import ScopeForest.Proofs.Graph.Search

namespace ScopeForest

open Outcome

/-- The matcher for base classes tells whether a direct or indirect base matches. -/
structure Store.FindsBases (s : Store) (m : Matcher) (d : DeclId) : Prop where
  classes : ∀ {c}, s.Derives d c → ∃ x, c.get? s.decls = some x ∧ x.kind.IsClass
  answer : ∃ found, (Matcher.hasBaseClass m).accepts s d = .ok found ∧
    (found = true ↔ ∃ c, s.Derives d c ∧ m.accepts s c = .ok true)
  /-- A class is found among its own bases only where these run in a circle. -/
  itself : m.accepts s d = .ok true →
    (∀ c, s.Derives d c → m.accepts s c = .ok true → c = d) →
      ((Matcher.hasBaseClass m).accepts s d = .ok true ↔ s.Derives d d)

theorem Forest.Refers.class_of_derives {f : Forest} (hf : f.Refers) {c d : DeclId}
    (h : f.store.Derives d c) : ∃ x, c.get? f.store.decls = some x ∧ x.kind.IsClass := by
  obtain ⟨e, -, y, hy, hc⟩ := Relation.TransGen.tail'_iff.mp h
  obtain ⟨b, hb, rfl⟩ := List.mem_map.mp hc
  obtain ⟨kind, ⟨x, hx, rfl⟩, hclass⟩ := (hf.decls y (Id.mem_of_get? hy)).bases b hb
  exact ⟨x, hx, hclass⟩

/-- In the graph of a run, the search for a base class ends, and finds one if and only if a class
that can be reached by base links matches. -/
theorem Run.findsBases {units : List (List Record)} {lone : Bool} {f : Forest}
    (h : Run units lone f) {d : DeclId} (hd : f.freeze.store.HoldsDecl d) {m : Matcher}
    (hm : ∀ c, f.freeze.store.Derives d c → Returns (m.accepts f.freeze.store c)) :
    f.freeze.store.FindsBases m d := by
  have hclass {c : DeclId} (hc : f.freeze.store.Derives d c) :
      ∃ x, c.get? f.freeze.store.decls = some x ∧ x.kind.IsClass :=
    (h.refers.freeze h.sound).class_of_derives hc
  obtain ⟨x, hx⟩ := hd
  have hsearch : (Matcher.hasBaseClass m).accepts f.freeze.store d =
      f.freeze.store.searchBases (m.accepts f.freeze.store) [] (x.bases.map (·.cls)) := by
    rw [Matcher.accepts, Store.decl_of_get? hx]
    rfl
  obtain ⟨found, hfound, hiff⟩ := Store.searchBases_bases hx fun c hc ↦ by
    obtain ⟨y, hy, -⟩ := hclass hc
    exact ⟨⟨y, hy⟩, hm c hc⟩
  rw [← hsearch] at hfound
  refine ⟨hclass, ⟨found, hfound, hiff⟩, fun hself honly ↦ ?_⟩
  rw [hfound, Except.ok.injEq, hiff]
  constructor
  · rintro ⟨c, hc, hmatch⟩
    rw [honly c hc hmatch] at hc
    exact hc
  · intro hcircle
    exact ⟨d, hcircle, hself⟩

namespace Sample

def struct (name : String) (bases : List ExternalId) : Record :=
  { ({ tag := .structTag, id := name } : Record).withLiteral Field.name name with
    children := bases.map fun id ↦
      { kind := .base, attrs := NameMap.ofList [(Field.type, .ref id)] } }

def circular : List Record :=
  [({ tag := .namespaceTag, id := "n" } : Record).withLiteral Field.name "::", struct "a" ["b"],
    struct "b" ["a", "a"], struct "d" ["a", "b"]]

end Sample

theorem findsBases_sample : ∃ f, Run [Sample.circular] false f ∧ f.freeze.store.HoldsDecl ⟨2⟩ ∧
    (∀ c, f.freeze.store.Derives ⟨2⟩ c →
      Returns ((Matcher.nameEquals "a").accepts f.freeze.store c)) ∧
    f.freeze.store.FindsBases (.nameEquals "a") ⟨2⟩ ∧ f.freeze.store.Derives ⟨2⟩ ⟨2⟩ ∧
    (Matcher.hasBaseClass (.nameEquals "a")).accepts f.freeze.store ⟨2⟩ = .ok true ∧
    (Matcher.hasBaseClass (.nameEquals "d")).accepts f.freeze.store ⟨4⟩ = .ok false := by
  have h : (fun f : Forest ↦
      ((Id.all f.freeze.store.decls).map fun d ↦
        (d, (Matcher.nameEquals "a").accepts f.freeze.store d),
      (Matcher.hasBaseClass (.nameEquals "a")).accepts f.freeze.store ⟨2⟩,
      (Matcher.hasBaseClass (.nameEquals "d")).accepts f.freeze.store ⟨4⟩)) <$>
      Forest.ofUnits {} [Sample.circular] =
        .ok ([(⟨1⟩, .ok false), (⟨2⟩, .ok true), (⟨3⟩, .ok false), (⟨4⟩, .ok false)], .ok true,
          .ok false) := by
    cbv
  obtain ⟨f, hf, heq⟩ := Outcome.map_eq_ok h
  simp only [Prod.mk.injEq] at heq
  obtain ⟨hverdicts, ha, hd⟩ := heq
  have hrun := Run.ofUnits hf
  have hverdict {c : DeclId} (hc : f.freeze.store.HoldsDecl c) :
      (Matcher.nameEquals "a").accepts f.freeze.store c = .ok (decide (c = ⟨2⟩)) := by
    obtain ⟨x, hx⟩ := hc
    have hmem := List.mem_map_of_mem (f := fun d ↦
      (d, (Matcher.nameEquals "a").accepts f.freeze.store d)) (Id.mem_all_of_get? hx)
    rw [hverdicts] at hmem
    simp only [List.mem_cons, Prod.mk.injEq, List.not_mem_nil, or_false] at hmem
    rcases hmem with ⟨rfl, hc⟩ | ⟨rfl, hc⟩ | ⟨rfl, hc⟩ | ⟨rfl, hc⟩ <;> exact hc
  have hheld : f.freeze.store.HoldsDecl ⟨2⟩ := by
    have hlength : f.freeze.store.decls.length = 4 := by
      simpa using congrArg List.length hverdicts
    exact Id.exists_get?_iff.mpr ⟨by decide, hlength ▸ by decide⟩
  have hderived {c : DeclId} (hc : f.freeze.store.Derives ⟨2⟩ c) : f.freeze.store.HoldsDecl c := by
    obtain ⟨x, hx, -⟩ := (hrun.refers.freeze hrun.sound).class_of_derives hc
    exact ⟨x, hx⟩
  have hreturns : ∀ c, f.freeze.store.Derives ⟨2⟩ c →
      Returns ((Matcher.nameEquals "a").accepts f.freeze.store c) :=
    fun c hc ↦ ⟨_, hverdict (hderived hc)⟩
  have hfinds := Run.findsBases hrun hheld hreturns
  refine ⟨f, hrun, hheld, hreturns, hfinds, ?_, ha, hd⟩
  refine (hfinds.itself (hverdict hheld) fun c hc hmatch ↦ ?_).mp ha
  rw [hverdict (hderived hc)] at hmatch
  simpa using hmatch

end ScopeForest
