import ScopeForest.Proofs.Graph.Search
import ScopeForest.Proofs.Types.Sight

namespace ScopeForest

open Outcome

namespace Store

variable {s : Store} {t u : TypeId} {rank : TypeId → Nat}

section Ranked

variable (hs : s.Linked) (hr : s.Ranking s.Expands rank)

include hs hr

theorem equalTypes_congr (h : s.SameForm t u) (o : TypeId) :
    s.equalTypes t o = s.equalTypes u o := by
  rw [equalTypes, equalTypes, structuralEquals_congr hs hr h]

theorem spelledAs_congr (h : s.SameForm t u) (text : String) :
    s.spelledAs t text = s.spelledAs u text := by
  rw [spelledAs, spelledAs, spell, spell, spellAux_congr hs hr _ h]

end Ranked

end Store

section Matching

variable {s : Store} {rank : TypeId → Nat}

mutual

/-- A matcher gives the same answer for types that look the same. -/
theorem TypeMatcher.accepts_congr (hs : s.Linked) (hr : s.Ranking s.Expands rank)
    (m : TypeMatcher) (used : Qualifiers) {t u : TypeId} (h : s.SameUnfolding s.seen t u) :
    m.accepts s used t = m.accepts s used u := by
  have hlooks := Store.looks_seen hs hr
  have hform := h.sameForm hs hr hlooks
  obtain ⟨c, d, q, x, y, hc, hd, hx, hy, hnodes⟩ := h.nodes hs hr hlooks
  rw [TypeMatcher.accepts, TypeMatcher.accepts, Store.seen_eq_iff.mp hc, Store.seen_eq_iff.mp hd]
  simp only [bind, Except.bind, Store.ty_of_get? hx, Store.ty_of_get? hy]
  cases m with
  | any => rfl
  | fundamental expected => cases hnodes <;> rfl
  | void => cases hnodes <;> rfl
  | pointerTo target =>
    cases hnodes with
    | pointer h => exact TypeMatcher.accepts_congr hs hr target {} h
    | _ => rfl
  | referenceTo target =>
    cases hnodes with
    | reference h => exact TypeMatcher.accepts_congr hs hr target {} h
    | _ => rfl
  | arrayOf element =>
    cases hnodes with
    | array size h => exact TypeMatcher.accepts_congr hs hr element {} h
    | _ => rfl
  | const inner => simp only [TypeMatcher.accepts_congr hs hr inner _ h]
  | volatile inner => simp only [TypeMatcher.accepts_congr hs hr inner _ h]
  | declared decl => cases hnodes <;> rfl
  | equalTo o => exact Store.equalTypes_congr hs hr hform o
  | spelled text => exact Store.spelledAs_congr hs hr hform text
  | conj all => exact TypeMatcher.acceptsAll_congr hs hr all used h
  | disj any => exact TypeMatcher.acceptsAny_congr hs hr any used h
  | neg m => simp only [TypeMatcher.accepts_congr hs hr m used h]

theorem TypeMatcher.acceptsAll_congr (hs : s.Linked) (hr : s.Ranking s.Expands rank)
    (ms : List TypeMatcher) (used : Qualifiers) {t u : TypeId} (h : s.SameUnfolding s.seen t u) :
    TypeMatcher.acceptsAll s ms used t = TypeMatcher.acceptsAll s ms used u := by
  cases ms with
  | nil => rfl
  | cons m ms =>
    rw [TypeMatcher.acceptsAll, TypeMatcher.acceptsAll, TypeMatcher.accepts_congr hs hr m used h,
      TypeMatcher.acceptsAll_congr hs hr ms used h]

theorem TypeMatcher.acceptsAny_congr (hs : s.Linked) (hr : s.Ranking s.Expands rank)
    (ms : List TypeMatcher) (used : Qualifiers) {t u : TypeId} (h : s.SameUnfolding s.seen t u) :
    TypeMatcher.acceptsAny s ms used t = TypeMatcher.acceptsAny s ms used u := by
  cases ms with
  | nil => rfl
  | cons m ms =>
    rw [TypeMatcher.acceptsAny, TypeMatcher.acceptsAny, TypeMatcher.accepts_congr hs hr m used h,
      TypeMatcher.acceptsAny_congr hs hr ms used h]

end

end Matching

/-- Matchers depend on what they see of a type, which is neither a typedef nor the order of
qualifiers. -/
structure Store.SeesTypes (s : Store) : Prop where
  view : ∀ {t}, s.HoldsType t → ∃ head q, s.view t = .ok (some (head, q)) ∧ s.Uncovered head ∧
    ∃ c p, s.canonicalHead head = .ok (c, p) ∧ s.canonicalHead t = .ok (c, q.union p)
  accepts : ∀ {t u}, s.HoldsType t → s.view t = s.view u → ∀ (m : TypeMatcher) used,
    m.accepts s used t = m.accepts s used u
  typedef : ∀ {t u d x}, t.get? s.types = some (.declared d) → d.get? s.decls = some x →
    x.aliased? = some u → ∀ (m : TypeMatcher) used, m.accepts s used t = m.accepts s used u
  order : ∀ {t u a b v}, t.get? s.types = some (.const a) → a.get? s.types = some (.volatile v) →
    u.get? s.types = some (.volatile b) → b.get? s.types = some (.const v) →
      ∀ (m : TypeMatcher) used, m.accepts s used t = m.accepts s used u
  nested : ∀ {t u}, s.Respells t u → ∀ (m : TypeMatcher) used,
    m.accepts s used t = m.accepts s used u
  /-- There is an answer unless a type is part of its own text. -/
  returns : s.Spellable → ∀ (m : TypeMatcher), (∀ c ∈ m.comparedTypes, s.HoldsType c) →
    ∀ {t}, s.HoldsType t → ∀ used, Returns (m.accepts s used t)

/-- In the graph of a run where no type expands to itself, a matcher tells types apart only by what
is left of them behind typedefs and qualifiers, and by the set of these qualifiers. -/
theorem Run.seesTypes {units : List (List Record)} {lone : Bool} {f : Forest}
    (h : Run units lone f) (hacyclic : f.freeze.store.Acyclic) : f.freeze.store.SeesTypes := by
  have hclosed := h.sound.freeze.1.closed (h.refers.freeze h.sound)
  have hs := hclosed.linked
  obtain ⟨rank, hr⟩ := Store.exists_rank hs.expands hacyclic
  have hnested {t u : TypeId} (htu : f.freeze.store.Respells t u) (m : TypeMatcher)
      (used : Qualifiers) : m.accepts f.freeze.store used t = m.accepts f.freeze.store used u :=
    m.accepts_congr hs hr used (htu.sameUnfolding hs hr)
  constructor
  case view =>
    intro t ht
    obtain ⟨head, q, hview, hsees⟩ := Store.exists_view hs hr ht
    exact ⟨head, q, hview, hsees.uncovered, hsees.canonicalHead hs hr⟩
  case accepts =>
    intro t u ht hview m used
    exact m.accepts_congr hs hr used (Store.sameUnfolding_of_view hs hr ht hview)
  case typedef =>
    intro t u d x ht hx hu
    have hheld := hs.expands (.named ht hx (Store.expansion?_of_aliased? hu))
    exact hnested (.typedef ht hx hu hheld)
  case order =>
    intro t u a b v ht ha hu hb
    exact hnested (.order ht ha hu hb (hs.child ha List.mem_cons_self))
  case nested => exact hnested
  case returns =>
    intro hspellable m hm t ht used
    obtain ⟨rank, hr⟩ := hclosed.exists_ranking hspellable
    exact m.accepts_returns hclosed hr hm used ht

namespace Sample

def qualified (id type : ExternalId) (flag : String) : Record :=
  (({ tag := .cvQualifiedType, id := id } : Record).withRef Field.type type).withFlag flag

def covered : List Record :=
  [({ tag := .namespaceTag, id := "n" } : Record).withLiteral Field.name "::",
    ({ tag := .fundamentalType, id := "i" } : Record).withLiteral Field.name "int",
    qualified "v" "i" Field.volatile,
    ((({ tag := .typedef, id := "t" } : Record).withLiteral Field.name "t").withRef
      Field.context "n").withRef Field.type "v",
    qualified "tc" "t" Field.const,
    ({ tag := .pointerType, id := "p" } : Record).withRef Field.type "tc",
    qualified "c" "i" Field.const,
    qualified "cv" "c" Field.volatile,
    ({ tag := .pointerType, id := "q" } : Record).withRef Field.type "cv"]

def pointerToInt : TypeMatcher := .pointerTo (.const (.volatile (.fundamental (some "int"))))

end Sample

theorem seesTypes_sample : ∃ f, Run [Sample.covered] false f ∧ f.freeze.store.Acyclic ∧
    f.freeze.store.SeesTypes ∧ f.freeze.store.Respells ⟨5⟩ ⟨8⟩ ∧
    f.freeze.store.view ⟨4⟩ = .ok (some (⟨1⟩, ⟨true, true⟩)) ∧
    Sample.pointerToInt.accepts f.freeze.store {} ⟨5⟩ = .ok true ∧
    Sample.pointerToInt.accepts f.freeze.store {} ⟨8⟩ = .ok true := by
  have h : (fun f : Forest ↦ (f.freeze.store.types, f.freeze.store.decls.map (·.aliased?),
      f.freeze.store.findCycle, f.freeze.store.view ⟨4⟩,
      Sample.pointerToInt.accepts f.freeze.store {} ⟨5⟩)) <$>
      Forest.ofUnits {} [Sample.covered] =
        .ok ([.fundamental "int", .volatile ⟨1⟩, .declared ⟨2⟩, .const ⟨3⟩, .pointer ⟨4⟩,
          .const ⟨1⟩, .volatile ⟨6⟩, .pointer ⟨7⟩], [none, some ⟨2⟩], .ok none,
          .ok (some (⟨1⟩, ⟨true, true⟩)), .ok true) := by
    cbv
  obtain ⟨f, hf, heq⟩ := Outcome.map_eq_ok h
  simp only [Prod.mk.injEq] at heq
  obtain ⟨htypes, hdecls, hcycle, hview, haccepts⟩ := heq
  have hrun := Run.ofUnits hf
  have hacyclic := Store.acyclic_of_findCycle hcycle
  have hsees := Run.seesTypes hrun hacyclic
  have hrespells : f.freeze.store.Respells ⟨5⟩ ⟨8⟩ := by
    obtain ⟨x, hx, halias⟩ : ∃ x, (⟨2⟩ : DeclId).get? f.freeze.store.decls = some x ∧
        x.aliased? = some ⟨2⟩ :=
      Option.map_eq_some_iff.mp (by rw [← Id.get?_map, hdecls]; rfl)
    have htypedef := Store.strip_typedef hx halias
    have hconst : f.freeze.store.StripsTo ⟨4⟩ _ ⟨1⟩ :=
      .head (by rw [htypes]; rfl) rfl <| .head (by rw [htypes]; rfl) htypedef <|
        .head (by rw [htypes]; rfl) rfl (.refl ⟨1⟩)
    have hvolatile : f.freeze.store.StripsTo ⟨7⟩ _ ⟨1⟩ :=
      .head (by rw [htypes]; rfl) rfl <| .head (by rw [htypes]; rfl) rfl (.refl ⟨1⟩)
    have hp : (⟨5⟩ : TypeId).get? f.freeze.store.types = some (.pointer ⟨4⟩) := by
      rw [htypes]
      rfl
    have hq : (⟨8⟩ : TypeId).get? f.freeze.store.types = some (.pointer ⟨7⟩) := by
      rw [htypes]
      rfl
    refine .congr hp hq rfl rfl fun {v w} hvw ↦ ?_
    cases List.mem_singleton.mp hvw
    exact .wrap hconst hvolatile (.refl ⟨_, by rw [htypes]; rfl⟩)
  refine ⟨f, hrun, hacyclic, hsees, hrespells, hview, haccepts, ?_⟩
  rw [← hsees.nested hrespells]
  exact haccepts

end ScopeForest
