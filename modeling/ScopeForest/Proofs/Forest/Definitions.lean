import ScopeForest.Proofs.Forest.Integrity
import ScopeForest.Proofs.Forest.Sightings

namespace ScopeForest

namespace Details

def bare : Details → Details
  | scope _ => scope []
  | cls c => cls { c with members := [], bases := [], aliases := [] }
  | enumeration _ => enumeration []
  | details => details

def isDefinition : Details → Bool
  | cls c => c.isComplete
  | _ => false

variable (details : Details)

@[simp] theorem isDefinition_bare : details.bare.isDefinition = details.isDefinition := by
  cases details <;> rfl

@[simp] theorem bare_withMembers (members : List DeclId) :
    (details.withMembers members).bare = details.bare := by
  cases details <;> rfl

end Details

namespace Declaration

variable {x y : Declaration} {seen : List Declaration}

def isDefinition (x : Declaration) : Bool := x.details.isDefinition

theorem absorb_eq (x y : Declaration) : x.absorb y =
    { x with location := (x.absorb y).location, details := (x.absorb y).details } := by
  unfold absorb
  split <;> rfl

/-- The other sighting is the definition, or it adds no more than a location. -/
theorem absorb_cases (h : y.isDefinition → ∃ c, x.details = .cls c) :
    (x.isDefinition = false ∧ y.isDefinition = true ∧
      (x.absorb y).details.bare = y.details.bare ∧
        (x.absorb y).location = y.location.or x.location) ∨
    ((y.isDefinition = true → x.isDefinition = true) ∧
      (x.absorb y).details.bare = x.details.bare ∧
        (x.absorb y).location = x.location.or y.location) := by
  unfold absorb
  split
  next k s hk hs =>
    have hx : x.isDefinition = k.isComplete := by rw [isDefinition, hk]; rfl
    have hy : y.isDefinition = s.isComplete := by rw [isDefinition, hs]; rfl
    by_cases hdefined : k.isDefinedBy s
    · left
      have hflags := hdefined
      simp only [ClassDetails.isDefinedBy, Bool.and_eq_true, Bool.not_eq_true'] at hflags
      refine ⟨hx.trans hflags.1, hy.trans hflags.2, ?_, ?_⟩
      · simp [ClassDetails.absorb, hdefined, hs, Details.bare, hflags.2]
      · simp [hdefined]
    · right
      refine ⟨?_, ?_, ?_⟩
      · rw [hx, hy]
        simpa [ClassDetails.isDefinedBy, imp_iff_not_or, or_comm] using hdefined
      · simp [ClassDetails.absorb, hdefined, hk, Details.bare]
      · simp [hdefined]
  next hneither =>
    right
    refine ⟨fun hy ↦ ?_, rfl, by simp⟩
    obtain ⟨k, hk⟩ := h hy
    cases hs : y.details with
    | cls s => exact absurd hs (hneither k s hk)
    | _ =>
      rw [isDefinition, hs] at hy
      cases hy

def definition? (seen : List Declaration) : Option Declaration := seen.find? (·.isDefinition)

theorem definition?_append (seen : List Declaration) (y : Declaration) :
    definition? (seen ++ [y]) =
      (definition? seen).or (if y.isDefinition then some y else none) := by
  rw [definition?, List.find?_append, List.find?_singleton]
  rfl

theorem definition?_eq_none_iff :
    definition? seen = none ↔ seen.any (·.isDefinition) = false := by
  simp [definition?]

/-- What a node is that has been declared like this in turn. -/
structure Combines (seen : List Declaration) (x : Declaration) : Prop where
  /-- All but the location and the details is as it was declared first. -/
  first : ∃ y ∈ seen.head?, { x with location := y.location, details := y.details } = y
  /-- The definition counts, or else the first declaration. -/
  details : ∃ y ∈ (definition? seen).or seen.head?, x.details.bare = y.details.bare
  location : x.location =
    ((definition? seen).bind (·.location)).or (seen.findSome? (·.location))

namespace Combines

theorem singleton (x : Declaration) : Combines [x] x where
  first := ⟨x, rfl, rfl⟩
  details := by
    cases hx : x.isDefinition <;> exact ⟨x, by simp [definition?, hx], rfl⟩
  location := by
    cases hx : x.isDefinition <;> simp [definition?, hx]

theorem withMembers (h : Combines seen x) (members : List DeclId) :
    Combines seen (x.withMembers members) where
  first := h.first
  details := by
    obtain ⟨y, hy, heq⟩ := h.details
    exact ⟨y, hy, (x.details.bare_withMembers members).trans heq⟩
  location := h.location

theorem isDefinition (h : Combines seen x) : x.isDefinition = seen.any (·.isDefinition) := by
  obtain ⟨y, hy, heq⟩ := h.details
  have hxy : x.isDefinition = y.isDefinition := by
    rw [Declaration.isDefinition, ← Details.isDefinition_bare, heq, Details.isDefinition_bare]
    rfl
  rw [hxy]
  cases hfirst : definition? seen with
  | some z =>
    rw [hfirst] at hy
    cases hy
    have hdefined := List.find?_some hfirst
    rw [hdefined, eq_comm, List.any_eq_true]
    exact ⟨y, List.mem_of_find?_eq_some hfirst, hdefined⟩
  | none =>
    rw [hfirst] at hy
    rw [definition?_eq_none_iff.mp hfirst]
    simpa using List.find?_eq_none.mp hfirst y (List.mem_of_mem_head? hy)

theorem absorb (hx : Combines seen x) (h : y.isDefinition → ∃ c, x.details = .cls c) :
    Combines (seen ++ [y]) (x.absorb y) := by
  have hany := hx.isDefinition
  have hfirst : ∃ z ∈ (seen ++ [y]).head?,
      { x.absorb y with location := z.location, details := z.details } = z := by
    obtain ⟨z, hz, heq⟩ := hx.first
    refine ⟨z, by rw [List.head?_append, hz]; rfl, ?_⟩
    rw [absorb_eq]
    exact heq
  rcases absorb_cases h with ⟨hxd, hyd, hbare, hlocation⟩ | ⟨himp, hbare, hlocation⟩
  · have hnone : definition? seen = none := definition?_eq_none_iff.mpr (hany.symm.trans hxd)
    have hnow : definition? (seen ++ [y]) = some y := by
      rw [definition?_append, hnone, hyd]
      rfl
    refine ⟨hfirst, ⟨y, by rw [hnow]; rfl, hbare⟩, ?_⟩
    rw [hlocation, hx.location, hnone, hnow, List.findSome?_append]
    cases hy : y.location <;> simp [hy]
  · have hsame : definition? (seen ++ [y]) = definition? seen := by
      rw [definition?_append]
      cases hdefined : definition? seen with
      | some z => rfl
      | none =>
        have hxd : x.isDefinition = false := hany.trans (definition?_eq_none_iff.mp hdefined)
        have hyd : ¬y.isDefinition := fun hy ↦ by simp [himp hy] at hxd
        rw [if_neg hyd]
        rfl
    refine ⟨hfirst, ?_, ?_⟩
    · obtain ⟨z, hz, heq⟩ := hx.details
      refine ⟨z, ?_, hbare.trans heq⟩
      rw [hsame, List.head?_append, ← Option.or_assoc, hz]
      rfl
    · rw [hlocation, hx.location, hsame, List.findSome?_append, Option.or_assoc]
      simp

end Combines

end Declaration

def Location.place (files : List String) (l : Location) : Option String × Nat :=
  (l.file.get? files, l.line)

namespace History

variable {steps : List MergeStep} {f : Forest} {m : MergeStep} {p : Placement} {d : DeclId}
  {x : Declaration}

end History

section Combines

variable {steps : List MergeStep} {f : Forest} {d : DeclId} {x : Declaration}

end Combines

end ScopeForest
