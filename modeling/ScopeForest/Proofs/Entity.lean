import ScopeForest.Forest.Merge
import ScopeForest.Graph.Basic

namespace ScopeForest

def Details.Fits : Details → DeclKind → Prop
  | .scope _, kind => kind = .namespaceDecl
  | .cls _, kind => kind = .classDecl ∨ kind = .unionDecl
  | .enumeration _, kind => kind = .enumDecl
  | .enumerator _, kind => kind = .enumerator
  | .callable _, kind => kind.isCallable
  | .var _, kind => kind = .variableDecl
  | .typedef _, kind => kind = .typedef

namespace Declaration

def Fitting (x : Declaration) : Prop := x.details.Fits x.kind

/-- `y` is the entity `x`, perhaps with more members. -/
structure Grows (x y : Declaration) : Prop where
  id : y.id = x.id
  kind : y.kind = x.kind
  name : y.name = x.name
  unit : y.unit = x.unit
  externalId : y.externalId = x.externalId
  parent : y.parent = x.parent
  access : y.access = x.access
  anonymous : y.anonymous = x.anonymous
  members : x.members <+: y.members
  fitting : x.Fitting → y.Fitting

variable {x y z : Declaration}

theorem Grows.refl (x : Declaration) : x.Grows x :=
  ⟨rfl, rfl, rfl, rfl, rfl, rfl, rfl, rfl, List.prefix_rfl, fun h ↦ h⟩

theorem Grows.trans (h : x.Grows y) (h' : y.Grows z) : x.Grows z where
  id := h'.id.trans h.id
  kind := h'.kind.trans h.kind
  name := h'.name.trans h.name
  unit := h'.unit.trans h.unit
  externalId := h'.externalId.trans h.externalId
  parent := h'.parent.trans h.parent
  access := h'.access.trans h.access
  anonymous := h'.anonymous.trans h.anonymous
  members := h.members.trans h'.members
  fitting := fun hx ↦ h'.fitting (h.fitting hx)

theorem members_withMembers (h : x.Fitting) (hs : x.kind.isScope) (members : List DeclId) :
    (x.withMembers members).members = members := by
  rcases x with ⟨_, kind, _, _, _, _, _, _, _, details⟩
  cases details <;> simp_all [Fitting, Details.Fits, Declaration.members, withMembers,
    Details.withMembers, DeclKind.isScope]
  -- callables have several kinds, none of which is a scope
  cases kind <;> simp_all [DeclKind.isCallable]

theorem fitting_withMembers (h : x.Fitting) (members : List DeclId) :
    (x.withMembers members).Fitting := by
  rcases x with ⟨_, _, _, _, _, _, _, _, _, details⟩
  cases details <;> exact h

theorem members_addMember (h : x.Fitting) (hs : x.kind.isScope) (m : DeclId) :
    (x.addMember m).members = x.members ++ [m] :=
  members_withMembers h hs _

theorem members_prefix_addMember (x : Declaration) (m : DeclId) :
    x.members <+: (x.addMember m).members := by
  rcases x with ⟨_, _, _, _, _, _, _, _, _, details⟩
  cases details <;> simp [Declaration.members, addMember, withMembers, Details.withMembers]

theorem grows_addMember (x : Declaration) (m : DeclId) : x.Grows (x.addMember m) :=
  ⟨rfl, rfl, rfl, rfl, rfl, rfl, rfl, rfl, members_prefix_addMember x m,
    fun h ↦ fitting_withMembers h _⟩

@[simp] theorem members_absorb (x y : Declaration) : (x.absorb y).members = x.members := by
  rw [absorb]
  split
  next k s hk hs =>
    simp only [Declaration.members, hk, ClassDetails.absorb]
    split <;> rfl
  next => rfl

theorem isComplete_absorb (k s : ClassDetails) :
    (k.absorb s).isComplete = (k.isComplete || s.isComplete) := by
  unfold ClassDetails.absorb
  split
  next h =>
    have hs : s.isComplete = true := by
      rw [ClassDetails.isDefinedBy, Bool.and_eq_true] at h
      exact h.2
    simp [hs]
  next h =>
    cases hk : k.isComplete <;> cases hs : s.isComplete <;>
      simp_all [ClassDetails.isDefinedBy]

theorem grows_absorb (x y : Declaration) : x.Grows (x.absorb y) := by
  have hm : x.members <+: (x.absorb y).members := by simp
  rw [absorb] at hm ⊢
  split at hm
  next k s hk hs =>
    refine ⟨rfl, rfl, rfl, rfl, rfl, rfl, rfl, rfl, hm, fun h ↦ ?_⟩
    simpa only [Fitting, hk, Details.Fits] using h
  next => exact ⟨rfl, rfl, rfl, rfl, rfl, rfl, rfl, rfl, hm, fun h ↦ h⟩

@[simp] theorem members_withAliases (x : Declaration) (aliases : List DeclId) :
    (x.withAliases aliases).members = x.members := by
  rcases x with ⟨_, _, _, _, _, _, _, _, _, details⟩
  cases details <;> rfl

theorem grows_withAliases (x : Declaration) (aliases : List DeclId) :
    x.Grows (x.withAliases aliases) := by
  refine ⟨rfl, rfl, rfl, rfl, rfl, rfl, rfl, rfl, by simp, fun h ↦ ?_⟩
  rcases x with ⟨_, _, _, _, _, _, _, _, _, details⟩
  cases details <;> exact h

end Declaration

namespace Renaming

variable (r : Renaming) (d : DeclId) (x : Declaration)

@[simp] theorem members_declaration : (r.declaration d x).members = [] := by
  rcases x with ⟨_, _, _, _, _, _, _, _, _, details⟩
  cases details <;> rfl

theorem fitting_declaration (h : x.Fitting) : (r.declaration d x).Fitting := by
  rcases x with ⟨_, _, _, _, _, _, _, _, _, details⟩
  cases details <;> exact h

end Renaming

end ScopeForest
