import ScopeForest.Proofs.Matcher.Ancestors
import ScopeForest.Proofs.Types.Equality
import ScopeForest.Proofs.Types.Spelling

namespace ScopeForest

open Outcome

mutual

def Matcher.comparedTypes : Matcher → List TypeId
  | .typeMatches type | .returnType type | .hasParameter type => type.comparedTypes
  | .hasBaseClass m | .parentIs m | .neg m => m.comparedTypes
  | .conj ms | .disj ms => Matcher.allComparedTypes ms
  | _ => []

def Matcher.allComparedTypes : List Matcher → List TypeId
  | [] => []
  | m :: ms => m.comparedTypes ++ Matcher.allComparedTypes ms

def TypeMatcher.comparedTypes : TypeMatcher → List TypeId
  | .equalTo t => [t]
  | .declared m => m.comparedTypes
  | .pointerTo m | .referenceTo m | .arrayOf m | .const m | .volatile m | .neg m => m.comparedTypes
  | .conj ms | .disj ms => TypeMatcher.allComparedTypes ms
  | _ => []

def TypeMatcher.allComparedTypes : List TypeMatcher → List TypeId
  | [] => []
  | m :: ms => m.comparedTypes ++ TypeMatcher.allComparedTypes ms

end

theorem Outcome.Returns.recover {α : Type} {x : Outcome α} (h : Returns x) :
    Returns x.recover := by
  obtain ⟨a, ha⟩ := h
  exact ⟨.ok a, by rw [ha]; rfl⟩

namespace Store

variable {s : Store} {d : DeclId} {t : TypeId} {rank : TypeId → Nat}

theorem searchBases_returns (hs : s.Closed) {test : DeclId → Outcome Bool} {x : Declaration}
    (htest : ∀ {d}, s.HoldsDecl d → Returns (test d)) (hx : d.get? s.decls = some x) :
    Returns (s.searchBases test [] (x.bases.map (·.cls))) := by
  obtain ⟨found, hfound, -⟩ := searchBases_bases hx fun c hc ↦
    ⟨hs.derives hc, htest (hs.derives hc)⟩
  exact ⟨found, hfound⟩

section Texts

variable (hs : s.Closed) (hr : s.Ranking s.Involves rank)

include hs hr

theorem carriesName_returns (x : Declaration) (name : String) (hd : s.HoldsDecl d) :
    Returns (s.carriesName d x name) := by
  unfold carriesName
  simp only
  split
  · exact (shownName_returns hs hr hd).bind fun _ ↦ ⟨_, rfl⟩
  · split
    · exact ⟨true, rfl⟩
    · split
      · exact (displayName_returns hs hr hd).bind fun _ ↦ ⟨_, rfl⟩
      · exact ⟨false, rfl⟩

theorem fitsPattern_returns (x : Declaration) (p : NamePattern) (hd : s.HoldsDecl d) :
    Returns (s.fitsPattern d x p) := by
  unfold fitsPattern
  split
  · exact (shownName_returns hs hr hd).bind fun _ ↦ ⟨_, rfl⟩
  · split
    · exact ⟨true, rfl⟩
    · exact (displayName_returns hs hr hd).bind fun _ ↦ ⟨_, rfl⟩

theorem equalTypes_returns {u : TypeId} (ht : s.HoldsType t) (hu : s.HoldsType u) :
    Returns (s.equalTypes t u) := by
  refine (structuralEquals_returns hs.linked hr.expands ht hu).recover.bind fun same ↦ ?_
  cases same <;> exact ⟨_, rfl⟩

theorem spelledAs_returns (text : String) (ht : s.HoldsType t) : Returns (s.spelledAs t text) := by
  refine (spell_returns hs hr true ht).recover.bind fun spelling ↦ ?_
  cases spelling <;> exact ⟨_, rfl⟩

end Texts

end Store

section Mentioned

variable {x : Declaration} {t : TypeId}

theorem mem_types_of_valueType? (h : x.valueType? = some t) : t ∈ x.details.types := by
  rcases x with ⟨_, _, _, _, _, _, _, _, _, details⟩
  cases details with
  | var v =>
    cases h
    exact List.mem_singleton_self _
  | typedef u =>
    cases h
    exact List.mem_singleton_self _
  | callable c =>
    have hc : c.returnType = some t := h
    simp [Details.types, hc]
  | _ => cases h

end Mentioned

section Answers

open Store

variable {s : Store} {rank : TypeId → Nat}

mutual

/-- Every matcher gives an answer for every declaration. -/
theorem Matcher.accepts_returns (hs : s.Closed) (hr : s.Ranking s.Involves rank) (m : Matcher)
    (hm : ∀ t ∈ m.comparedTypes, s.HoldsType t) {d : DeclId} (hd : s.HoldsDecl d) :
    Returns (m.accepts s d) := by
  obtain ⟨x, hx⟩ := id hd
  rw [Matcher.accepts]
  refine returns_bind (decl_of_get? hx) ?_
  cases m with
  | nameEquals name => exact carriesName_returns hs hr x name hd
  | nameMatches p => exact fitsPattern_returns hs hr x p hd
  | qualifiedNameEquals name => exact (shownName_returns hs hr hd).bind fun _ ↦ ⟨_, rfl⟩
  | typeMatches type =>
    cases ht : x.valueType? with
    | none => exact ⟨false, rfl⟩
    | some t =>
      exact TypeMatcher.accepts_returns hs hr type hm {} (hs.type hx (mem_types_of_valueType? ht))
  | returnType type =>
    cases ht : x.callableDetails?.bind (·.returnType) with
    | none => exact ⟨false, rfl⟩
    | some t =>
      obtain ⟨c, hc, hreturn⟩ := Option.bind_eq_some_iff.mp ht
      have hmem : t ∈ x.details.types := by
        simp [Store.types_of_callableDetails? hc, hreturn]
      exact TypeMatcher.accepts_returns hs hr type hm {} (hs.type hx hmem)
  | hasParameter type =>
    cases hc : x.callableDetails? with
    | none => exact ⟨false, rfl⟩
    | some c =>
      refine ⟨_, any_eq_of_forall fun p hp ↦ Returns.eq_holds ?_⟩
      have hmem : p.type ∈ x.details.types := by
        rw [Store.types_of_callableDetails? hc]
        exact List.mem_append_right _ (List.mem_map_of_mem hp)
      exact TypeMatcher.accepts_returns hs hr type hm {} (hs.type hx hmem)
  | hasBaseClass base =>
    exact searchBases_returns hs (fun he ↦ Matcher.accepts_returns hs hr base hm he) hx
  | parentIs parent =>
    cases hp : x.parent with
    | none => exact ⟨false, rfl⟩
    | some p => exact Matcher.accepts_returns hs hr parent hm (hs.parent hx hp)
  | conj all => exact Matcher.acceptsAll_returns hs hr all hm hd
  | disj any => exact Matcher.acceptsAny_returns hs hr any hm hd
  | neg m => exact (Matcher.accepts_returns hs hr m hm hd).bind fun _ ↦ ⟨_, rfl⟩
  | _ => exact ⟨_, rfl⟩

theorem Matcher.acceptsAll_returns (hs : s.Closed) (hr : s.Ranking s.Involves rank)
    (ms : List Matcher) (hms : ∀ t ∈ Matcher.allComparedTypes ms, s.HoldsType t) {d : DeclId}
    (hd : s.HoldsDecl d) : Returns (Matcher.acceptsAll s ms d) := by
  cases ms with
  | nil => exact ⟨true, rfl⟩
  | cons m ms =>
    have hhead := Matcher.accepts_returns hs hr m (fun t ht ↦ hms t (List.mem_append_left _ ht)) hd
    refine hhead.bind fun found ↦ ?_
    split
    · exact Matcher.acceptsAll_returns hs hr ms (fun t ht ↦ hms t (List.mem_append_right _ ht)) hd
    · exact ⟨false, rfl⟩

theorem Matcher.acceptsAny_returns (hs : s.Closed) (hr : s.Ranking s.Involves rank)
    (ms : List Matcher) (hms : ∀ t ∈ Matcher.allComparedTypes ms, s.HoldsType t) {d : DeclId}
    (hd : s.HoldsDecl d) : Returns (Matcher.acceptsAny s ms d) := by
  cases ms with
  | nil => exact ⟨false, rfl⟩
  | cons m ms =>
    have hhead := Matcher.accepts_returns hs hr m (fun t ht ↦ hms t (List.mem_append_left _ ht)) hd
    refine hhead.bind fun found ↦ ?_
    split
    · exact ⟨true, rfl⟩
    · exact Matcher.acceptsAny_returns hs hr ms (fun t ht ↦ hms t (List.mem_append_right _ ht)) hd

theorem TypeMatcher.accepts_returns (hs : s.Closed) (hr : s.Ranking s.Involves rank)
    (m : TypeMatcher) (hm : ∀ t ∈ m.comparedTypes, s.HoldsType t) (used : Qualifiers) {t : TypeId}
    (ht : s.HoldsType t) : Returns (m.accepts s used t) := by
  obtain ⟨head, q, hview, hreach⟩ := view_returns hs.linked hr.expands ht
  obtain ⟨node, hnode⟩ := hreach.held
  have hty := ty_of_get? hnode
  rw [TypeMatcher.accepts]
  refine returns_bind hview ?_
  cases m with
  | any => exact ⟨true, rfl⟩
  | fundamental expected =>
    refine returns_bind hty ?_
    cases node <;> exact ⟨_, rfl⟩
  | void => exact returns_bind hty ⟨_, rfl⟩
  | pointerTo target =>
    refine returns_bind hty ?_
    cases node with
    | pointer u =>
      exact TypeMatcher.accepts_returns hs hr target hm {} (hs.child hnode List.mem_cons_self)
    | _ => exact ⟨false, rfl⟩
  | referenceTo target =>
    refine returns_bind hty ?_
    cases node with
    | reference u =>
      exact TypeMatcher.accepts_returns hs hr target hm {} (hs.child hnode List.mem_cons_self)
    | _ => exact ⟨false, rfl⟩
  | arrayOf element =>
    refine returns_bind hty ?_
    cases node with
    | array u size =>
      exact TypeMatcher.accepts_returns hs hr element hm {} (hs.child hnode List.mem_cons_self)
    | _ => exact ⟨false, rfl⟩
  | const inner =>
    simp only
    split
    · exact TypeMatcher.accepts_returns hs hr inner hm _ ht
    · exact ⟨false, rfl⟩
  | volatile inner =>
    simp only
    split
    · exact TypeMatcher.accepts_returns hs hr inner hm _ ht
    · exact ⟨false, rfl⟩
  | declared decl =>
    refine returns_bind hty ?_
    cases node with
    | declared d => exact Matcher.accepts_returns hs hr decl hm (hs.owner hnode rfl)
    | instantiation template args =>
      exact Matcher.accepts_returns hs hr decl hm (hs.owner hnode rfl)
    | _ => exact ⟨false, rfl⟩
  | equalTo u => exact equalTypes_returns hs hr ht (hm u (List.mem_singleton_self u))
  | spelled text => exact spelledAs_returns hs hr text ht
  | conj all => exact TypeMatcher.acceptsAll_returns hs hr all hm used ht
  | disj any => exact TypeMatcher.acceptsAny_returns hs hr any hm used ht
  | neg m => exact (TypeMatcher.accepts_returns hs hr m hm used ht).bind fun _ ↦ ⟨_, rfl⟩

theorem TypeMatcher.acceptsAll_returns (hs : s.Closed) (hr : s.Ranking s.Involves rank)
    (ms : List TypeMatcher) (hms : ∀ t ∈ TypeMatcher.allComparedTypes ms, s.HoldsType t)
    (used : Qualifiers) {t : TypeId} (ht : s.HoldsType t) :
    Returns (TypeMatcher.acceptsAll s ms used t) := by
  cases ms with
  | nil => exact ⟨true, rfl⟩
  | cons m ms =>
    have hhead := TypeMatcher.accepts_returns hs hr m
      (fun t ht ↦ hms t (List.mem_append_left _ ht)) used ht
    refine hhead.bind fun found ↦ ?_
    split
    · exact TypeMatcher.acceptsAll_returns hs hr ms
        (fun t ht ↦ hms t (List.mem_append_right _ ht)) used ht
    · exact ⟨false, rfl⟩

theorem TypeMatcher.acceptsAny_returns (hs : s.Closed) (hr : s.Ranking s.Involves rank)
    (ms : List TypeMatcher) (hms : ∀ t ∈ TypeMatcher.allComparedTypes ms, s.HoldsType t)
    (used : Qualifiers) {t : TypeId} (ht : s.HoldsType t) :
    Returns (TypeMatcher.acceptsAny s ms used t) := by
  cases ms with
  | nil => exact ⟨false, rfl⟩
  | cons m ms =>
    have hhead := TypeMatcher.accepts_returns hs hr m
      (fun t ht ↦ hms t (List.mem_append_left _ ht)) used ht
    refine hhead.bind fun found ↦ ?_
    split
    · exact ⟨true, rfl⟩
    · exact TypeMatcher.acceptsAny_returns hs hr ms
        (fun t ht ↦ hms t (List.mem_append_right _ ht)) used ht

end

end Answers

end ScopeForest
