import ScopeForest.Proofs.Text.Segment
import ScopeForest.Proofs.Types.Spelling
import ScopeForest.Matcher.Acceptance

namespace ScopeForest

namespace Store

variable {s : Store} {spell : Speller} {d : DeclId} {x : Declaration} {name : String}

/-- A declaration that is named, on a path whose names can be told apart. -/
def Shows (s : Store) (d : DeclId) : Prop :=
  ∃ x path, d.get? s.decls = some x ∧ x.isAnonymous = false ∧ s.qualifiedPath d = .ok path ∧
    Text.Separable path

theorem nameWith_eq_ok (hd : d.get? s.decls = some x) (h : s.nameWith spell d = .ok name)
    (hname : '<' ∉ name.toList) : name = x.name := by
  rw [nameWith, decl_of_get? hd] at h
  obtain ⟨y, hy, h⟩ := Outcome.bind_eq_ok h
  cases hy
  cases ht : x.instantiates? with
  | none =>
    rw [ht] at h
    cases h
    rfl
  | some t =>
    rw [ht] at h
    obtain ⟨node, -, h⟩ := Outcome.bind_eq_ok h
    cases node with
    | instantiation template args =>
      obtain ⟨y, -, h⟩ := Outcome.bind_eq_ok h
      obtain ⟨text, -, h⟩ := Outcome.bind_eq_ok h
      cases h
      exact absurd (by simp) hname
    | _ =>
      cases h
      rfl

theorem pathAux_eq_ok {fuel : Nat} {below path : List String}
    (h : s.pathAux spell fuel d below = .ok path) : ∃ front, path = front ++ below := by
  induction fuel generalizing d below with
  | zero => cases h
  | succ fuel ih =>
    obtain ⟨x, -, h⟩ := Outcome.bind_eq_ok h
    cases hp : x.parent with
    | none =>
      rw [hp] at h
      cases h
      exact ⟨[], rfl⟩
    | some p =>
      rw [hp] at h
      simp only at h
      split at h
      · exact ih h
      · obtain ⟨name, -, h⟩ := Outcome.bind_eq_ok h
        obtain ⟨front, rfl⟩ := ih h
        exact ⟨front ++ [name], by rw [List.append_assoc]; rfl⟩

theorem qualifiedPath_eq_ok (hd : d.get? s.decls = some x) (hnamed : x.isAnonymous = false)
    {path : List String} (h : s.qualifiedPath d = .ok path) :
    path = [] ∨ ∃ front name, path = front ++ [name] ∧ s.declName d = .ok name := by
  obtain ⟨y, hy, h⟩ := Outcome.bind_eq_ok h
  cases (decl_of_get? hd).symm.trans hy
  cases hp : x.parent with
  | none =>
    rw [hp] at h
    cases h
    exact .inl rfl
  | some p =>
    rw [hp] at h
    simp only [hnamed] at h
    obtain ⟨name, hname, h⟩ := Outcome.bind_eq_ok h
    obtain ⟨front, rfl⟩ := pathAux_eq_ok h
    exact .inr ⟨front, name, rfl, hname⟩

end Store

variable {s : Store} {d : DeclId} {x : Declaration} {name hint : String}

theorem Matcher.simpleName?_eq_some (h : Matcher.simpleName? name = some hint) :
    hint = Text.lastSegment (Text.dropRoot name) ∧ hint ≠ "" ∧ '<' ∉ hint.toList := by
  rw [Text.lastSegment_dropRoot]
  unfold simpleName? at h
  simp only at h
  split at h
  next => cases h
  next hne =>
    cases h
    rw [not_or] at hne
    exact ⟨rfl, hne.1, by simpa using hne.2⟩

theorem Store.Shows.name_eq (h : s.Shows d) (hd : d.get? s.decls = some x)
    (hshown : s.shownName d = .ok (Text.dropRoot name))
    (hhint : Matcher.simpleName? name = some hint) : x.name = hint := by
  obtain ⟨y, path, hy, hnamed, hpath, hseparable⟩ := h
  cases hd.symm.trans hy
  obtain ⟨hsegment, hne, hangle⟩ := Matcher.simpleName?_eq_some hhint
  rw [shownName_of_qualifiedPath hpath] at hshown
  rw [← Except.ok.inj hshown] at hsegment
  obtain rfl | ⟨front, last, rfl, hlast⟩ := qualifiedPath_eq_ok hd hnamed hpath
  · -- the root has an empty path, and no hint is empty
    exact absurd hsegment hne
  · rw [Text.lastSegment_intercalate hseparable] at hsegment
    subst hsegment
    exact (nameWith_eq_ok hd hlast hangle).symm

theorem Store.Shows.name_of_carriesName (h : s.Shows d) (hd : d.get? s.decls = some x)
    (hcarries : s.carriesName d x name = .ok true)
    (hhint : Matcher.simpleName? name = some hint) : x.name = hint := by
  unfold carriesName at hcarries
  simp only at hcarries
  split at hcarries
  next =>
    obtain ⟨shown, hshown, heq⟩ := Outcome.bind_eq_ok hcarries
    rw [beq_iff_eq.mp (Except.ok.inj heq)] at hshown
    exact h.name_eq hd hshown hhint
  next hsingle =>
    -- the name is its own last segment, and so it has no brackets
    obtain ⟨hsegment, -, hangle⟩ := Matcher.simpleName?_eq_some hhint
    have hwhole : hint = Text.dropRoot name := by
      rw [hsegment, Text.lastSegment, Option.not_isSome_iff_eq_none.mp hsingle]
      rfl
    split at hcarries
    next heq => exact heq.trans hwhole.symm
    next =>
      split at hcarries
      next hbracket =>
        rw [← hwhole] at hbracket
        exact absurd (by simpa using hbracket.1) hangle
      next => cases hcarries

mutual

/-- A declaration that is accepted carries the name that the matcher pins, if it shows its name. -/
theorem Matcher.name_of_accepts (hd : d.get? s.decls = some x) (hshows : s.Shows d) (m : Matcher)
    (h : m.accepts s d = .ok true) (hhint : m.nameHint? = some hint) : x.name = hint := by
  rw [Matcher.accepts] at h
  obtain ⟨y, hy, h⟩ := Outcome.bind_eq_ok h
  cases (Store.decl_of_get? hd).symm.trans hy
  cases m with
  | nameEquals name => exact hshows.name_of_carriesName hd h hhint
  | qualifiedNameEquals name =>
    obtain ⟨shown, hshown, heq⟩ := Outcome.bind_eq_ok h
    rw [beq_iff_eq.mp (Except.ok.inj heq)] at hshown
    exact hshows.name_eq hd hshown hhint
  | conj all => exact Matcher.name_of_acceptsAll hd hshows all h hhint
  | _ => cases hhint

theorem Matcher.name_of_acceptsAll (hd : d.get? s.decls = some x) (hshows : s.Shows d)
    (ms : List Matcher) (h : Matcher.acceptsAll s ms d = .ok true)
    (hhint : Matcher.firstHint? ms = some hint) : x.name = hint := by
  cases ms with
  | nil => cases hhint
  | cons m ms =>
    obtain ⟨accepted, haccepted, h⟩ := Outcome.bind_eq_ok h
    cases accepted with
    | false => cases h
    | true =>
      rw [Matcher.firstHint?] at hhint
      cases hhead : m.nameHint? with
      | none =>
        rw [hhead] at hhint
        exact Matcher.name_of_acceptsAll hd hshows ms h hhint
      | some first =>
        rw [hhead] at hhint
        exact Matcher.name_of_accepts hd hshows m haccepted (hhead.trans hhint)

end

end ScopeForest
