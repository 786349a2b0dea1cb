import ScopeForest.Proofs.Forest.Run
import ScopeForest.Proofs.Matcher.Hint

namespace ScopeForest

namespace Text

variable {name : String}

theorem dropRoot_append (rest : String) : dropRoot ("::" ++ rest) = rest := by
  have hchars : ("::" ++ rest).toList = ':' :: ':' :: rest.toList := by simp
  rw [dropRoot, hchars]
  exact String.ofList_toList

theorem dropRoot_cases (name : String) : (∃ rest, name = "::" ++ rest) ∨ dropRoot name = name := by
  unfold dropRoot
  split
  next cs hcs => exact .inl ⟨String.ofList cs, String.toList_inj.mp (by simp [hcs])⟩
  next => exact .inr rfl

theorem isSome_lastSegmentStart? :
    (lastSegmentStart? name).isSome = (lastSegment? name).isSome := by
  rw [lastSegmentStart?_eq, Option.isSome_map]

/-- A qualified name stays qualified without the separator in front, unless nothing but a single
segment is left. -/
theorem isSome_lastSegment?_dropRoot (h : (lastSegment? name).isSome)
    (hseveral : ∀ simple, Unbroken simple → name ≠ "::" ++ simple) :
    (lastSegment? (dropRoot name)).isSome := by
  rcases dropRoot_cases name with ⟨rest, rfl⟩ | heq
  · rw [dropRoot_append, Option.isSome_iff_ne_none]
    exact fun hnone ↦ hseveral rest (unbroken_iff.mpr hnone) rfl
  · rwa [heq]

end Text

namespace Store

variable {s : Store} {d : DeclId} {x : Declaration} {name simple : String}

/-- A declaration with a name of its own that stands directly in the root scope and specializes no
template. -/
structure AtTop (s : Store) (d : DeclId) (x : Declaration) : Prop where
  held : d.get? s.decls = some x
  named : x.isAnonymous = false
  plain : x.instantiates? = none
  top : ∃ p y, x.parent = some p ∧ p.get? s.decls = some y ∧ y.parent = none

theorem AtTop.nameWith (h : s.AtTop d x) (spell : Speller) :
    s.nameWith spell d = .ok x.name := by
  rw [Store.nameWith, Outcome.bind_of_eq_ok (decl_of_get? h.held), h.plain]
  rfl

theorem AtTop.qualifiedPath (h : s.AtTop d x) : s.qualifiedPath d = .ok [x.name] := by
  obtain ⟨p, y, hp, hy, htop⟩ := h.top
  -- there is fuel for two steps, since the root is held
  obtain ⟨n, hn⟩ := Nat.exists_eq_add_one.mpr (List.length_pos_of_mem (Id.mem_of_get? hy))
  have hroot : s.pathAux s.spell (n + 1) p [x.name] = .ok [x.name] := by
    rw [pathAux, Outcome.bind_of_eq_ok (decl_of_get? hy), htop]
    rfl
  rw [Store.qualifiedPath, pathWith, hn, pathAux, Outcome.bind_of_eq_ok (decl_of_get? h.held), hp]
  simp only [h.named, Bool.false_eq_true, if_false]
  rw [Outcome.bind_of_eq_ok (h.nameWith s.spell), hroot]

theorem AtTop.shownName (h : s.AtTop d x) : s.shownName d = .ok x.name := by
  rw [shownName_of_qualifiedPath h.qualifiedPath, String.intercalate_singleton]

theorem accepts_qualifiedNameEquals (hd : d.get? s.decls = some x) :
    (Matcher.qualifiedNameEquals name).accepts s d =
      (do return (← s.shownName d) == Text.dropRoot name) := by
  rw [Matcher.accepts, decl_of_get? hd]
  rfl

theorem accepts_nameEquals (hd : d.get? s.decls = some x) :
    (Matcher.nameEquals name).accepts s d = s.carriesName d x name := by
  rw [Matcher.accepts, decl_of_get? hd]
  rfl

theorem carriesName_of_isSome (h : (Text.lastSegment? (Text.dropRoot name)).isSome) :
    s.carriesName d x name = (do return (← s.shownName d) == Text.dropRoot name) := by
  rw [carriesName]
  exact if_pos h

/-- An absolute name of one segment fits wherever it is the stored name, in inner scopes too. -/
theorem carriesName_of_name_eq (hsimple : Text.Unbroken simple) (hname : x.name = simple) :
    s.carriesName d x ("::" ++ simple) = .ok true := by
  rw [Store.carriesName]
  simp only [Text.dropRoot_append, Text.unbroken_iff.mp hsimple, Option.isSome_none,
    Bool.false_eq_true, if_false]
  exact if_pos hname

theorem AtTop.carriesName (h : s.AtTop d x) (hsimple : Text.Unbroken simple) :
    s.carriesName d x ("::" ++ simple) = .ok (x.name == simple) := by
  by_cases hname : x.name = simple
  · rw [carriesName_of_name_eq hsimple hname, beq_iff_eq.mpr hname]
  · rw [Store.carriesName, beq_eq_false_iff_ne.mpr hname]
    simp only [Text.dropRoot_append, Text.unbroken_iff.mp hsimple, h.plain, Option.isSome_none,
      Bool.false_eq_true, and_false, if_false]
    exact if_neg hname

/-- For names with a separator outside brackets it makes no difference which of the two matchers is
asked, unless the name is a single segment behind a separator; and then it makes none for what is
declared at the top. -/
theorem comparesQualified (s : Store) (d : DeclId) (name : String)
    (h : (Text.lastSegmentStart? name).isSome) :
    ((∀ simple, Text.Unbroken simple → name ≠ "::" ++ simple) →
      (Matcher.nameEquals name).accepts s d = (Matcher.qualifiedNameEquals name).accepts s d) ∧
    ∀ simple x, Text.Unbroken simple → name = "::" ++ simple → s.AtTop d x →
      (Matcher.nameEquals name).accepts s d = (Matcher.qualifiedNameEquals name).accepts s d := by
  rw [Text.isSome_lastSegmentStart?] at h
  constructor
  · intro hseveral
    cases hd : d.get? s.decls with
    | none =>
      have hfault : s.decl d = Outcome.fault (.noDecl d) := by rw [decl, hd]
      rw [Matcher.accepts, Matcher.accepts, hfault]
      rfl
    | some x =>
      rw [accepts_nameEquals hd, accepts_qualifiedNameEquals hd]
      exact carriesName_of_isSome (Text.isSome_lastSegment?_dropRoot h hseveral)
  · rintro simple x hsimple rfl hx
    rw [accepts_nameEquals hx.held, accepts_qualifiedNameEquals hx.held, hx.carriesName hsimple,
      hx.shownName, Text.dropRoot_append]
    rfl

end Store

def Sample.inner : List Record := Sample.header.take 3

/-- The class inside the namespace is found by either matcher, and so is the namespace at the top
by its absolute name. -/
theorem comparesQualified_sample : ∃ f, Run [Sample.inner] false f ∧
    (Text.lastSegmentStart? "a::s").isSome ∧ (Text.lastSegmentStart? "::a").isSome ∧
    (Matcher.nameEquals "a::s").accepts f.freeze.store ⟨3⟩ = .ok true ∧
    (Matcher.qualifiedNameEquals "a::s").accepts f.freeze.store ⟨3⟩ = .ok true ∧
    (∃ x, f.freeze.store.AtTop ⟨2⟩ x) ∧ (Matcher.nameEquals "::a").accepts f.freeze.store ⟨2⟩ =
      (Matcher.qualifiedNameEquals "::a").accepts f.freeze.store ⟨2⟩ := by
  have h : (fun f : Forest ↦ ((Matcher.qualifiedNameEquals "a::s").accepts f.freeze.store ⟨3⟩,
      f.freeze.store.decls.map fun x ↦ (x.isAnonymous, x.instantiates?, x.parent))) <$>
      Forest.ofUnits {} [Sample.inner] = .ok (.ok true,
        [(false, none, none), (false, none, some ⟨1⟩), (false, none, some ⟨2⟩)]) := by
    cbv
  obtain ⟨f, hf, heq⟩ := Outcome.map_eq_ok h
  obtain ⟨hqualified, hdecls⟩ := Prod.mk.inj heq
  have hdecl {i : DeclId} {seen : Bool × Option TypeId × Option DeclId}
      (hi : i.get? (f.freeze.store.decls.map fun x ↦ (x.isAnonymous, x.instantiates?, x.parent)) =
        some seen) : ∃ x, i.get? f.freeze.store.decls = some x ∧
          (x.isAnonymous, x.instantiates?, x.parent) = seen := by
    rw [Id.get?_map] at hi
    exact Option.map_eq_some_iff.mp hi
  obtain ⟨root, hroot, hseen⟩ := hdecl (i := ⟨1⟩) (by rw [hdecls]; rfl)
  obtain ⟨x, hx, hseen'⟩ := hdecl (i := ⟨2⟩) (by rw [hdecls]; rfl)
  simp only [Prod.mk.injEq] at hseen hseen'
  have htop : f.freeze.store.AtTop ⟨2⟩ x :=
    ⟨hx, hseen'.1, hseen'.2.1, _, root, hseen'.2.2, hroot, hseen.2.2⟩
  have hsimple : Text.Unbroken "a" := Text.unbroken_iff.mpr (by decide)
  have habsolute : ∀ simple, Text.Unbroken simple → "a::s" ≠ "::" ++ simple := by
    intro simple _ heq
    have hhead := congrArg (fun name : String ↦ name.toList.head?) heq
    simp at hhead
  have hstart : (Text.lastSegmentStart? "a::s").isSome := by decide
  have hstart' : (Text.lastSegmentStart? "::a").isSome := by decide
  have hinner := (Store.comparesQualified f.freeze.store ⟨3⟩ "a::s" hstart).1 habsolute
  have houter := (Store.comparesQualified f.freeze.store ⟨2⟩ "::a" hstart').2 "a" x hsimple rfl htop
  exact ⟨f, Run.ofUnits hf, hstart, hstart', hinner.trans hqualified, hqualified, ⟨x, htop⟩, houter⟩

/-- An absolute name of one segment fits a class in a namespace, whose qualified name it is not. -/
theorem nameEquals_fits_inner : ∃ f, Run [Sample.inner] false f ∧
    (Text.lastSegmentStart? "::s").isSome ∧
    (Matcher.nameEquals "::s").accepts f.freeze.store ⟨3⟩ = .ok true ∧
    (Matcher.qualifiedNameEquals "::s").accepts f.freeze.store ⟨3⟩ = .ok false := by
  have h : (fun f : Forest ↦ ((Matcher.qualifiedNameEquals "::s").accepts f.freeze.store ⟨3⟩,
      f.freeze.store.decls.map (·.name))) <$>
      Forest.ofUnits {} [Sample.inner] = .ok (.ok false, ["::", "a", "s"]) := by
    cbv
  obtain ⟨f, hf, heq⟩ := Outcome.map_eq_ok h
  obtain ⟨hqualified, hnames⟩ := Prod.mk.inj heq
  have hget : ((⟨3⟩ : DeclId).get? f.freeze.store.decls).map (·.name) = some "s" := by
    rw [← Id.get?_map, hnames]
    rfl
  obtain ⟨x, hx, hname⟩ := Option.map_eq_some_iff.mp hget
  have hsimple : Text.Unbroken "s" := Text.unbroken_iff.mpr (by decide)
  have hjoined : "::s" = "::" ++ "s" := by decide
  have hfits : (Matcher.nameEquals "::s").accepts f.freeze.store ⟨3⟩ = .ok true := by
    rw [Store.accepts_nameEquals hx, hjoined, Store.carriesName_of_name_eq hsimple hname]
  exact ⟨f, Run.ofUnits hf, by decide, hfits, hqualified⟩

end ScopeForest
