import ScopeForest.Proofs.Types.Unnamed

namespace ScopeForest

def isNameChar (c : Char) : Bool := c.isAlphanum || c == '_' || c == ':'

structure QualifiedName where
  chars : List Char
  nonempty : chars ≠ []
  forall_mem : ∀ c ∈ chars, isNameChar c = true
  /-- So that a name is told from one with colons after it. -/
  last : chars.getLast? ≠ some ':'
  deriving DecidableEq

inductive Qualifier
  | const
  | volatile
  deriving DecidableEq

def Qualifier.chars : Qualifier → List Char
  | const => ['c', 'o', 'n', 's', 't']
  | volatile => ['v', 'o', 'l', 'a', 't', 'i', 'l', 'e']

theorem Qualifier.chars_injective {q q' : Qualifier} (h : q.chars = q'.chars) : q = q' := by
  cases q <;> cases q' <;> simp_all [chars]

inductive Mark
  | pointer
  | reference
  deriving DecidableEq

def Mark.char : Mark → Char
  | pointer => '*'
  | reference => '&'

theorem Mark.char_injective {m m' : Mark} (h : m.char = m'.char) : m = m' := by
  cases m <;> cases m' <;> simp_all [char]

/-- A pointer or a reference, to a member where there is a class. -/
structure Pointing where
  cls : Option QualifiedName := none
  mark : Mark
  deriving DecidableEq

mutual

inductive Phrase
  | mk (base : QualifiedName) (steps : List Step)

inductive Step
  | qualifier (q : Qualifier)
  | pointing (p : Pointing)
  | array (size : Option Nat)
  /-- A parameter list; a pointer to a function stands in front of it. -/
  | call (via : Option Pointing) (params : List Phrase) (hasEllipsis : Bool)

end

def scopeChars : Option QualifiedName → List Char
  | none => []
  | some n => n.chars ++ [':', ':']

def Pointing.chars (p : Pointing) : List Char := scopeChars p.cls ++ [p.mark.char]

def viaChars : Option Pointing → List Char
  | none => []
  | some p => '(' :: (p.chars ++ [')'])

def sizeChars : Option Nat → List Char
  | none => []
  | some n => (toString n).toList

mutual

def Phrase.chars : Phrase → List Char
  | .mk base steps => base.chars ++ Step.listChars steps

def Step.listChars : List Step → List Char
  | [] => []
  | s :: steps => s.chars ++ Step.listChars steps

def Step.chars : Step → List Char
  | .qualifier q => ' ' :: q.chars
  | .pointing p => ' ' :: p.chars
  | .array size => '[' :: (sizeChars size ++ [']'])
  | .call via params hasEllipsis =>
    ' ' :: (viaChars via ++ '(' :: (Phrase.paramChars hasEllipsis params ++ [')']))

def Phrase.paramChars (hasEllipsis : Bool) : List Phrase → List Char
  | [] => if hasEllipsis then ['.', '.', '.'] else []
  | p :: params => p.chars ++ Phrase.restChars hasEllipsis params

def Phrase.restChars (hasEllipsis : Bool) : List Phrase → List Char
  | [] => if hasEllipsis then [',', ' ', '.', '.', '.'] else []
  | p :: params => ',' :: ' ' :: (p.chars ++ Phrase.restChars hasEllipsis params)

end

def Step.params : Step → List Phrase
  | .call _ params _ => params
  | _ => []

def Stops (r : List Char) : Prop := ∀ c ∈ r.head?, isNameChar c = false

/-- Here the text of a phrase ends, in a parameter list or at all. -/
def Closes (r : List Char) : Prop := ∀ c ∈ r.head?, c = ',' ∨ c = ')'

theorem Closes.stops {r : List Char} (h : Closes r) : Stops r := by
  intro c hc
  rcases h c hc with rfl | rfl <;> rfl

theorem append_inj_of_stops {w w' r r' : List Char} (hw : ∀ c ∈ w, isNameChar c = true)
    (hw' : ∀ c ∈ w', isNameChar c = true) (hr : Stops r) (hr' : Stops r')
    (h : w ++ r = w' ++ r') : w = w' ∧ r = r' := by
  induction w generalizing w' with
  | nil =>
    cases w' with
    | nil => exact ⟨rfl, h⟩
    | cons c w' =>
      have hc := hw' c List.mem_cons_self
      rw [hr c (by rw [← List.nil_append r, h]; rfl)] at hc
      cases hc
  | cons c w ih =>
    cases w' with
    | nil =>
      have hc := hw c List.mem_cons_self
      rw [hr' c (by rw [← List.nil_append r', ← h]; rfl)] at hc
      cases hc
    | cons c' w' =>
      obtain ⟨rfl, htail⟩ := List.cons.inj h
      obtain ⟨rfl, hrest⟩ := ih (fun x hx ↦ hw x (List.mem_cons_of_mem c hx))
        (fun x hx ↦ hw' x (List.mem_cons_of_mem c hx)) htail
      exact ⟨rfl, hrest⟩

theorem QualifiedName.eq_of_chars {n n' : QualifiedName} (h : n.chars = n'.chars) : n = n' := by
  cases n
  cases n'
  cases h
  rfl

theorem forall_mem_scopeChars (cls : Option QualifiedName) :
    ∀ c ∈ scopeChars cls, isNameChar c = true := by
  intro c hc
  cases cls with
  | none => cases hc
  | some n =>
    rcases List.mem_append.mp hc with hc | hc
    · exact n.forall_mem c hc
    · simp only [List.mem_cons, List.not_mem_nil, or_false, or_self] at hc
      rw [hc]
      rfl

theorem scopeChars_injective {cls cls' : Option QualifiedName}
    (h : scopeChars cls = scopeChars cls') : cls = cls' := by
  cases cls with
  | none =>
    cases cls' with
    | none => rfl
    | some n' => simp [scopeChars] at h
  | some n =>
    cases cls' with
    | none => simp [scopeChars] at h
    | some n' => rw [QualifiedName.eq_of_chars (List.append_cancel_right h)]

namespace Pointing

variable {p p' : Pointing} {r r' : List Char}

theorem stops_mark (m : Mark) (r : List Char) : Stops (m.char :: r) := by
  intro c hc
  cases hc
  cases m <;> rfl

theorem chars_append_inj (h : p.chars ++ r = p'.chars ++ r') : p = p' ∧ r = r' := by
  obtain ⟨cls, m⟩ := p
  obtain ⟨cls', m'⟩ := p'
  simp only [chars, List.append_assoc, List.singleton_append] at h
  obtain ⟨hscope, hrest⟩ := append_inj_of_stops (forall_mem_scopeChars cls)
    (forall_mem_scopeChars cls') (stops_mark m r) (stops_mark m' r') h
  obtain ⟨hmark, hr⟩ := List.cons.inj hrest
  rw [scopeChars_injective hscope, Mark.char_injective hmark]
  exact ⟨rfl, hr⟩

/-- A pointer is told from a name by the colons or by the mark. -/
theorem ne_append {w y : List Char} (hw : ∀ c ∈ w, isNameChar c = true)
    (hlast : w.getLast? ≠ some ':') (hy : Stops y)
    (hmark : w = [] → ∀ m : Mark, y.head? ≠ some m.char) (p : Pointing) (r : List Char) :
    w ++ y ≠ p.chars ++ r := by
  intro h
  obtain ⟨cls, m⟩ := p
  simp only [chars, List.append_assoc, List.singleton_append] at h
  obtain ⟨rfl, rfl⟩ := append_inj_of_stops hw (forall_mem_scopeChars cls) hy (stops_mark m r) h
  cases cls with
  | none => exact hmark rfl m rfl
  | some n => exact hlast (by simp [scopeChars])

end Pointing

/-- A phrase is cut off from what follows it in only one way. -/
def Phrase.Cuts (p : Phrase) : Prop :=
  ∀ (p' : Phrase) (r r' : List Char), Closes r → Closes r' → p.chars ++ r = p'.chars ++ r' →
    p = p' ∧ r = r'

theorem Phrase.append_ne_cons (p : Phrase) {c : Char} (hc : isNameChar c = false)
    (r w : List Char) : p.chars ++ r ≠ c :: w := by
  obtain ⟨base, steps⟩ := p
  obtain ⟨b, bs, hbase⟩ := List.exists_cons_of_ne_nil base.nonempty
  have hb : isNameChar b = true := base.forall_mem b (hbase ▸ List.mem_cons_self)
  intro h
  rw [Phrase.chars, hbase] at h
  rw [(List.cons.inj h).1, hc] at hb
  cases hb

theorem Step.exists_head (s : Step) : ∃ c w, s.chars = c :: w ∧ (c = ' ' ∨ c = '[') := by
  cases s with
  | array size => exact ⟨_, _, by rw [Step.chars], .inr rfl⟩
  | _ => exact ⟨_, _, by rw [Step.chars], .inl rfl⟩

theorem stops_listChars (steps : List Step) {r : List Char} (hr : Closes r) :
    Stops (Step.listChars steps ++ r) := by
  cases steps with
  | nil => exact hr.stops
  | cons s steps =>
    obtain ⟨c, w, hs, hc⟩ := s.exists_head
    intro c' hc'
    rw [Step.listChars, hs] at hc'
    cases hc'
    rcases hc with rfl | rfl <;> rfl

section Params

variable {e e' : Bool} {ps ps' : List Phrase} {r r' : List Char}

theorem closes_restChars (e : Bool) (ps : List Phrase) (r : List Char) :
    Closes (Phrase.restChars e ps ++ ')' :: r) := by
  cases ps with
  | nil => cases e <;> simp [Phrase.restChars, Closes]
  | cons p ps => simp [Phrase.restChars, Closes]

theorem restChars_nil_ne (p : Phrase) :
    Phrase.restChars e [] ++ ')' :: r ≠ Phrase.restChars e' (p :: ps) ++ ')' :: r' := by
  intro h
  cases e with
  | false => simp [Phrase.restChars] at h
  | true =>
    simp only [Phrase.restChars, List.cons_append, List.append_assoc, List.cons.injEq, true_and,
      if_pos] at h
    exact p.append_ne_cons rfl _ _ h.symm

theorem paramChars_nil_ne (p : Phrase) :
    Phrase.paramChars e [] ++ ')' :: r ≠ Phrase.paramChars e' (p :: ps) ++ ')' :: r' := by
  intro h
  rw [Phrase.paramChars, Phrase.paramChars, List.append_assoc] at h
  cases e <;> exact p.append_ne_cons rfl _ _ h.symm

theorem restChars_append_inj (h : ∀ p ∈ ps, p.Cuts)
    (heq : Phrase.restChars e ps ++ ')' :: r = Phrase.restChars e' ps' ++ ')' :: r') :
    (ps = ps' ∧ e = e') ∧ r = r' := by
  induction ps generalizing ps' with
  | nil =>
    cases ps' with
    | nil => cases e <;> cases e' <;> simp_all [Phrase.restChars]
    | cons p' ps' => exact absurd heq (restChars_nil_ne p')
  | cons p ps ih =>
    cases ps' with
    | nil => exact absurd heq.symm (restChars_nil_ne p)
    | cons p' ps' =>
      simp only [Phrase.restChars, List.cons_append, List.append_assoc, List.cons.injEq, true_and]
        at heq
      obtain ⟨rfl, hrest⟩ := h p List.mem_cons_self _ _ _ (closes_restChars e ps r)
        (closes_restChars e' ps' r') heq
      obtain ⟨⟨rfl, rfl⟩, hr⟩ := ih (fun q hq ↦ h q (List.mem_cons_of_mem p hq)) hrest
      exact ⟨⟨rfl, rfl⟩, hr⟩

theorem paramChars_append_inj (h : ∀ p ∈ ps, p.Cuts)
    (heq : Phrase.paramChars e ps ++ ')' :: r = Phrase.paramChars e' ps' ++ ')' :: r') :
    (ps = ps' ∧ e = e') ∧ r = r' := by
  cases ps with
  | nil =>
    cases ps' with
    | nil => cases e <;> cases e' <;> simp_all [Phrase.paramChars]
    | cons p' ps' => exact absurd heq (paramChars_nil_ne p')
  | cons p ps =>
    cases ps' with
    | nil => exact absurd heq.symm (paramChars_nil_ne p)
    | cons p' ps' =>
      simp only [Phrase.paramChars, List.append_assoc] at heq
      obtain ⟨rfl, hrest⟩ := h p List.mem_cons_self _ _ _ (closes_restChars e ps r)
        (closes_restChars e' ps' r') heq
      obtain ⟨⟨rfl, rfl⟩, hr⟩ := restChars_append_inj (fun q hq ↦ h q (List.mem_cons_of_mem p hq))
        hrest
      exact ⟨⟨rfl, rfl⟩, hr⟩

theorem paramChars_ne (e : Bool) (ps : List Phrase) (r : List Char) (p : Pointing) (x : List Char) :
    Phrase.paramChars e ps ++ ')' :: r ≠ p.chars ++ x := by
  cases ps with
  | nil =>
    have hend : ∃ c w, Phrase.paramChars e [] ++ ')' :: r = c :: w ∧ (c = '.' ∨ c = ')') := by
      cases e with
      | false => exact ⟨_, _, rfl, .inr rfl⟩
      | true => exact ⟨_, _, rfl, .inl rfl⟩
    obtain ⟨c, w, hcw, hc⟩ := hend
    rw [hcw]
    refine p.ne_append (w := []) (by simp) (by simp) (fun c' hc' ↦ ?_) (fun _ m hm ↦ ?_) x
    · cases hc'
      rcases hc with rfl | rfl <;> rfl
    · cases hm
      cases m <;> rcases hc with hc | hc <;> cases hc
  | cons q ps =>
    obtain ⟨base, steps⟩ := q
    simp only [Phrase.paramChars, Phrase.chars, List.append_assoc]
    exact p.ne_append base.forall_mem base.last (stops_listChars steps (closes_restChars e ps r))
      (fun hbase ↦ absurd hbase base.nonempty) x

theorem exists_viaChars_append (via : Option Pointing) (x : List Char) :
    ∃ y, viaChars via ++ '(' :: x = '(' :: y := by
  cases via with
  | none => exact ⟨_, rfl⟩
  | some p => exact ⟨_, rfl⟩

theorem call_append_inj {via via' : Option Pointing} (h : ∀ p ∈ ps, p.Cuts)
    (heq : viaChars via ++ '(' :: (Phrase.paramChars e ps ++ ')' :: r) =
      viaChars via' ++ '(' :: (Phrase.paramChars e' ps' ++ ')' :: r')) :
    (via = via' ∧ ps = ps' ∧ e = e') ∧ r = r' := by
  cases via with
  | none =>
    cases via' with
    | none =>
      obtain ⟨hps, hr⟩ := paramChars_append_inj h (List.cons.inj heq).2
      exact ⟨⟨rfl, hps⟩, hr⟩
    | some p' =>
      simp only [viaChars, List.nil_append, List.cons_append, List.append_assoc, List.cons.injEq,
        true_and] at heq
      exact absurd heq (paramChars_ne e ps r p' _)
  | some p =>
    cases via' with
    | none =>
      simp only [viaChars, List.nil_append, List.cons_append, List.append_assoc, List.cons.injEq,
        true_and] at heq
      exact absurd heq.symm (paramChars_ne e' ps' r' p _)
    | some p' =>
      simp only [viaChars, List.nil_append, List.cons_append, List.append_assoc, List.cons.injEq,
        true_and] at heq
      obtain ⟨rfl, hrest⟩ := Pointing.chars_append_inj heq
      obtain ⟨hps, hr⟩ := paramChars_append_inj h (List.cons.inj (List.cons.inj hrest).2).2
      exact ⟨⟨rfl, hps⟩, hr⟩

end Params

section Steps

variable {s s' : Step} {steps steps' : List Step} {r r' : List Char}

theorem sizeChars_append_inj {size size' : Option Nat}
    (h : sizeChars size ++ ']' :: r = sizeChars size' ++ ']' :: r') : size = size' ∧ r = r' := by
  have hfree (size : Option Nat) : ']' ∉ sizeChars size := by
    cases size with
    | none => exact List.not_mem_nil
    | some n => exact not_mem_toString rfl n
  have hsize := eq_of_append_cons_eq h (hfree size) (hfree size')
  rw [hsize] at h
  refine ⟨?_, (List.cons.inj (List.append_cancel_left h)).2⟩
  cases size with
  | none =>
    cases size' with
    | none => rfl
    | some n' => simp [sizeChars] at hsize
  | some n =>
    cases size' with
    | none => simp [sizeChars] at hsize
    | some n' => rw [eq_of_toString_eq hsize]

theorem Qualifier.forall_mem (q : Qualifier) : ∀ c ∈ q.chars, isNameChar c = true := by
  apply List.all_eq_true.mp
  cases q <;> rfl

theorem Qualifier.append_ne (q : Qualifier) (hr : Stops r) (p : Pointing) (x : List Char) :
    q.chars ++ r ≠ p.chars ++ x := by
  refine p.ne_append q.forall_mem ?_ hr (fun hnil ↦ ?_) x
  · cases q <;> decide
  · cases q <;> cases hnil

/-- A step is told from every other by what stands behind the blank or the bracket. -/
theorem Step.chars_append_inj (h : ∀ p ∈ s.params, p.Cuts) (hr : Stops r) (hr' : Stops r')
    (heq : s.chars ++ r = s'.chars ++ r') : s = s' ∧ r = r' := by
  have hcall (via : Option Pointing) (x y : List Char) (p : Pointing) :
      viaChars via ++ '(' :: x ≠ p.chars ++ y := by
    obtain ⟨z, hz⟩ := exists_viaChars_append via x
    rw [hz]
    refine p.ne_append (w := []) (by simp) (by simp) ?_ (fun _ m hm ↦ ?_) y
    · simp [Stops, isNameChar]
    · cases m <;> cases hm
  have hword (via : Option Pointing) (x y : List Char) (q : Qualifier) :
      viaChars via ++ '(' :: x ≠ q.chars ++ y := by
    obtain ⟨z, hz⟩ := exists_viaChars_append via x
    rw [hz]
    cases q <;> simp [Qualifier.chars]
  cases s <;> cases s' <;>
    simp only [Step.chars, List.cons_append, List.append_assoc, List.cons.injEq, true_and] at heq
  case qualifier.qualifier q q' =>
    obtain ⟨hq, hrest⟩ := append_inj_of_stops q.forall_mem q'.forall_mem hr hr' heq
    rw [Qualifier.chars_injective hq]
    exact ⟨rfl, hrest⟩
  case pointing.pointing p p' =>
    obtain ⟨rfl, hrest⟩ := Pointing.chars_append_inj heq
    exact ⟨rfl, hrest⟩
  case array.array size size' =>
    obtain ⟨rfl, hrest⟩ := sizeChars_append_inj heq
    exact ⟨rfl, hrest⟩
  case call.call via ps e via' ps' e' =>
    obtain ⟨⟨rfl, rfl, rfl⟩, hrest⟩ := call_append_inj h heq
    exact ⟨rfl, hrest⟩
  case qualifier.pointing q p => exact absurd heq (q.append_ne hr p r')
  case pointing.qualifier p q => exact absurd heq.symm (q.append_ne hr' p r)
  case call.pointing via ps e p => exact absurd heq (hcall via _ r' p)
  case pointing.call p via ps e => exact absurd heq.symm (hcall via _ r p)
  case call.qualifier via ps e q => exact absurd heq (hword via _ r' q)
  case qualifier.call q via ps e => exact absurd heq.symm (hword via _ r q)
  -- a bracket against a blank
  all_goals exact absurd heq.1 (by decide)

theorem listChars_append_inj (h : ∀ s ∈ steps, ∀ p ∈ s.params, p.Cuts) (hr : Closes r)
    (hr' : Closes r') (heq : Step.listChars steps ++ r = Step.listChars steps' ++ r') :
    steps = steps' ∧ r = r' := by
  have hopen (s : Step) (x r : List Char) (hr : Closes r) : r ≠ s.chars ++ x := by
    rintro rfl
    obtain ⟨c, w, hs, hc⟩ := s.exists_head
    have hclose := hr c (by rw [hs]; rfl)
    rcases hc with rfl | rfl <;> rcases hclose with hc | hc <;> cases hc
  induction steps generalizing steps' with
  | nil =>
    cases steps' with
    | nil => exact ⟨rfl, heq⟩
    | cons s' steps' =>
      rw [Step.listChars, Step.listChars, List.append_assoc] at heq
      exact absurd heq (hopen s' _ r hr)
  | cons s steps ih =>
    cases steps' with
    | nil =>
      rw [Step.listChars, Step.listChars, List.append_assoc] at heq
      exact absurd heq.symm (hopen s _ r' hr')
    | cons s' steps' =>
      simp only [Step.listChars, List.append_assoc] at heq
      obtain ⟨rfl, hrest⟩ := Step.chars_append_inj (h s List.mem_cons_self)
        (stops_listChars steps hr) (stops_listChars steps' hr') heq
      obtain ⟨rfl, hr⟩ := ih (fun s hs ↦ h s (List.mem_cons_of_mem _ hs)) hrest
      exact ⟨rfl, hr⟩

end Steps

theorem Step.sizeOf_lt_of_mem_params {s : Step} {p : Phrase} (hp : p ∈ s.params) :
    sizeOf p < sizeOf s := by
  cases s with
  | call via params hasEllipsis =>
    have hlt := List.sizeOf_lt_of_mem hp
    rw [Step.call.sizeOf_spec]
    simp only [Step.params] at hlt
    omega
  | _ => cases hp

theorem Phrase.cuts : ∀ p : Phrase, p.Cuts
  | .mk base steps => by
    intro p' r r' hr hr' heq
    obtain ⟨base', steps'⟩ := p'
    simp only [Phrase.chars, List.append_assoc] at heq
    obtain ⟨hbase, hrest⟩ := append_inj_of_stops base.forall_mem base'.forall_mem
      (stops_listChars steps hr) (stops_listChars steps' hr') heq
    obtain ⟨rfl, hr⟩ := listChars_append_inj (fun s hs p hp ↦ Phrase.cuts p) hr hr' hrest
    rw [QualifiedName.eq_of_chars hbase]
    exact ⟨rfl, hr⟩
  termination_by p => sizeOf p
  decreasing_by
    have hstep := List.sizeOf_lt_of_mem hs
    have hparam := Step.sizeOf_lt_of_mem_params hp
    rw [Phrase.mk.sizeOf_spec]
    omega

/-- No two phrases have the same text. -/
theorem Phrase.chars_injective {p p' : Phrase} (h : p.chars = p'.chars) : p = p' := by
  have hend : Closes [] := by simp [Closes]
  exact (p.cuts p' [] [] hend hend (by rw [h])).1

end ScopeForest
