import ScopeForest.Proofs.Types.Forms
import ScopeForest.Proofs.Types.Phrases

namespace ScopeForest

def IsName (text : String) : Prop :=
  text.toList ≠ [] ∧ text.toList.all isNameChar = true ∧ text.toList.getLast? ≠ some ':'

instance (text : String) : Decidable (IsName text) :=
  inferInstanceAs (Decidable (_ ∧ _ ∧ _))

namespace QualifiedName

def read (text : String) : QualifiedName :=
  if h : IsName text then ⟨text.toList, h.1, List.all_eq_true.mp h.2.1, h.2.2⟩
  else ⟨['_'], by decide, List.all_eq_true.mp rfl, by decide⟩

theorem chars_read {text : String} (h : IsName text) : (read text).chars = text.toList := by
  rw [read, dif_pos h]

end QualifiedName

def Phrase.add : Phrase → List Step → Phrase
  | .mk base steps, more => .mk base (steps ++ more)

namespace Qualifiers

def steps (q : Qualifiers) : List Step :=
  (if q.const then [.qualifier .const] else []) ++ if q.volatile then [.qualifier .volatile] else []

def add (x : Qualifier) (q : Qualifiers) : Qualifiers :=
  match x with
  | .const => { q with const := true }
  | .volatile => { q with volatile := true }

def put (x : Qualifier) (own q : Qualifiers) : Qualifiers × Qualifiers :=
  if q = {} ∧ own.volatile = false ∧ (x = .const → own.const = false) then (own.add x, q)
  else (own, q.add x)

/-- How the qualifiers `q` behind a signature with the qualifiers `own` are read: the signature is
given as many as it can have. -/
def absorb (own q : Qualifiers) : Qualifiers × Qualifiers :=
  if own = {} then (q, {})
  else if own = { const := true } ∧ q = { volatile := true } then
    ({ const := true, volatile := true }, {})
  else (own, q)

end Qualifiers

def Mark.label : Mark → Label
  | pointer => .pointer
  | reference => .reference

def ArraySize.bound? : ArraySize → Option Nat
  | known n => some n
  | _ => none

def ArraySize.ofBound : Option Nat → ArraySize
  | none => unknown
  | some n => known n

def outerSteps (q : Qualifiers) (mark : Option Mark) : List Step :=
  q.steps ++ (mark.map fun m ↦ Step.pointing { mark := m }).toList

namespace Form

mutual

/-- What the text of a form says, alone or with the mark of a pointer or reference to it. -/
def phrase (name : DeclId → String) (mark : Option Mark) : Form → Phrase
  | node q (.fundamental n) _ => .mk (.read n) (outerSteps q mark)
  | node q (.declared d) _ => .mk (.read (name d)) (outerSteps q mark)
  | node q .pointer [F] => (F.phrase name (some .pointer)).add (outerSteps q mark)
  | node q .reference [F] => (F.phrase name (some .reference)).add (outerSteps q mark)
  | node q (.array size) [F] =>
    (F.phrase name none).add (.array size.bound? :: outerSteps q mark)
  | node q (.memberPointer cls) [F] =>
    (F.phrase name none).add
      (.pointing ⟨some (.read (name cls)), .pointer⟩ :: outerSteps q mark)
  | node q (.memberFunctionPointer cls e own) (result :: params) =>
    (result.phrase name none).add
      (.call (some ⟨some (.read (name cls)), .pointer⟩) (phrases name params) e ::
        (own.steps ++ outerSteps q mark))
  -- a function that is pointed to has the mark inside, and its qualifiers are left out
  | node q (.function e own) (result :: params) =>
    (result.phrase name none).add
      (.call (mark.map ({ mark := · })) (phrases name params) e ::
        (own.steps ++ if mark = none then q.steps else []))
  | node q _ _ => .mk (.read "") (outerSteps q mark)

def phrases (name : DeclId → String) : List Form → List Phrase
  | [] => []
  | F :: parts => F.phrase name none :: phrases name parts

end

def adjust (f : Qualifiers → Qualifiers → Qualifiers × Qualifiers) (g : Qualifiers → Qualifiers) :
    Form → Form
  | node q .pointer [node p (.function e own) parts] =>
    node (f own q).2 .pointer [node p (.function e (f own q).1) parts]
  | node q .reference [node p (.function e own) parts] =>
    node (f own q).2 .reference [node p (.function e (f own q).1) parts]
  | node q (.function e own) parts => node (f own q).2 (.function e (f own q).1) parts
  | node q (.memberFunctionPointer cls e own) parts =>
    node (f own q).2 (.memberFunctionPointer cls e (f own q).1) parts
  | node q label parts => node (g q) label parts

/-- Gives the qualifiers of a node to its signature as far as possible. -/
def settle : Form → Form := adjust Qualifiers.absorb id

mutual

/-- A form without what its text does not tell, alone or where it is pointed to. -/
def blur (pointed : Bool) : Form → Form
  | node q .pointer parts => (node q .pointer (blurs true parts)).settle
  | node q .reference parts => (node q .reference (blurs true parts)).settle
  | node q (.function e own) parts =>
    if pointed then node {} (.function e own) (blurs false parts)
    else (node q (.function e own) (blurs false parts)).settle
  | node q label parts => (node q label (blurs false parts)).settle

def blurs (pointed : Bool) : List Form → List Form
  | [] => []
  | F :: parts => F.blur pointed :: blurs pointed parts

end

def addQualifier (x : Qualifier) : Form → Form := adjust (Qualifiers.put x) (Qualifiers.add x)

end Form

structure Reader where
  label : QualifiedName → Label
  cls : QualifiedName → DeclId

mutual

def Phrase.form (R : Reader) : Phrase → Form
  | .mk base steps => Step.build R (.node {} (R.label base) []) steps

def Step.build (R : Reader) (F : Form) : List Step → Form
  | [] => F
  | s :: steps => Step.build R (s.wrap R F) steps

def Step.wrap (R : Reader) (F : Form) : Step → Form
  | .qualifier q => F.addQualifier q
  | .pointing ⟨none, m⟩ => .node {} m.label [F]
  | .pointing ⟨some n, _⟩ => .node {} (.memberPointer (R.cls n)) [F]
  | .array size => .node {} (.array (.ofBound size)) [F]
  | .call none params e => .node {} (.function e {}) (F :: Phrase.forms R params)
  | .call (some ⟨none, m⟩) params e =>
    .node {} m.label [.node {} (.function e {}) (F :: Phrase.forms R params)]
  | .call (some ⟨some n, _⟩) params e =>
    .node {} (.memberFunctionPointer (R.cls n) e {}) (F :: Phrase.forms R params)

def Phrase.forms (R : Reader) : List Phrase → List Form
  | [] => []
  | p :: params => p.form R :: Phrase.forms R params

end

section Reading

variable {R : Reader} {F : Form} {p : Phrase} {steps more : List Step} {q own : Qualifiers}

theorem Step.build_append :
    Step.build R F (steps ++ more) = Step.build R (Step.build R F steps) more := by
  induction steps generalizing F with
  | nil => rfl
  | cons s steps ih => rw [List.cons_append, Step.build, Step.build, ih]

theorem Phrase.form_add : (p.add steps).form R = Step.build R (p.form R) steps := by
  obtain ⟨base, more⟩ := p
  rw [Phrase.add, Phrase.form, Phrase.form, Step.build_append]

theorem Step.build_steps (label : Label) (parts : List Form) (q : Qualifiers) :
    Step.build R (.node {} label parts) q.steps = (Form.node q label parts).settle := by
  obtain ⟨c, v⟩ := q
  cases label with
  | function e own | memberFunctionPointer _ e own =>
    obtain ⟨c', v'⟩ := own
    cases c <;> cases v <;> cases c' <;> cases v' <;> rfl
  | pointer | reference =>
    rcases parts with _ | ⟨⟨p, inner, args⟩, _ | ⟨G, rest⟩⟩
    · cases c <;> cases v <;> rfl
    · cases inner with
      | function e own =>
        obtain ⟨c', v'⟩ := own
        cases c <;> cases v <;> cases c' <;> cases v' <;> rfl
      | _ => cases c <;> cases v <;> rfl
    · cases inner <;> cases c <;> cases v <;> rfl
  | _ => cases c <;> cases v <;> rfl

@[simp] theorem Phrase.add_add : (p.add steps).add more = p.add (steps ++ more) := by
  obtain ⟨base, first⟩ := p
  rw [Phrase.add, Phrase.add, Phrase.add, List.append_assoc]

@[simp] theorem Phrase.add_nil : p.add [] = p := by
  obtain ⟨base, first⟩ := p
  rw [Phrase.add, List.append_nil]

end Reading

namespace Form

variable {name : DeclId → String} {R : Reader} {F : Form}

/-- The forms that the grammar has words for, with names that can be read back. -/
inductive Regular (name : DeclId → String) (R : Reader) : Form → Prop
  | fundamental {q : Qualifiers} {n : String} (h : R.label (.read n) = .fundamental n) :
    Regular name R (node q (.fundamental n) [])
  | declared {q : Qualifiers} {d : DeclId} (h : R.label (.read (name d)) = .declared d) :
    Regular name R (node q (.declared d) [])
  | indirect {q : Qualifiers} (m : Mark) {F : Form} (hF : Regular name R F) :
    Regular name R (node q m.label [F])
  | array {q : Qualifiers} {size : ArraySize} {F : Form} (h : .ofBound size.bound? = size)
    (hF : Regular name R F) : Regular name R (node q (.array size) [F])
  | memberPointer {q : Qualifiers} {cls : DeclId} {F : Form} (h : R.cls (.read (name cls)) = cls)
    (hF : Regular name R F) : Regular name R (node q (.memberPointer cls) [F])
  | function {q own : Qualifiers} {e : Bool} {result : Form} {params : List Form}
    (hresult : Regular name R result) (hparams : ∀ F ∈ params, Regular name R F) :
    Regular name R (node q (.function e own) (result :: params))
  | memberFunctionPointer {q own : Qualifiers} {cls : DeclId} {e : Bool} {result : Form}
    {params : List Form} (h : R.cls (.read (name cls)) = cls) (hresult : Regular name R result)
    (hparams : ∀ F ∈ params, Regular name R F) :
    Regular name R (node q (.memberFunctionPointer cls e own) (result :: params))

theorem phrases_eq_map (parts : List Form) : phrases name parts = parts.map (phrase name none) := by
  induction parts with
  | nil => rfl
  | cons F parts ih => rw [phrases, ih, List.map_cons]

theorem blurs_eq_map (pointed : Bool) (parts : List Form) :
    blurs pointed parts = parts.map (blur pointed) := by
  induction parts with
  | nil => rfl
  | cons F parts ih => rw [blurs, ih, List.map_cons]

theorem forms_eq_map (ps : List Phrase) : Phrase.forms R ps = ps.map (Phrase.form R) := by
  induction ps with
  | nil => rfl
  | cons F parts ih => rw [Phrase.forms, ih, List.map_cons]

/-- A phrase is read back as the form that it was made from, as far as its text tells. -/
theorem Regular.form_phrase (h : F.Regular name R) : (F.phrase name none).form R = F.blur false ∧
    ∀ m, (F.phrase name (some m)).form R = node {} m.label [F.blur true] := by
  have hparts {params : List Form}
      (hparams : ∀ F ∈ params, (F.phrase name none).form R = F.blur false) :
      Phrase.forms R (phrases name params) = blurs false params := by
    rw [forms_eq_map, phrases_eq_map, blurs_eq_map, List.map_map]
    exact List.map_congr_left hparams
  -- a node that is no function has its qualifiers and the mark behind all else
  have houter {q : Qualifiers} {label : Label} {parts : List Form} (p : Phrase) (inner : List Step)
      (hp : Step.build R (p.form R) inner = node {} label parts) :
      (p.add (inner ++ outerSteps q none)).form R = (node q label parts).settle ∧ ∀ m,
        (p.add (inner ++ outerSteps q (some m))).form R =
          node {} m.label [(node q label parts).settle] := by
    refine ⟨?_, fun m ↦ ?_⟩
    · rw [outerSteps, Option.map_none, Option.toList_none, List.append_nil, Phrase.form_add,
        Step.build_append, hp, Step.build_steps]
    · rw [outerSteps, Phrase.form_add, Step.build_append, hp, Step.build_append, Step.build_steps]
      rfl
  induction h with
  | @fundamental q n h => exact houter (.mk (.read n) []) [] (congrArg (node {} · []) h)
  | @declared q d h => exact houter (.mk (.read (name d)) []) [] (congrArg (node {} · []) h)
  | indirect m hF ih => cases m <;> exact houter _ [] (ih.2 _)
  | array h hF ih =>
    refine houter _ [_] ?_
    rw [ih.1]
    exact congrArg (fun size ↦ node {} (.array size) _) h
  | memberPointer h hF ih =>
    refine houter _ [_] ?_
    rw [ih.1]
    exact congrArg (fun cls ↦ node {} (.memberPointer cls) _) h
  | @memberFunctionPointer q own cls e result params h hresult hparams ihresult ihparams =>
    have hforms := hparts fun F hF ↦ (ihparams F hF).1
    refine houter _ (_ :: own.steps) ?_
    rw [ihresult.1, Step.build, Step.wrap, hforms, h, Step.build_steps]
    rfl
  | @function q own e result params hresult hparams ihresult ihparams =>
    have hforms := hparts fun F hF ↦ (ihparams F hF).1
    refine ⟨?_, fun m ↦ ?_⟩
    · rw [phrase, Phrase.form_add, ihresult.1, if_pos rfl, Step.build, Option.map_none, Step.wrap,
        hforms, Step.build_append, Step.build_steps]
      exact Step.build_steps _ _ q
    · rw [phrase, Phrase.form_add, ihresult.1, if_neg (Option.some_ne_none m), List.append_nil,
        Step.build, Option.map_some, Step.wrap, hforms, Step.build_steps]
      cases m <;> rfl

def parts : Form → List Form
  | node _ _ parts => parts

@[simp] theorem parts_node (q : Qualifiers) (label : Label) (ps : List Form) :
    (node q label ps).parts = ps := rfl

@[simp] theorem length_parts_settle (F : Form) : F.settle.parts.length = F.parts.length := by
  unfold settle adjust
  split <;> rfl

theorem length_parts_blur (pointed : Bool) (F : Form) :
    (F.blur pointed).parts.length = F.parts.length := by
  unfold blur
  split
  case h_3 => cases pointed <;> simp [blurs_eq_map]
  all_goals simp [blurs_eq_map]

theorem absorb_steps (own q : Qualifiers) :
    (own.absorb q).1.steps ++ (own.absorb q).2.steps = own.steps ++ q.steps := by
  obtain ⟨c, v⟩ := own
  obtain ⟨c', v'⟩ := q
  cases c <;> cases v <;> cases c' <;> cases v' <;> rfl

theorem absorb_outerSteps (own q : Qualifiers) (mark : Option Mark) :
    (own.absorb q).1.steps ++ outerSteps (own.absorb q).2 mark =
      own.steps ++ outerSteps q mark := by
  rw [outerSteps, outerSteps, ← List.append_assoc, absorb_steps, List.append_assoc]

theorem phrase_settle_indirect {q : Qualifiers} {m : Mark} (mark : Option Mark)
    (h : ∀ p e own, F ≠ node p (.function e own) []) :
    (node q m.label [F]).settle.phrase name mark = (node q m.label [F]).phrase name mark := by
  obtain ⟨p, label, parts⟩ := F
  cases label with
  | function e own =>
    cases parts with
    | nil => exact absurd rfl (h p e own)
    | cons result params =>
      cases m <;>
        simp only [Mark.label, settle, adjust, phrase, Phrase.add_add, List.cons_append,
          List.append_assoc, absorb_outerSteps, reduceCtorEq, if_false, List.nil_append]
  | _ => cases m <;> rfl

theorem Regular.phrase_blur (h : F.Regular name R) :
    (F.blur false).phrase name none = F.phrase name none ∧
      ∀ m, (F.blur true).phrase name (some m) = F.phrase name (some m) := by
  have hparts {params : List Form}
      (hparams : ∀ F ∈ params, (F.blur false).phrase name none = F.phrase name none) :
      phrases name (blurs false params) = phrases name params := by
    rw [phrases_eq_map, phrases_eq_map, blurs_eq_map, List.map_map]
    exact List.map_congr_left hparams
  have hboth {F : Form}
      (h : ∀ pointed mark, (F.blur pointed).phrase name mark = F.phrase name mark) :
      (F.blur false).phrase name none = F.phrase name none ∧
        ∀ m, (F.blur true).phrase name (some m) = F.phrase name (some m) :=
    ⟨h false none, fun m ↦ h true (some m)⟩
  induction h with
  | fundamental | declared => exact ⟨rfl, fun m ↦ rfl⟩
  | @indirect q m F hF ih =>
    refine hboth fun pointed mark ↦ ?_
    have hblur : (node q m.label [F]).blur pointed = (node q m.label [F.blur true]).settle := by
      cases m <;> rfl
    rw [hblur, phrase_settle_indirect mark fun p e own hnil ↦ ?_]
    · cases m <;> simp only [Mark.label, phrase, ih.2]
    · -- a function has a result
      have hlength := length_parts_blur true F
      rw [hnil] at hlength
      cases hF with
      | fundamental | declared => cases hnil
      | _ => cases hlength
  | array h hF ih => exact hboth fun pointed mark ↦ congrArg (Phrase.add · _) ih.1
  | memberPointer h hF ih => exact hboth fun pointed mark ↦ congrArg (Phrase.add · _) ih.1
  | @memberFunctionPointer q own cls e result params h hresult hparams ihresult ihparams =>
    refine hboth fun pointed mark ↦ ?_
    have hforms := hparts fun F hF ↦ (ihparams F hF).1
    simp only [blur, blurs, settle, adjust, phrase, ihresult.1, hforms, absorb_outerSteps]
  | @function q own e result params hresult hparams ihresult ihparams =>
    have hforms := hparts fun F hF ↦ (ihparams F hF).1
    refine ⟨?_, fun m ↦ ?_⟩
    · simp [blur, blurs, settle, adjust, phrase, ihresult.1, hforms, absorb_steps]
    · simp [blur, blurs, phrase, ihresult.1, hforms]

/-- Two forms have the same phrase if and only if they are the same without what a text does not
tell. -/
theorem Regular.phrase_eq_iff {G : Form} (hF : F.Regular name R) (hG : G.Regular name R) :
    F.phrase name none = G.phrase name none ↔ F.blur false = G.blur false := by
  refine ⟨fun h ↦ ?_, fun h ↦ ?_⟩
  · rw [← hF.form_phrase.1, ← hG.form_phrase.1, h]
  · rw [← hF.phrase_blur.1, ← hG.phrase_blur.1, h]

def isCallable : Form → Bool
  | node _ .pointer [node _ (.function ..) _] => true
  | node _ .reference [node _ (.function ..) _] => true
  | node _ (.function ..) _ => true
  | node _ (.memberFunctionPointer ..) _ => true
  | _ => false

/-- Nothing that can be called is qualified. -/
inductive Plain : Form → Prop
  | node {q : Qualifiers} {label : Label} {parts : List Form}
    (hq : (node q label parts).isCallable = true → q = {}) (hparts : ∀ F ∈ parts, Plain F) :
    Plain (node q label parts)

theorem absorb_none (own : Qualifiers) : own.absorb {} = (own, {}) := by
  obtain ⟨c, v⟩ := own
  cases c <;> cases v <;> rfl

theorem settle_of_isCallable {q : Qualifiers} {label : Label} {parts : List Form}
    (h : (node q label parts).isCallable = true → q = {}) :
    (node q label parts).settle = node q label parts := by
  unfold settle adjust
  split <;> rename_i heq <;> cases heq
  case h_5 => rfl
  all_goals rw [h rfl, absorb_none]

theorem Plain.blur_eq (h : F.Plain) (pointed : Bool) : F.blur pointed = F := by
  induction h generalizing pointed with
  | @node q label parts hq hparts ih =>
    have hblurs (pointed : Bool) : blurs pointed parts = parts := by
      rw [blurs_eq_map]
      exact (List.map_congr_left fun F hF ↦ ih F hF pointed).trans (List.map_id parts)
    have hsettle := settle_of_isCallable hq
    cases label with
    | function e own =>
      cases pointed with
      | false => rw [blur, hblurs, if_neg Bool.false_ne_true, hsettle]
      | true => rw [blur, hblurs, if_pos rfl, hq rfl]
    | _ => simp only [blur, hblurs, hsettle]

end Form

end ScopeForest
