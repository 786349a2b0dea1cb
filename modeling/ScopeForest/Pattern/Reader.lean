import ScopeForest.Pattern.Brackets
import ScopeForest.Pattern.Weight

namespace ScopeForest.Pattern

/-- A part of a pattern, with how deeply it nests. -/
structure Part where
  regex : Regex
  depth : Nat := 0
  /-- A change of flags cannot be repeated. -/
  repeatable : Bool := true
  deriving Repr

def Part.jointDepth : List Part → Nat
  | [] => 0
  | [p] => p.depth
  | parts => (parts.map Part.depth).foldl max 0 + 1

/-- What is read of a group so far: its finished alternatives and the parts of the current one, the
last part first. -/
structure Branch where
  alternatives : List Part := []
  parts : List Part := []
  deriving Repr

namespace Branch

def push (b : Branch) (p : Part) : Branch := { b with parts := p :: b.parts }

def sequence (b : Branch) : Part :=
  { regex := Regex.seqAll (b.parts.reverse.map Part.regex), depth := Part.jointDepth b.parts }

def alternate (b : Branch) : Branch :=
  { alternatives := b.sequence :: b.alternatives }

def close (b : Branch) : Part :=
  let options := (b.sequence :: b.alternatives).reverse
  { regex := Regex.choice (options.map Part.regex), depth := Part.jointDepth options }

def repeat? (b : Branch) (least : Nat) (most : Option Nat) : Option Branch :=
  match b.parts with
  | [] => none
  | p :: parts =>
    if p.repeatable then
      let p := { regex := Regex.repeated least most p.regex, depth := p.depth + 1 }
      some { b with parts := p :: parts }
    else none

end Branch

structure OuterGroup where
  flags : Flags
  branch : Branch
  /-- The group inside it keeps what it matches. -/
  captures : Bool
  deriving Repr

structure State where
  flags : Flags := {}
  names : List String := []
  branch : Branch := {}
  outer : List OuterGroup := []
  deriving Repr

namespace State

def pushPart (s : State) (p : Part) : State := { s with branch := s.branch.push p }

def push (s : State) (r : Regex) : State := s.pushPart { regex := r }

def openGroup (s : State) (inner : Flags) (captures : Bool) : State :=
  { s with flags := inner, branch := {}, outer := ⟨s.flags, s.branch, captures⟩ :: s.outer }

def closeGroup? (s : State) : Option State :=
  match s.outer with
  | [] => none
  | g :: outer =>
    let body := s.branch.close
    let regex := if g.captures then .group body.regex else body.regex
    some { s with
      flags := g.flags, branch := g.branch.push { regex, depth := body.depth + 1 }, outer }

def literal (s : State) (c : Char) : Regex := .one (s.flags.fold (CharSet.single c))

/-- An escape as a part. A byte that is not ASCII is no character of its own where sets are those of
ASCII. -/
def ofEscape? (s : State) : Escape → Option Regex
  | .char c byte =>
    if byte && !s.flags.unicode && 128 ≤ c.toNat then none else some (s.literal c)
  | .cls c => some (.one c)
  | .boundary b => some (.boundary b)

end State

/-- The letters of a group of flags up to its colon or closing parenthesis, which is given back
too. No letter and no dash comes twice, and a dash is not the last one. -/
def readFlags (f : Flags) (value : Bool) (seen : List Char) :
    List Char → Option (Flags × Char × List Char)
  | [] => none
  | c :: cs =>
    if c = ':' ∨ c = ')' then
      if seen.head? = some '-' ∨ (c = ')' ∧ seen = []) then none else some (f, c, cs)
    else if seen.contains c then none
    else if c = '-' then readFlags f false (c :: seen) cs
    else match f.set? c value with
      | none => none
      | some f => readFlags f value (c :: seen) cs

def groupNameStart : CharSet := Unicode.alphabetic.union (CharSet.single '_')

def groupNameRest : CharSet :=
  CharSet.unions
    [groupNameStart, Unicode.category.anyOf ["nd", "nl", "no"], CharSet.ofChars ".[]"]

def isGroupName : List Char → Bool
  | [] => false
  | c :: cs => groupNameStart.has c && cs.all groupNameRest.has

def readGroupName (s : State) (cs : List Char) : Option (State × List Char) := do
  let name := cs.takeWhile (· ≠ '>')
  let rest ← (cs.dropWhile (· ≠ '>')).tail?
  let text := String.ofList name
  if isGroupName name ∧ !s.names.contains text then
    some ({ s with names := text :: s.names }.openGroup s.flags true, rest)
  else none

def readGroup (s : State) (cs : List Char) : Option (State × List Char) :=
  match s.flags.skip cs with
  | '?' :: '=' :: _ => none
  | '?' :: '!' :: _ => none
  | '?' :: '<' :: '=' :: _ => none
  | '?' :: '<' :: '!' :: _ => none
  | '?' :: 'P' :: '<' :: cs => readGroupName s cs
  | '?' :: '<' :: cs => readGroupName s cs
  | '?' :: cs => do
    let (f, last, rest) ← readFlags s.flags true [] cs
    if last = ')' then
      some ({ s with flags := f }.pushPart { regex := .empty, repeatable := false }, rest)
    else some (s.openGroup f false, rest)
  | cs => some (s.openGroup s.flags true, cs)

def readDigits (f : Flags) : Nat → List Char → List Char × List Char
  | 0, cs => ([], cs)
  | _ + 1, [] => ([], [])
  | fuel + 1, c :: cs =>
    if c.isDigit then
      let (digits, rest) := readDigits f fuel (f.skip cs)
      (c :: digits, rest)
    else ([], c :: cs)

def readCount (f : Flags) (cs : List Char) : Option (Nat × List Char) := do
  let (digits, rest) := readDigits f cs.length (cs.dropWhile Text.isBlank)
  let n ← (Text.digits? digits).filter (· ≤ Text.maxWord32)
  some (n, rest.dropWhile Text.isBlank)

def readBounds (f : Flags) (cs : List Char) : Option (Nat × Option Nat × List Char) := do
  let (least, rest) ← readCount f (f.skip cs)
  match f.skip rest with
  | '\x7d' :: rest => some (least, some least, rest)
  | ',' :: rest => match f.skip rest with
    | '\x7d' :: rest => some (least, none, rest)
    | rest => do
      let (most, rest) ← readCount f rest
      match f.skip rest with
      | '\x7d' :: rest => if least ≤ most then some (least, some most, rest) else none
      | _ => none
  | _ => none

def dropLazy : List Char → List Char
  | '?' :: cs => cs
  | cs => cs

def readRepeat (s : State) (least : Nat) (most : Option Nat) (cs : List Char) :
    Option (State × List Char) := do
  let branch ← s.branch.repeat? least most
  some ({ s with branch }, dropLazy cs)

/-- Any character, or any that does not end a line. There is no such set of ASCII, because it would
break characters of more than one byte apart. -/
def anyChar? (f : Flags) : Option CharSet :=
  if !f.unicode then none
  else if f.dotAll then some CharSet.all
  else if f.wideLines then some (CharSet.ofChars "\r\n").compl
  else some (CharSet.single '\n').compl

def readPart (s : State) (c : Char) (cs : List Char) : Option (State × List Char) :=
  let lines (line : Bool → Boundary) (text : Boundary) : State × List Char :=
    (s.push (.boundary (if s.flags.multiline then line s.flags.wideLines else text)), cs)
  match c with
  | '(' => readGroup s cs
  | ')' => do some (← s.closeGroup?, cs)
  | '|' => some ({ s with branch := s.branch.alternate }, cs)
  | '[' => do
    let (set, depth, cs) ← readBrackets s.flags cs
    some (s.pushPart { regex := .one set, depth }, cs)
  | '?' => readRepeat s 0 (some 1) cs
  | '*' => readRepeat s 0 none cs
  | '+' => readRepeat s 1 none cs
  | '\x7b' => do
    let (least, most, cs) ← readBounds s.flags cs
    readRepeat s least most (s.flags.skip cs)
  | '\\' => do
    let (e, cs) ← readEscape s.flags cs
    some (s.push (← s.ofEscape? e), cs)
  | '.' => do some (s.push (.one (← anyChar? s.flags)), cs)
  | '^' => some (lines .lineStart .textStart)
  | '$' => some (lines .lineEnd .textEnd)
  | c => some (s.push (s.literal c), cs)

def readParts : Nat → State → List Char → Option Part
  | 0, _, _ => none
  | fuel + 1, s, cs => match s.flags.skip cs with
    | [] => if s.outer.isEmpty then some s.branch.close else none
    | c :: cs => do
      let (s, cs) ← readPart s c cs
      readParts fuel s cs

def nestingLimit : Nat := 250

def read? (source : String) : Option Regex :=
  (readParts (source.toList.length + 1) {} source.toList).bind fun p ↦
    if p.depth ≤ nestingLimit && p.regex.isLight then some p.regex else none

end ScopeForest.Pattern

namespace ScopeForest

structure NamePattern where
  source : String
  regex : Regex
  read_source : Pattern.read? source = some regex

namespace NamePattern

def ofSource? (source : String) : Option NamePattern :=
  match h : Pattern.read? source with
  | some regex => some ⟨source, regex, h⟩
  | none => none

def search (p : NamePattern) (text : String) : Bool := p.regex.search text

/-- The text alone decides which pattern it is. -/
theorem eq_of_source_eq {p q : NamePattern} (h : p.source = q.source) : p = q := by
  obtain ⟨s, r, hr⟩ := p
  obtain ⟨t, r', hr'⟩ := q
  obtain rfl : s = t := h
  obtain rfl : r = r' := Option.some.inj (hr.symm.trans hr')
  rfl

theorem ofSource?_source (p : NamePattern) : ofSource? p.source = some p := by
  unfold ofSource?
  split
  · rename_i r h
    exact congrArg some (eq_of_source_eq rfl)
  · rename_i h
    simp [p.read_source] at h

instance : DecidableEq NamePattern := fun p q ↦
  decidable_of_iff (p.source = q.source) ⟨eq_of_source_eq, fun h ↦ h ▸ rfl⟩

instance : Repr NamePattern := ⟨fun p n ↦ reprPrec p.source n⟩

end NamePattern

end ScopeForest
