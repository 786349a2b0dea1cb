import ScopeForest.Pattern.Escape

namespace ScopeForest.Pattern

inductive SetOp
  | inter | diff | symmDiff
  deriving DecidableEq, Repr

def SetOp.apply : SetOp → CharSet → CharSet → CharSet
  | inter, a, b => a.inter b
  | diff, a, b => a.diff b
  | symmDiff, a, b => a.symmDiff b

structure LeftSide where
  set : CharSet
  depth : Nat
  op : SetOp
  deriving Repr

/-- A bracket that is not closed yet: what stands left of the last operation, and the members
since. -/
structure OpenSet where
  negated : Bool := false
  left : Option LeftSide := none
  members : CharSet := CharSet.empty
  count : Nat := 0
  /-- The greatest depth of a member. -/
  deepest : Nat := 0
  deriving Repr

namespace OpenSet

def add (s : OpenSet) (members : CharSet) (depth : Nat) : OpenSet :=
  { s with
    members := s.members.union members, count := s.count + 1, deepest := max s.deepest depth }

def listDepth (s : OpenSet) : Nat := if 1 < s.count then s.deepest + 1 else s.deepest

def value (f : Flags) (s : OpenSet) : CharSet :=
  match s.left with
  | none => s.members
  | some l => l.op.apply (f.fold l.set) (f.fold s.members)

def depth (s : OpenSet) : Nat :=
  match s.left with
  | none => s.listDepth
  | some l => max l.depth s.listDepth + 1

def operate (f : Flags) (s : OpenSet) (op : SetOp) : OpenSet :=
  { negated := s.negated, left := some ⟨s.value f, s.depth, op⟩ }

def close? (f : Flags) (s : OpenSet) : Option CharSet := f.negate? s.negated (f.fold (s.value f))

end OpenSet

/-- Dashes at the start of a set stand for themselves. -/
def readDashes (f : Flags) : Nat → OpenSet → List Char → OpenSet × List Char
  | 0, s, cs => (s, cs)
  | fuel + 1, s, cs => match f.skip cs with
    | '-' :: cs => readDashes f fuel (s.add (CharSet.single '-') 0) cs
    | cs => (s, cs)

/-- What follows an opening bracket: a caret, dashes, and a closing bracket that comes first. -/
def readOpening (f : Flags) (cs : List Char) : OpenSet × List Char :=
  let (negated, cs) := match f.skip cs with
    | '^' :: cs => (true, cs)
    | cs => (false, cs)
  let (s, cs) := readDashes f (cs.length + 1) { negated } cs
  match s.count, cs with
  | 0, ']' :: cs => (s.add (CharSet.single ']') 0, cs)
  | _, cs => (s, cs)

def bracketNames : List (String × CharSet) :=
  let graphic := CharSet.range '!' '~'
  let alnum := Ascii.letter.union Ascii.digit
  [("alnum", alnum), ("alpha", Ascii.letter), ("ascii", CharSet.range '\x00' '\x7f'),
    ("blank", CharSet.ofChars "\t "),
    ("cntrl", CharSet.ofRanges [('\x00', '\x1f'), ('\x7f', '\x7f')]), ("digit", Ascii.digit),
    ("graph", graphic), ("lower", CharSet.range 'a' 'z'), ("print", CharSet.range ' ' '~'),
    ("punct", graphic.diff alnum), ("space", Ascii.space), ("upper", CharSet.range 'A' 'Z'),
    ("word", Ascii.word), ("xdigit", CharSet.ofRanges [('0', '9'), ('A', 'F'), ('a', 'f')])]

def readNamed : List Char → Option (Bool × CharSet × List Char)
  | ':' :: cs =>
    let (negated, cs) := match cs with
      | '^' :: cs => (true, cs)
      | cs => (false, cs)
    match cs.dropWhile (· ≠ ':') with
    | ':' :: ']' :: rest =>
      (bracketNames.lookup (String.ofList (cs.takeWhile (· ≠ ':')))).map fun s ↦
        (negated, s, rest)
    | _ => none
  | _ => none

def readItem (f : Flags) : List Char → Option (Escape × List Char)
  | [] => none
  | '\\' :: cs => readEscape f cs
  | c :: cs => some (.char c false, cs)

/-- A single character, which is one of ASCII where the set is. -/
def Escape.char? (f : Flags) : Escape → Option Char
  | .char c _ => if f.unicode || c.toNat < 128 then some c else none
  | _ => none

def Escape.set? (f : Flags) : Escape → Option CharSet
  | .cls s => some s
  | e => (e.char? f).map CharSet.single

/-- What a reader sees behind a dash. It passes over white space and over the mark of a comment,
but not over the comment. -/
def glance (f : Flags) (cs : List Char) : Option Char :=
  if !f.extended then cs.head?
  else
    let seen := match cs.dropWhile Text.isBlank with
      | '#' :: rest => rest.dropWhile Text.isBlank
      | rest => rest
    seen.head? <|> cs.head?

/-- A member of a set: a character, an escape, or a range between two characters. A dash before
the closing bracket or before another dash makes no range. -/
def readMember (f : Flags) (cs : List Char) : Option (CharSet × List Char) := do
  let (first, rest) ← readItem f cs
  match f.skip rest with
  | [] => none
  | '-' :: after =>
    if glance f after = some ']' ∨ glance f after = some '-' then some (← first.set? f, rest)
    else
      let (last, rest) ← readItem f (f.skip after)
      let lo ← first.char? f
      let hi ← last.char? f
      if lo ≤ hi then some (CharSet.range lo hi, rest) else none
  | _ => some (← first.set? f, rest)

def readSet (f : Flags) : Nat → OpenSet → List OpenSet → List Char →
    Option (CharSet × Nat × List Char)
  | 0, _, _, _ => none
  | fuel + 1, s, outer, cs => match f.skip cs with
    | [] => none
    | '[' :: cs => match readNamed cs with
      | some (negated, named, cs) => do
        readSet f fuel (s.add (← f.negate? negated (f.fold named)) 0) outer cs
      | none =>
        let (inner, cs) := readOpening f cs
        readSet f fuel inner (s :: outer) cs
    | ']' :: cs => do
      let set ← s.close? f
      match outer with
      | [] => some (set, s.depth + 1, cs)
      | parent :: outer => readSet f fuel (parent.add set (s.depth + 1)) outer cs
    | '&' :: '&' :: cs => readSet f fuel (s.operate f .inter) outer cs
    | '-' :: '-' :: cs => readSet f fuel (s.operate f .diff) outer cs
    | '~' :: '~' :: cs => readSet f fuel (s.operate f .symmDiff) outer cs
    | cs => do
      let (members, cs) ← readMember f cs
      readSet f fuel (s.add members 0) outer cs

def readBrackets (f : Flags) (cs : List Char) : Option (CharSet × Nat × List Char) :=
  let (s, rest) := readOpening f cs
  readSet f (cs.length + 1) s [] rest

end ScopeForest.Pattern
