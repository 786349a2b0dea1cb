namespace ScopeForest

/-- The runs are given by their first and last code points. They are in order, and between two of
them some code point is missing. -/
structure CharSet where
  runs : List (Nat × Nat)
  deriving DecidableEq, Repr

namespace CharSet

/-- Joins runs that overlap or touch; they come in the order of their first code points. -/
def join : List (Nat × Nat) → List (Nat × Nat)
  | r :: s :: rest =>
    if s.1 ≤ r.2 + 1 then join ((r.1, max r.2 s.2) :: rest) else r :: join (s :: rest)
  | rest => rest
  termination_by rest => rest.length

def ofRuns (runs : List (Nat × Nat)) : CharSet :=
  ⟨join (runs.mergeSort fun r s ↦ decide (r.1 ≤ s.1))⟩

def empty : CharSet := ⟨[]⟩

def range (lo hi : Char) : CharSet := ⟨[(lo.toNat, hi.toNat)]⟩

def single (c : Char) : CharSet := range c c

def ofRanges (ranges : List (Char × Char)) : CharSet :=
  ofRuns (ranges.map fun r ↦ (r.1.toNat, r.2.toNat))

def ofChars (text : String) : CharSet := ofRanges (text.toList.map fun c ↦ (c, c))

def inRuns (n : Nat) : List (Nat × Nat) → Bool
  | [] => false
  | r :: rest => if n < r.1 then false else n ≤ r.2 || inRuns n rest

def hasCode (s : CharSet) (n : Nat) : Bool := inRuns n s.runs

def has (s : CharSet) (c : Char) : Bool := s.hasCode c.toNat

def union (s t : CharSet) : CharSet := ofRuns (s.runs ++ t.runs)

def unions (sets : List CharSet) : CharSet := ofRuns (sets.flatMap CharSet.runs)

def surrogates : Nat × Nat := (0xD800, 0xDFFF)

def lastCode : Nat := 0x10FFFF

def gaps (first : Nat) : List (Nat × Nat) → List (Nat × Nat)
  | [] => if first ≤ lastCode then [(first, lastCode)] else []
  | r :: rest =>
    if first < r.1 then (first, r.1 - 1) :: gaps (r.2 + 1) rest else gaps (r.2 + 1) rest

def compl (s : CharSet) : CharSet := ⟨gaps 0 (ofRuns (surrogates :: s.runs)).runs⟩

def all : CharSet := empty.compl

def inter (s t : CharSet) : CharSet := (s.compl.union t.compl).compl

def diff (s t : CharSet) : CharSet := s.inter t.compl

def symmDiff (s t : CharSet) : CharSet := (s.diff t).union (t.diff s)

def only? (s : CharSet) : Option Char :=
  match s.runs with
  | [r] => if r.1 = r.2 then some (Char.ofNat r.1) else none
  | _ => none

def isAscii (s : CharSet) : Bool := s.runs.all fun r ↦ decide (r.2 < 128)

end CharSet

end ScopeForest
