import ScopeForest.CharSet

namespace ScopeForest.Unicode

/-- A table is a text of numbers in base 26, where a capital letter is the last digit of a number
and the small letters are the digits before it; `n` is what the digits before stand for. -/
def numbersFrom (n : Nat) : List Char → List Nat
  | [] => []
  | c :: cs =>
    if c.isUpper then (26 * n + (c.toNat - 'A'.toNat)) :: numbersFrom 0 cs
    else numbersFrom (26 * n + (c.toNat - 'a'.toNat)) cs

def numbers (table : String) : List Nat := numbersFrom 0 (table.toList.filter Char.isAlpha)

/-- Runs from a code point on: each is written as the gap before it and how far it goes on. -/
def runsFrom (first : Nat) : List Nat → List (Nat × Nat)
  | gap :: more :: rest =>
    let lo := first + gap
    (lo, lo + more) :: runsFrom (lo + more + 1) rest
  | _ => []

def charSet (table : String) : CharSet := ⟨runsFrom 0 (numbers table)⟩

/-- A property that gives each code point one of several values. -/
structure Enumeration where
  /-- The names of each value, in small letters and without dashes. -/
  values : List (List String)
  /-- Runs of one value without gaps: each is written as the value and how far it goes on. -/
  table : String

namespace Enumeration

def partsFrom (first : Nat) : List Nat → List (Nat × Nat × Nat)
  | value :: more :: rest => (value, first, first + more) :: partsFrom (first + more + 1) rest
  | _ => []

def select (e : Enumeration) (accept : Nat → Bool) : CharSet :=
  CharSet.ofRuns ((partsFrom 0 (numbers e.table)).filterMap fun p ↦
    if accept p.1 then some p.2 else none)

def index? (e : Enumeration) (name : String) : Option Nat :=
  e.values.findIdx? (·.contains name)

def set? (e : Enumeration) (name : String) : Option CharSet :=
  (e.index? name).map fun i ↦ e.select (· == i)

def anyOf (e : Enumeration) (names : List String) : CharSet :=
  e.select fun i ↦ names.any fun name ↦ (e.values.getD i []).contains name

end Enumeration

end ScopeForest.Unicode
