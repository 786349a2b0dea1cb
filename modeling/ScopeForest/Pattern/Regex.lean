import ScopeForest.Unicode.Derived

namespace ScopeForest

inductive WordEdge
  | edge | inner | start | stop | startHalf | stopHalf
  deriving DecidableEq, Repr

def WordEdge.holds (before after : Bool) : WordEdge → Bool
  | edge => before != after
  | inner => before == after
  | start => !before && after
  | stop => before && !after
  | startHalf => !before
  | stopHalf => !after

/-- Conditions on a position that consume nothing. A line ends in a line feed; in the wide sense a
carriage return ends it too, alone or before a line feed. -/
inductive Boundary
  | textStart
  | textEnd
  | lineStart (wide : Bool)
  | lineEnd (wide : Bool)
  | word (chars : CharSet) (place : WordEdge)
  deriving DecidableEq, Repr

def Boundary.holds (before after : Option Char) : Boundary → Bool
  | textStart => before.isNone
  | textEnd => after.isNone
  | lineStart wide =>
    before.all (· == '\n') || (wide && before == some '\r' && after != some '\n')
  | lineEnd wide =>
    if wide then after.all (· == '\r') || (after == some '\n' && before != some '\r')
    else after.all (· == '\n')
  | word chars place => place.holds (before.any chars.has) (after.any chars.has)

/-- Whether a repetition is greedy does not matter for the question whether there is a match, so it
is not kept. -/
inductive Regex
  | empty
  | one (s : CharSet)
  | boundary (b : Boundary)
  | cat (a b : Regex)
  | alt (a b : Regex)
  | rep (least : Nat) (most : Option Nat) (a : Regex)
  | group (a : Regex)
  deriving DecidableEq, Repr

namespace Regex

def isHollow : Regex → Bool
  | empty => true
  | one _ => false
  | boundary _ => true
  | cat a b => a.isHollow && b.isHollow
  | alt a b => a.isHollow && b.isHollow
  | rep _ most a => most.isSome && a.isHollow
  | group a => a.isHollow

/-- A sequence, where sequences inside it are laid open and nothing stands for the empty one. -/
def seq : Regex → Regex → Regex
  | empty, c => c
  | cat a b, c => cat a (seq b c)
  | a, empty => a
  | a, c => cat a c

def seqAll (parts : List Regex) : Regex := parts.foldr seq empty

def branches : Regex → List Regex
  | alt a b => a :: branches b
  | r => [r]

def ofBranches : List Regex → Regex
  | [] => one CharSet.empty
  | [r] => r
  | r :: rs => alt r (ofBranches rs)

def set? : Regex → Option CharSet
  | one s => some s
  | _ => none

/-- A choice, where choices inside it are laid open, and single characters or sets are put
together. -/
def choice (options : List Regex) : Regex :=
  let options := options.flatMap branches
  match options.mapM set? with
  | some sets =>
    let singles := sets.countP (·.only?.isSome)
    if singles = 0 ∨ singles = sets.length then one (CharSet.unions sets) else ofBranches options
  | none => ofBranches options

/-- A repetition. What matches only the empty text need not be repeated. -/
def repeated (least : Nat) (most : Option Nat) (a : Regex) : Regex :=
  let least := if a.isHollow then min least 1 else least
  let most := if a.isHollow then some (min (most.getD 1) 1) else most
  if most = some 0 then empty
  else if least = 1 ∧ most = some 1 then a
  else rep least most a

section Search

/-- A set of positions is a number, where the bit `i` tells whether `i` belongs to it. -/
abbrev Places := Nat

def Places.add (first : Bool) (rest : Places) : Places := 2 * rest + first.toNat

def placesBefore (s : CharSet) : List Char → Places
  | [] => 0
  | c :: cs => Places.add (s.has c) (placesBefore s cs)

/-- The positions where a condition holds, after a given character. -/
def placesAt (b : Boundary) (before : Option Char) : List Char → Places
  | [] => Places.add (b.holds before none) 0
  | c :: cs => Places.add (b.holds before (some c)) (placesAt b (some c) cs)

variable (step : Places → Places)

def exactly : Nat → Places → Places
  | 0, places => places
  | n + 1, places => exactly n (step places)

/-- What at most `n` steps reach; those that were reached before are not tried again. -/
def upTo : Nat → Places → Places → Places
  | 0, reached, _ => reached
  | n + 1, reached, new =>
    let next := step new
    let fresh := next ^^^ (next &&& reached)
    if fresh = 0 then reached else upTo n (reached ||| fresh) fresh

end Search

/-- Where matches may end that begin at one of the given positions of a text. Among more steps than
there are characters one is empty, so that further ones change nothing. -/
def ends (text : List Char) : Regex → Places → Places
  | empty, places => places
  | one s, places => 2 * (places &&& placesBefore s text)
  | boundary b, places => places &&& placesAt b none text
  | cat a b, places => b.ends text (a.ends text places)
  | alt a b, places => a.ends text places ||| b.ends text places
  | rep least most a, places =>
    let bound := text.length + 1
    let start := exactly (a.ends text) (min bound least) places
    let more := match most with
      | none => bound
      | some most => min bound (most - least)
    upTo (a.ends text) more start start
  | group a, places => a.ends text places

def search (r : Regex) (text : String) : Bool :=
  r.ends text.toList ((1 <<< (text.toList.length + 1)) - 1) != 0

end Regex

end ScopeForest
