import ScopeForest.Text.Blank
import ScopeForest.Text.Decimal

namespace ScopeForest

/-- Flags, each with a name and a bit of its own, in a word of `width` bits. -/
class FlagNames (F : Type) where
  all : List F
  name : F → String
  bit : F → Nat
  width : Nat

/-- Bits without a name are kept and written as a number. -/
structure FlagSet (F : Type) where
  bits : Nat
  deriving DecidableEq, Repr

namespace FlagSet

variable {F : Type} [FlagNames F]

open FlagNames

def has (s : FlagSet F) (f : F) : Bool := s.bits.testBit (bit f)

def insert (s : FlagSet F) (f : F) : FlagSet F := ⟨s.bits ||| 1 <<< bit f⟩

def union (s t : FlagSet F) : FlagSet F := ⟨s.bits ||| t.bits⟩

instance : EmptyCollection (FlagSet F) := ⟨⟨0⟩⟩

def ofPred (p : F → Bool) : FlagSet F := ((all : List F).filter p).foldl insert ∅

def unnamed (s : FlagSet F) : Nat :=
  (all : List F).foldl (fun n f ↦ if n.testBit (bit f) then n - 1 <<< bit f else n) s.bits

def text (s : FlagSet F) : String :=
  let names := ((all : List F).filter s.has).map name
  let rest := if s.unnamed = 0 then [] else ["0x" ++ Text.hex s.unnamed]
  " | ".intercalate (names ++ rest)

/-- One piece of a text: the name of a flag, or a number in base 16 that fits the word. -/
def ofPiece? (cs : List Char) : Option (FlagSet F) :=
  match cs with
  | '0' :: 'x' :: ds =>
    let ds := match ds with
      | '+' :: ds => ds
      | ds => ds
    (Text.hexDigits? ds).bind fun n ↦ if n < 1 <<< width F then some ⟨n⟩ else none
  | cs => ((all : List F).find? fun f ↦ name f == String.ofList cs).map (insert ∅)

def ofText? (text : String) : Option (FlagSet F) :=
  if Text.trimChars text.toList = [] then some ∅
  else (Text.splitChars '|' text.toList).foldlM
    (fun s piece ↦ (ofPiece? (Text.trimChars piece)).map s.union) ∅

end FlagSet

end ScopeForest
