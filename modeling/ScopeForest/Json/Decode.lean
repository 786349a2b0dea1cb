import ScopeForest.Json.Basic

namespace ScopeForest.Json

inductive Slot
  | given (v : Json)
  | absent
  /-- The array of fields ends before this one. -/
  | cut
  deriving Repr, BEq

namespace Slot

variable {α : Type}

def required (decode : Json → Option α) : Slot → Option α
  | given v => decode v
  | _ => none

def withDefault (default : α) (decode : Json → Option α) : Slot → Option α
  | given v => decode v
  | _ => some default

def optional (decode : Json → Option α) : Slot → Option (Option α)
  | given null => some none
  | given v => (decode v).map some
  | absent => some none
  | cut => none

end Slot

def slotsOfObject? (names : List String) (fields : List (String × Json)) : Option (String → Slot) :=
  if names.all fun n ↦ fields.countP (·.1 == n) ≤ 1 then
    some fun n ↦ match fields.lookup n with
      | some v => .given v
      | none => .absent
  else none

def slotsOfArray? (names : List String) (items : List Json) : Option (String → Slot) :=
  if items.length ≤ names.length then
    some fun n ↦ match items[names.idxOf n]? with
      | some v => .given v
      | none => .cut
  else none

/-- A structure is written as an object, whose unknown fields are skipped, or as an array of its
fields in order. -/
def slots? (names : List String) : Json → Option (String → Slot)
  | obj fields => slotsOfObject? names fields
  | arr items => slotsOfArray? names items
  | _ => none

def variant? : Json → Option (String × Option Json)
  | str name => some (name, none)
  | obj [(name, v)] => some (name, some v)
  | _ => none

def plainVariant? (v : Json) : Option String :=
  match v.variant? with
  | some (name, none) => some name
  | some (name, some null) => some name
  | _ => none

def bool? : Json → Option Bool
  | bool b => some b
  | _ => none

def str? : Json → Option String
  | str s => some s
  | _ => none

def nat? (bound : Nat) : Json → Option Nat
  | nat n => if n ≤ bound then some n else none
  | _ => none

def list? {α : Type} (decode : Json → Option α) : Json → Option (List α)
  | arr items => items.mapM decode
  | _ => none

end ScopeForest.Json
