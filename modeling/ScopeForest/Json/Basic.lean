namespace ScopeForest

/-- Whole numbers are kept as numbers and all others as they are written. The fields of an object
keep their order and may repeat. -/
inductive Json
  | null
  | bool (b : Bool)
  | nat (n : Nat)
  | number (lexeme : String)
  | str (s : String)
  | arr (items : List Json)
  | obj (fields : List (String × Json))
  /-- A string or object with an escape that names no character: it can be skipped, not read. -/
  | garbled
  deriving Inhabited, Repr, BEq

namespace Json

mutual

def depth : Json → Nat
  | arr items => depthItems items + 1
  | obj fields => depthFields fields + 1
  | _ => 0

def depthItems : List Json → Nat
  | [] => 0
  | v :: vs => max v.depth (depthItems vs)

def depthFields : List (String × Json) → Nat
  | [] => 0
  | (_, v) :: fs => max v.depth (depthFields fs)

end

def ofOption (v : Option Json) : Json := v.getD null

def ofStrings (texts : List String) : Json := arr (texts.map str)

def tagged (tag : String) (v : Json) : Json := obj [(tag, v)]

end Json

end ScopeForest
