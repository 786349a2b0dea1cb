import ScopeForest.Json.Overlay
import ScopeForest.Text.Blank
import ScopeForest.Toml.Text

namespace ScopeForest.Environment

def afterMark? : List Char → Option (List Char)
  | d :: g :: '_' :: cs => if d.toLower = 'd' ∧ g.toLower = 'g' then some cs else none
  | _ => none

def dotted : List Char → List Char
  | '_' :: '_' :: cs => '.' :: dotted cs
  | c :: cs => c :: dotted cs
  | [] => []

/-- A name begins with `DG_` in any case; what follows is a path whose parts are divided by two
underscores. -/
def path? (name : String) : Option (List String) := do
  let rest ← afterMark? (Text.trimChars name.toList)
  let parts := Text.splitChars '.' (Text.trimChars (dotted (rest.map Char.toLower)))
  if parts.any List.isEmpty then none else some (parts.map String.ofList)

def allDigits (cs : List Char) : Bool := cs.all Char.isDigit

/-- A number with a point: digits on one side of it at least, and perhaps an exponent. -/
def isFraction (cs : List Char) : Bool :=
  let cs := Text.dropSign cs
  let whole := cs.takeWhile Char.isDigit
  match cs.drop whole.length with
  | '.' :: cs =>
    let places := cs.takeWhile Char.isDigit
    !(whole ++ places).isEmpty && match cs.drop places.length with
      | [] => true
      | e :: cs =>
        let digits := Text.dropSign cs
        (e == 'e' || e == 'E') && !digits.isEmpty && allDigits digits
  | _ => false

def isSeparator (c : Char) : Bool :=
  c == ',' || c == '[' || c == ']' || c == '\x7b' || c == '\x7d'

def plainValue (cs : List Char) : Json :=
  let text := String.ofList cs
  if isFraction cs then .number text
  else match Text.decimal? Text.maxWord64 text with
    | some n => .nat n
    | none => match cs with
      | '-' :: ds => match Text.digits? ds with
        | some n =>
          if n = 0 then .nat 0
          else if n ≤ 9223372036854775808 then .number text
          else .str text
        | none => .str text
      | _ => .str text

def isSpace (c : Char) : Bool := c == ' ' || c == '\t' || c == '\n' || c == '\x0c' || c == '\r'

def skipSpace (cs : List Char) : List Char := cs.dropWhile isSpace

def string? (cs : List Char) : Option (String × List Char) :=
  (Toml.basic (cs.length + 1) cs).map fun (text, rest) ↦ (String.ofList text, rest)

def isName (c : Char) : Bool := c.isAlphanum || c == '_' || c == '-'

def key? (cs : List Char) : Option (String × List Char) := do
  let (key, rest) ← match skipSpace cs with
    | '"' :: cs => string? cs
    | cs =>
      let name := cs.takeWhile isName
      if name.isEmpty then none else some (String.ofList name, cs.drop name.length)
  match skipSpace rest with
  | '=' :: rest => some (key, rest)
  | _ => none

mutual

def value? : Nat → List Char → Option (Json × List Char)
  | 0, _ => none
  | fuel + 1, cs => do
    let (v, rest) ← match skipSpace cs with
      | 't' :: 'r' :: 'u' :: 'e' :: rest => some (.bool true, rest)
      | 'f' :: 'a' :: 'l' :: 's' :: 'e' :: rest => some (.bool false, rest)
      | '\x7b' :: rest => (pairs? fuel [] rest).map fun (fields, rest) ↦ (.obj fields, rest)
      | '[' :: rest => (items? fuel rest).map fun (items, rest) ↦ (.arr items, rest)
      | '"' :: rest => (string? rest).map fun (text, rest) ↦ (.str text, rest)
      | '\'' :: rest => match rest with
        | c :: '\'' :: rest => some (.str c.toString, rest)
        | _ => none
      | cs =>
        let word := cs.takeWhile (!isSeparator ·)
        if word.isEmpty then none
        else some (plainValue (Text.trimChars word), cs.drop word.length)
    some (v, skipSpace rest)

def items? : Nat → List Char → Option (List Json × List Char)
  | 0, _ => none
  | _ + 1, ']' :: rest => some ([], rest)
  | fuel + 1, cs => do
    match ← value? fuel cs with
    | (v, ',' :: rest) =>
      let (vs, rest) ← items? fuel rest
      some (v :: vs, rest)
    | (v, ']' :: rest) => some ([v], rest)
    | _ => none

def pairs? : Nat → List (String × Json) → List Char → Option (List (String × Json) × List Char)
  | 0, _, _ => none
  | _ + 1, fields, '\x7d' :: rest => some (fields, rest)
  | fuel + 1, fields, cs => do
    let (key, rest) ← key? cs
    match ← value? fuel rest with
    | (v, ',' :: rest) => pairs? fuel (Json.setField fields key v) rest
    | (v, '\x7d' :: rest) => some (Json.setField fields key v, rest)
    | _ => none

end

def value (text : String) : Json :=
  match value? (text.toList.length + 1) text.toList with
  | some (v, []) => v
  | _ => .str text

def layer (entry : String × String) : Json :=
  match path? entry.1 with
  | none => .obj []
  | some path => Json.nest path (value entry.2)

def layers (entries : List (String × String)) : Json :=
  (entries.map layer).foldl Json.overlay (.obj [])

end ScopeForest.Environment
