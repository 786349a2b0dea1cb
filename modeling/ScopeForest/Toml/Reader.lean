import ScopeForest.Toml.Moment
import ScopeForest.Toml.Number
import ScopeForest.Toml.Text
import ScopeForest.Toml.Tree

namespace ScopeForest.Toml

def skipBlank (cs : List Char) : List Char := cs.dropWhile fun c ↦ c == ' ' || c == '\t'

def endLine (cs : List Char) : Option (List Char) :=
  let cs := skipBlank cs
  let comment := if cs.head? = some '#' then cs.takeWhile (· ≠ '\n') else []
  if comment.any isControl then none
  else match cs.drop comment.length with
    | [] => some []
    | '\n' :: cs => some cs
    | _ => none

/-- Blanks, comments and line breaks, with fuel for one line a round. -/
def skipLines : Nat → List Char → Option (List Char)
  | 0, cs => some cs
  | fuel + 1, cs => match skipBlank cs with
    | '\n' :: cs => skipLines fuel cs
    | '#' :: cs => do skipLines fuel (← endLine ('#' :: cs))
    | cs => some cs

def isBare (c : Char) : Bool := c.isAlphanum || c == '_' || c == '-'

def keyPart : List Char → Option (String × List Char)
  | '"' :: cs => (basic (cs.length + 1) cs).map fun (text, rest) ↦ (String.ofList text, rest)
  | '\'' :: cs => (literal cs).map fun (text, rest) ↦ (String.ofList text, rest)
  | cs =>
    let word := cs.takeWhile isBare
    if word.isEmpty then none else some (String.ofList word, cs.drop word.length)

def dottedKey : Nat → List Char → Option (List String × List Char)
  | 0, _ => none
  | fuel + 1, cs => do
    let (part, rest) ← keyPart (skipBlank cs)
    match skipBlank rest with
    | '.' :: rest => do
      let (parts, rest) ← dottedKey fuel rest
      some (part :: parts, rest)
    | rest => some ([part], rest)

/-- How deeply values may nest, and how many parts a key may have. -/
def nestingLimit : Nat := 79

def key? (cs : List Char) : Option (List String × List Char) :=
  (dottedKey cs.length cs).filter fun (keys, _) ↦ keys.length ≤ nestingLimit

def isWord (c : Char) : Bool := c.isAlphanum || c == '_' || c == '+' || c == '-' || c == '.'

/-- A value that is no array and no table. A date or a time is an object with a single field. -/
def scalar? (cs : List Char) : Option (Json × List Char) := do
  match ← string? cs with
  | (some text, rest) => some (.str text, rest)
  | (none, cs) => match afterMoment? cs with
    | some rest =>
      let text := String.ofList (cs.take (cs.length - rest.length))
      some (Json.tagged "date and time" (.str text), rest)
    | none =>
      let word := cs.takeWhile isWord
      some (← word? word, cs.drop word.length)

mutual

def value : Nat → Nat → List Char → Option (Json × List Char)
  | 0, _, _ => none
  | _ + 1, 0, '[' :: _ => none
  | _ + 1, 0, '\x7b' :: _ => none
  | fuel + 1, levels + 1, '[' :: cs => do
    let (items, rest) ← items fuel levels cs
    some (.arr items, rest)
  | fuel + 1, levels + 1, '\x7b' :: cs => match skipBlank cs with
    | '\x7d' :: rest => some (.obj [], rest)
    | cs => do
      let (entries, rest) ← pairs fuel levels [] cs
      some (.obj (entriesToJson entries), rest)
  | _ + 1, _, cs => scalar? cs

def items : Nat → Nat → List Char → Option (List Json × List Char)
  | 0, _, _ => none
  | fuel + 1, levels, cs => do
    match ← skipLines cs.length cs with
    | ']' :: rest => some ([], rest)
    | cs =>
      let (v, rest) ← value fuel levels cs
      match ← skipLines rest.length rest with
      | ',' :: rest =>
        let (vs, rest) ← items fuel levels rest
        some (v :: vs, rest)
      | ']' :: rest => some ([v], rest)
      | _ => none

def pairs : Nat → Nat → Entries → List Char → Option (Entries × List Char)
  | 0, _, _, _ => none
  | fuel + 1, levels, entries, cs => do
    let (keys, rest) ← key? cs
    match skipBlank rest with
    | '=' :: rest =>
      let (v, rest) ← value fuel levels (skipBlank rest)
      let entries ← entries.set v keys
      match skipBlank rest with
      | ',' :: rest => pairs fuel levels entries rest
      | '\x7d' :: rest => some (entries, rest)
      | _ => none
    | _ => none

end

def header (cs : List Char) : Option (Bool × List String × List Char) :=
  match cs with
  | '[' :: cs => do
    match ← key? cs with
    | (keys, ']' :: ']' :: rest) => some (true, keys, rest)
    | _ => none
  | cs => do
    match ← key? cs with
    | (keys, ']' :: rest) => some (false, keys, rest)
    | _ => none

def lines : Nat → List String → Entries → List Char → Option Entries
  | 0, _, _, _ => none
  | fuel + 1, path, entries, cs => match skipBlank cs with
    | [] => some entries
    | '\n' :: cs => lines fuel path entries cs
    | '#' :: cs => do lines fuel path entries (← endLine ('#' :: cs))
    | '[' :: cs => do
      let (next, keys, rest) ← header cs
      let entries ← if next then entries.openNext keys else entries.openTable keys
      lines fuel keys entries (← endLine rest)
    | cs => do
      let (keys, rest) ← key? cs
      match skipBlank rest with
      | '=' :: rest => do
        let (v, rest) ← value (rest.length + 1) nestingLimit (skipBlank rest)
        lines fuel path (← entries.setAt keys v path) (← endLine rest)
      | _ => none

def normalizeBreaks : List Char → List Char
  | '\r' :: '\n' :: cs => '\n' :: normalizeBreaks cs
  | c :: cs => c :: normalizeBreaks cs
  | [] => []

def dropMark : List Char → List Char
  | '\ufeff' :: cs => cs
  | cs => cs

def read? (text : String) : Option Json := do
  let cs := normalizeBreaks (dropMark text.toList)
  let entries ← lines (cs.length + 1) [] [] cs
  some (.obj (entriesToJson entries))

end ScopeForest.Toml
