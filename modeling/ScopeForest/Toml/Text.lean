import ScopeForest.Text.Decimal

namespace ScopeForest.Toml

def isControl (c : Char) : Bool := (c.toNat < 32 && c != '\t') || c.toNat == 127

def escaped? : Char → Option Char
  | 'b' => some '\x08'
  | 't' => some '\t'
  | 'n' => some '\n'
  | 'f' => some '\x0c'
  | 'r' => some '\r'
  | '"' => some '"'
  | '\\' => some '\\'
  | _ => none

def charOfHex? (digits : List Char) : Option Char :=
  (Text.hexDigits? digits).bind Text.charOfCode?

def escape? : List Char → Option (Char × List Char)
  | 'u' :: a :: b :: c :: d :: cs => (charOfHex? [a, b, c, d]).map (·, cs)
  | 'U' :: a :: b :: c :: d :: e :: f :: g :: h :: cs =>
    (charOfHex? [a, b, c, d, e, f, g, h]).map (·, cs)
  | e :: cs => (escaped? e).map (·, cs)
  | [] => none

def basic : Nat → List Char → Option (List Char × List Char)
  | 0, _ => none
  | _ + 1, [] => none
  | _ + 1, '"' :: cs => some ([], cs)
  | fuel + 1, '\\' :: cs => do
    let (char, rest) ← escape? cs
    let (text, rest) ← basic fuel rest
    some (char :: text, rest)
  | fuel + 1, c :: cs =>
    if isControl c then none else do
      let (text, rest) ← basic fuel cs
      some (c :: text, rest)

/-- What a run of at most two marks, or of three to five at the end of a string, stands for: how
many of them belong to the string, and whether it ends. -/
def markRun? (n : Nat) : Option (Nat × Bool) :=
  if n < 3 then some (n, false) else if n < 6 then some (n - 3, true) else none

/-- The line break that a backslash before it takes away, together with the blanks around it. -/
def brokenLine? (cs : List Char) : Option (List Char) :=
  match cs.dropWhile fun c ↦ c == ' ' || c == '\t' with
  | '\n' :: cs => some (cs.dropWhile fun c ↦ c == ' ' || c == '\t' || c == '\n')
  | _ => none

def multiBasic : Nat → List Char → Option (List Char × List Char)
  | 0, _ => none
  | _ + 1, [] => none
  | fuel + 1, '"' :: cs => do
    let run := '"' :: cs.takeWhile (· == '"')
    let (kept, ends) ← markRun? run.length
    let rest := cs.dropWhile (· == '"')
    if ends then some (run.take kept, rest)
    else
      let (text, rest) ← multiBasic fuel rest
      some (run ++ text, rest)
  | fuel + 1, '\\' :: cs => match brokenLine? cs with
    | some rest => multiBasic fuel rest
    | none => do
      let (char, rest) ← escape? cs
      let (text, rest) ← multiBasic fuel rest
      some (char :: text, rest)
  | fuel + 1, c :: cs =>
    if isControl c && c != '\n' then none else do
      let (text, rest) ← multiBasic fuel cs
      some (c :: text, rest)

def literal : List Char → Option (List Char × List Char)
  | [] => none
  | '\'' :: cs => some ([], cs)
  | c :: cs =>
    if isControl c then none else do
      let (text, rest) ← literal cs
      some (c :: text, rest)

def multiLiteral : Nat → List Char → Option (List Char × List Char)
  | 0, _ => none
  | _ + 1, [] => none
  | fuel + 1, '\'' :: cs => do
    let run := '\'' :: cs.takeWhile (· == '\'')
    let (kept, ends) ← markRun? run.length
    let rest := cs.dropWhile (· == '\'')
    if ends then some (run.take kept, rest)
    else
      let (text, rest) ← multiLiteral fuel rest
      some (run ++ text, rest)
  | fuel + 1, c :: cs =>
    if isControl c && c != '\n' then none else do
      let (text, rest) ← multiLiteral fuel cs
      some (c :: text, rest)

/-- A line break right after the opening marks is not part of a string. -/
def dropBreak : List Char → List Char
  | '\n' :: cs => cs
  | cs => cs

def string? (cs : List Char) : Option (Option String × List Char) :=
  let close (x : Option (List Char × List Char)) : Option (Option String × List Char) :=
    x.map fun (text, rest) ↦ (some (String.ofList text), rest)
  match cs with
  | '"' :: '"' :: '"' :: cs => close (multiBasic (cs.length + 1) (dropBreak cs))
  | '\'' :: '\'' :: '\'' :: cs => close (multiLiteral (cs.length + 1) (dropBreak cs))
  | '"' :: cs => close (basic (cs.length + 1) cs)
  | '\'' :: cs => close (literal cs)
  | cs => some (none, cs)

end ScopeForest.Toml
