import ScopeForest.Json.Basic
import ScopeForest.Text.Decimal

namespace ScopeForest.Json

def isSpace (c : Char) : Bool := c == ' ' || c == '\n' || c == '\t' || c == '\r'

def skipSpace (cs : List Char) : List Char := cs.dropWhile isSpace

inductive Piece
  | char (c : Char)
  | unit (n : Nat)
  deriving DecidableEq, Repr

def isHighUnit (n : Nat) : Bool := 0xD800 ≤ n && n ≤ 0xDBFF

def isLowUnit (n : Nat) : Bool := 0xDC00 ≤ n && n ≤ 0xDFFF

def joinUnits (high low : Nat) : Char :=
  Char.ofNat (0x10000 + (high - 0xD800) * 0x400 + (low - 0xDC00))

/-- The characters that pieces stand for. A high unit needs a low unit right behind it, and a low
unit a high one in front. -/
def joinPieces : List Piece → Option (List Char)
  | [] => some []
  | .char c :: ps => (joinPieces ps).map (c :: ·)
  | .unit h :: .unit l :: ps =>
    if isHighUnit h then
      if isLowUnit l then (joinPieces ps).map (joinUnits h l :: ·) else none
    else if isLowUnit h then none
    else (joinPieces (.unit l :: ps)).map (Char.ofNat h :: ·)
  | .unit u :: ps =>
    if isHighUnit u || isLowUnit u then none else (joinPieces ps).map (Char.ofNat u :: ·)

def escaped? : Char → Option Char
  | '"' => some '"'
  | '\\' => some '\\'
  | '/' => some '/'
  | 'b' => some '\x08'
  | 'f' => some '\x0c'
  | 'n' => some '\n'
  | 'r' => some '\r'
  | 't' => some '\t'
  | _ => none

def pieces : List Char → Option (List Piece × List Char)
  | [] => none
  | '"' :: cs => some ([], cs)
  | '\\' :: 'u' :: a :: b :: c :: d :: cs => do
    let n ← Text.hexDigits? [a, b, c, d]
    let (ps, rest) ← pieces cs
    return (.unit n :: ps, rest)
  | '\\' :: e :: cs => do
    let c ← escaped? e
    let (ps, rest) ← pieces cs
    return (.char c :: ps, rest)
  | c :: cs =>
    if c.toNat < 32 then none
    else do
      let (ps, rest) ← pieces cs
      return (.char c :: ps, rest)

/-- The string behind an opening quote, or `none` in its place if its escapes name no characters. -/
def stringBody (cs : List Char) : Option (Option String × List Char) := do
  let (ps, rest) ← pieces cs
  return ((joinPieces ps).map String.ofList, rest)

def spanDigits (cs : List Char) : List Char × List Char := cs.span Char.isDigit

def fraction (cs : List Char) : Option (List Char × List Char) :=
  match cs with
  | '.' :: cs =>
    let (ds, rest) := spanDigits cs
    if ds = [] then none else some ('.' :: ds, rest)
  | cs => some ([], cs)

def exponent (cs : List Char) : Option (List Char × List Char) :=
  match cs with
  | [] => some ([], [])
  | e :: cs =>
    if e = 'e' ∨ e = 'E' then
      let (sign, cs) := match cs with
        | '+' :: cs => (['+'], cs)
        | '-' :: cs => (['-'], cs)
        | cs => ([], cs)
      let (ds, rest) := spanDigits cs
      if ds = [] then none else some (e :: (sign ++ ds), rest)
    else some ([], e :: cs)

/-- The whole part of a number: a single zero, or digits that do not start with one. -/
def whole (cs : List Char) : Option (List Char × List Char) :=
  match cs with
  | '0' :: cs => some (['0'], cs)
  | cs =>
    let (ds, rest) := spanDigits cs
    if ds = [] then none else some (ds, rest)

def numeral (cs : List Char) : Option (Json × List Char) := do
  let (sign, cs) := match cs with
    | '-' :: cs => (['-'], cs)
    | cs => ([], cs)
  let (ds, cs) ← whole cs
  let (fs, cs) ← fraction cs
  let (es, cs) ← exponent cs
  let lexeme := sign ++ ds ++ fs ++ es
  return (if lexeme = ds then nat (Nat.ofDigitChars 10 ds 0) else number (String.ofList lexeme), cs)

def keyword? : List Char → Option (Json × List Char)
  | 'n' :: 'u' :: 'l' :: 'l' :: cs => some (null, cs)
  | 't' :: 'r' :: 'u' :: 'e' :: cs => some (bool true, cs)
  | 'f' :: 'a' :: 'l' :: 's' :: 'e' :: cs => some (bool false, cs)
  | _ => none

def expect (c : Char) (cs : List Char) : Option (List Char) :=
  match skipSpace cs with
  | d :: cs => if d = c then some cs else none
  | [] => none

mutual

def value : Nat → List Char → Option (Json × List Char)
  | 0, _ => none
  | fuel + 1, cs => match skipSpace cs with
    | '"' :: cs => do
      let (s, rest) ← stringBody cs
      return ((s.map str).getD garbled, rest)
    | '[' :: cs => match skipSpace cs with
      | ']' :: rest => some (arr [], rest)
      | cs => do
        let (vs, rest) ← items fuel cs
        return (arr vs, rest)
    | '\x7b' :: cs => match skipSpace cs with
      | '\x7d' :: rest => some (obj [], rest)
      | cs => do
        let (fs, rest) ← members fuel cs
        return ((fs.map obj).getD garbled, rest)
    | cs => keyword? cs <|> numeral cs

def items : Nat → List Char → Option (List Json × List Char)
  | 0, _ => none
  | fuel + 1, cs => do
    let (v, cs) ← value fuel cs
    match skipSpace cs with
    | ']' :: rest => return ([v], rest)
    | ',' :: cs =>
      let (vs, rest) ← items fuel cs
      return (v :: vs, rest)
    | _ => none

/-- At least one field, up to the closing brace; `none` in place of the fields if a key is
garbled. -/
def members : Nat → List Char → Option (Option (List (String × Json)) × List Char)
  | 0, _ => none
  | fuel + 1, cs => do
    let (key, cs) ← stringBody (← expect '"' cs)
    let (v, cs) ← value fuel (← expect ':' cs)
    match skipSpace cs with
    | '\x7d' :: rest => return (key.map fun k ↦ [(k, v)], rest)
    | ',' :: cs =>
      let (fs, rest) ← members fuel cs
      return (do return (← key, v) :: (← fs), rest)
    | _ => none

end

def read? (text : String) : Option Json := do
  let cs := text.toList
  let (v, rest) ← value (2 * cs.length + 2) cs
  if skipSpace rest = [] then some v else none

end ScopeForest.Json
