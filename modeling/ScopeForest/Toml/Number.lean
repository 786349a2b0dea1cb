import ScopeForest.Json.Basic
import ScopeForest.Text.Blank
import ScopeForest.Text.Decimal

namespace ScopeForest.Toml

def digitGroups? (isDigit : Char → Bool) (cs : List Char) : Option (List Char) :=
  let groups := Text.splitChars '_' cs
  if groups.all fun g ↦ !g.isEmpty && g.all isDigit then some groups.flatten else none

def decimalDigits? (cs : List Char) : Option (List Char) := do
  let ds ← digitGroups? Char.isDigit cs
  if ds.length > 1 ∧ ds.head? = some '0' then none else some ds

def isHexDigit (c : Char) : Bool := (Text.hexDigit? c).isSome

def radix? : List Char → Option Nat
  | '0' :: 'x' :: cs => do Text.hexDigits? (← digitGroups? isHexDigit cs)
  | '0' :: 'o' :: cs => do
    return Nat.ofDigitChars 8 (← digitGroups? (fun c ↦ '0' ≤ c && c ≤ '7') cs) 0
  | '0' :: 'b' :: cs => do
    return Nat.ofDigitChars 2 (← digitGroups? (fun c ↦ c == '0' || c == '1') cs) 0
  | _ => none

/-- The bound of whole numbers, which only a negative one reaches. -/
def wordBound : Nat := 9223372036854775808

def whole? (cs : List Char) : Option Json :=
  match cs with
  | '-' :: ds => do
    let n := Nat.ofDigitChars 10 (← decimalDigits? ds) 0
    if n = 0 then some (.nat 0)
    else if n ≤ wordBound then some (.number (String.ofList cs))
    else none
  | cs => do
    let ds := match cs with
      | '+' :: ds => ds
      | ds => ds
    let n ← radix? cs <|> (decimalDigits? ds).map (Nat.ofDigitChars 10 · 0)
    if n < wordBound then some (.nat n) else none

def exponent? (cs : List Char) : Option Int := do
  let n := Nat.ofDigitChars 10 (← digitGroups? Char.isDigit (Text.dropSign cs)) 0
  some (if cs.head? = some '-' then -n else n)

/-- The least number that a double precision number rounds to infinity. -/
def infinityBound : Nat := (1 <<< 1024) - (1 <<< 970)

/-- Whether the number with the given digits and power of ten is rounded to infinity. It is not
written out where the number of its digits decides. -/
def overflows (digits : List Char) (power : Int) : Bool :=
  let digits := digits.dropWhile (· == '0')
  let places := digits.length + power
  let n := Nat.ofDigitChars 10 digits 0
  !digits.isEmpty && (310 < places ||
    (300 < places && infinityBound * Nat.pow 10 (-power).toNat ≤ n * Nat.pow 10 power.toNat))

def fraction? (cs : List Char) : Option Json := do
  let isMark (c : Char) : Bool := c == 'e' || c == 'E'
  let body := Text.dropSign cs
  let word := body.takeWhile fun c ↦ c ≠ '.' ∧ !isMark c
  let whole ← decimalDigits? word
  let (places, rest) ← match body.drop word.length with
    | '.' :: cs =>
      let word := cs.takeWhile (!isMark ·)
      (digitGroups? Char.isDigit word).map (·, cs.drop word.length)
    | rest => some ([], rest)
  let power ← match rest with
    | [] => if places.isEmpty then none else some 0
    | _ :: cs => exponent? cs
  if cs.head? ≠ some '-' ∧ overflows (whole ++ places) (power - places.length) then none
  else some (.number (String.ofList cs))

def special? (cs : List Char) : Option Json :=
  let body := Text.dropSign cs
  if body = "inf".toList ∨ body = "nan".toList then some (.number (String.ofList cs)) else none

def word? (cs : List Char) : Option Json :=
  if cs = "true".toList then some (.bool true)
  else if cs = "false".toList then some (.bool false)
  else whole? cs <|> fraction? cs <|> special? cs

end ScopeForest.Toml
