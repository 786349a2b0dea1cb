namespace ScopeForest.Text

def digits? (cs : List Char) : Option Nat :=
  if cs ≠ [] ∧ cs.all Char.isDigit then some (Nat.ofDigitChars 10 cs 0) else none

def unsigned? (cs : List Char) : Option Nat :=
  match cs with
  | '+' :: cs => digits? cs
  | cs => digits? cs

def decimal? (bound : Nat) (text : String) : Option Nat :=
  (unsigned? text.toList).filter (· ≤ bound)

def maxWord32 : Nat := 4294967295

def maxWord64 : Nat := 18446744073709551615

def hex (n : Nat) : String := String.ofList (Nat.toDigits 16 n)

def hexDigit? (c : Char) : Option Nat :=
  if '0' ≤ c ∧ c ≤ '9' then some (c.toNat - '0'.toNat)
  else if 'a' ≤ c ∧ c ≤ 'f' then some (c.toNat - 'a'.toNat + 10)
  else if 'A' ≤ c ∧ c ≤ 'F' then some (c.toNat - 'A'.toNat + 10)
  else none

def hexDigits? (cs : List Char) : Option Nat :=
  if cs = [] then none else cs.foldlM (fun n c ↦ (hexDigit? c).map (16 * n + ·)) 0

def charOfCode? (n : Nat) : Option Char :=
  if n.isValidChar then some (Char.ofNat n) else none

def dropSign : List Char → List Char
  | '+' :: cs => cs
  | '-' :: cs => cs
  | cs => cs

end ScopeForest.Text
