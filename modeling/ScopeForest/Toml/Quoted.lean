import ScopeForest.Toml.Text

namespace ScopeForest.Toml

def longestRun (c : Char) : Nat → List Char → Nat
  | run, [] => run
  | run, d :: ds =>
    if d = c then longestRun c (run + 1) ds else max run (longestRun c 0 ds)

def hexFour (n : Nat) : List Char :=
  let digits := (Nat.toDigits 16 n).map Char.toUpper
  List.replicate (4 - digits.length) '0' ++ digits

def escapeChar (c : Char) : List Char :=
  match c with
  | '\x08' => ['\\', 'b']
  | '\t' => ['\\', 't']
  | '\x0c' => ['\\', 'f']
  | '\r' => ['\\', 'r']
  | '\\' => ['\\', '\\']
  | c => if isControl c then '\\' :: 'u' :: hexFour c.toNat else [c]

def escapeLine : List Char → List Char
  | [] => []
  | '\n' :: cs => '\\' :: 'n' :: escapeLine cs
  | '"' :: cs => '\\' :: '"' :: escapeLine cs
  | c :: cs => escapeChar c ++ escapeLine cs

/-- The body of a string in three quotation marks, after a number of quotation marks. Two of them
may stand together, the third is escaped. -/
def escapeLines : Nat → List Char → List Char
  | _, [] => []
  | _, '\n' :: cs => '\n' :: escapeLines 0 cs
  | quotes, '"' :: cs =>
    if quotes < 2 then '"' :: escapeLines (quotes + 1) cs
    else '\\' :: '"' :: escapeLines 0 cs
  | _, c :: cs => escapeChar c ++ escapeLines 0 cs

/-- In quotation marks if nothing must be escaped, else in apostrophes if nothing forbids it, else
in three marks, and with escapes only as a last resort. -/
def quotedChars (cs : List Char) : List Char :=
  let broken := cs.contains '\n'
  let lead := if broken then ['\n'] else []
  let triple (c : Char) (body : List Char) : List Char := [c, c, c] ++ lead ++ body ++ [c, c, c]
  let double := longestRun '"' 0 cs
  let single := longestRun '\'' 0 cs
  let plain := !cs.any fun c ↦ isControl c && c != '\n'
  let straight := !cs.contains '\\'
  if plain && straight && double = 0 && !broken then '"' :: escapeLine cs ++ ['"']
  else if plain && single = 0 && !broken then '\'' :: cs ++ ['\'']
  else if plain && straight && double ≤ 2 then triple '"' (escapeLines 0 cs)
  else if plain && single ≤ 2 then triple '\'' cs
  else if broken then triple '"' (escapeLines 0 cs)
  else '"' :: escapeLine cs ++ ['"']

def quoted (text : String) : String := String.ofList (quotedChars text.toList)

end ScopeForest.Toml
