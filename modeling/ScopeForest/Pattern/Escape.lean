import ScopeForest.Pattern.Property
import ScopeForest.Pattern.Regex
import ScopeForest.Text.Blank
import ScopeForest.Text.Decimal

namespace ScopeForest.Pattern

structure Flags where
  caseless : Bool := false
  multiline : Bool := false
  dotAll : Bool := false
  /-- White space and comments between the parts of a pattern are skipped. -/
  extended : Bool := false
  /-- The named sets are those of Unicode; if not, they are those of ASCII, and a set may hold
  nothing else. -/
  unicode : Bool := true
  /-- A carriage return ends a line too. -/
  wideLines : Bool := false
  deriving DecidableEq, Repr

namespace Flags

def set? (f : Flags) (letter : Char) (value : Bool) : Option Flags :=
  match letter with
  | 'i' => some { f with caseless := value }
  | 'm' => some { f with multiline := value }
  | 's' => some { f with dotAll := value }
  | 'x' => some { f with extended := value }
  | 'u' => some { f with unicode := value }
  | 'R' => some { f with wideLines := value }
  | 'U' => some f
  | _ => none

def fold (f : Flags) (s : CharSet) : CharSet :=
  if !f.caseless then s else if f.unicode then foldCase s else Unicode.foldAscii s

/-- The complement, if asked for. A set of ASCII has none, because it would break characters of
more than one byte apart. -/
def negate? (f : Flags) (negated : Bool) (s : CharSet) : Option CharSet :=
  if !negated then some s else if f.unicode then some s.compl else none

end Flags

def skipLayout (inComment : Bool) : List Char → List Char
  | [] => []
  | c :: cs =>
    if inComment then skipLayout (c != '\n') cs
    else if Text.isBlank c then skipLayout false cs
    else if c = '#' then skipLayout true cs
    else c :: cs

def Flags.skip (f : Flags) (cs : List Char) : List Char :=
  if f.extended then skipLayout false cs else cs

namespace Ascii

def letter : CharSet := CharSet.ofRanges [('A', 'Z'), ('a', 'z')]

def digit : CharSet := CharSet.range '0' '9'

def word : CharSet := CharSet.unions [letter, digit, CharSet.single '_']

def space : CharSet := CharSet.ofRanges [('\t', '\r'), (' ', ' ')]

end Ascii

def Flags.word (f : Flags) : CharSet := if f.unicode then Pattern.word else Ascii.word

def Flags.digit (f : Flags) : CharSet := if f.unicode then Pattern.digit else Ascii.digit

def Flags.space (f : Flags) : CharSet := if f.unicode then Unicode.whiteSpace else Ascii.space

/-- What an escape stands for. A character may be given by the two digits of a byte. -/
inductive Escape
  | char (c : Char) (byte : Bool)
  | cls (s : CharSet)
  | boundary (b : Boundary)
  deriving DecidableEq, Repr

def readFixedHex (f : Flags) : Nat → Nat → List Char → Option (Nat × List Char)
  | 0, code, cs => some (code, cs)
  | n + 1, code, cs => match f.skip cs with
    | [] => none
    | c :: cs => do
      let d ← Text.hexDigit? c
      readFixedHex f n (16 * code + d) cs

def readBraced (f : Flags) : Nat → List Char → Option (List Char × List Char)
  | 0, _ => none
  | fuel + 1, cs => match f.skip cs with
    | [] => none
    | '\x7d' :: rest => some ([], rest)
    | c :: rest => (readBraced f fuel rest).map fun (text, rest) ↦ (c :: text, rest)

def readHex (f : Flags) (digits : Nat) (cs : List Char) : Option (Escape × List Char) :=
  match f.skip cs with
  | '\x7b' :: cs => do
    let (code, rest) ← readBraced f (cs.length + 1) cs
    let c ← Text.charOfCode? (← Text.hexDigits? code)
    some (.char c false, rest)
  | cs => do
    let (code, rest) ← readFixedHex f digits 0 cs
    let c ← Text.charOfCode? code
    some (.char c (digits == 2), rest)

def readProperty (f : Flags) (negated : Bool) (cs : List Char) :
    Option (Escape × List Char) := do
  let (s, rest) ← match f.skip cs with
    | '\x7b' :: cs => do
      let (text, rest) ← readBraced f (cs.length + 1) cs
      some (← described? text, rest)
    | c :: cs => some (← named? [c], cs)
    | [] => none
  if f.unicode then some (.cls (← f.negate? negated (f.fold s)), rest) else none

def edgeNames : List (String × WordEdge) :=
  [("start", .start), ("end", .stop), ("start-half", .startHalf), ("end-half", .stopHalf)]

def readEdgeName (f : Flags) : Nat → List Char → List Char × List Char
  | 0, cs => ([], cs)
  | fuel + 1, cs => match f.skip cs with
    | [] => ([], [])
    | c :: rest =>
      if c.isAlpha || c == '-' then
        let (name, rest) := readEdgeName f fuel rest
        (c :: name, rest)
      else ([], c :: rest)

/-- An edge of a word, which a name in braces makes more precise. Braces that do not begin with a
letter are left for a repetition. -/
def readWordEdge (f : Flags) (cs : List Char) : Option (Escape × List Char) :=
  match cs with
  | '\x7b' :: rest => match readEdgeName f rest.length rest with
    | (_, []) => none
    | ([], _) => some (.boundary (.word f.word .edge), cs)
    | (name, '\x7d' :: rest) =>
      (edgeNames.lookup (String.ofList name)).map fun e ↦
        (.boundary (.word f.word e), rest)
    | _ => none
  | cs => some (.boundary (.word f.word .edge), cs)

/-- What follows a backslash. Letters and digits that are not listed are kept for later use; all
other ASCII characters stand for themselves. -/
def readEscape (f : Flags) : List Char → Option (Escape × List Char)
  | [] => none
  | c :: cs =>
    let cls (negated : Bool) (s : CharSet) : Option (Escape × List Char) :=
      (f.negate? negated s).map fun s ↦ (.cls s, cs)
    let char (c : Char) : Option (Escape × List Char) := some (.char c false, cs)
    let boundary (b : Boundary) : Option (Escape × List Char) := some (.boundary b, cs)
    match c with
    | 'x' => readHex f 2 cs
    | 'u' => readHex f 4 cs
    | 'U' => readHex f 8 cs
    | 'p' => readProperty f false cs
    | 'P' => readProperty f true cs
    | 'd' => cls false f.digit
    | 'D' => cls true f.digit
    | 's' => cls false f.space
    | 'S' => cls true f.space
    | 'w' => cls false f.word
    | 'W' => cls true f.word
    | 'a' => char '\x07'
    | 'f' => char '\x0c'
    | 't' => char '\t'
    | 'n' => char '\n'
    | 'r' => char '\r'
    | 'v' => char '\x0b'
    | 'A' => boundary .textStart
    | 'z' => boundary .textEnd
    | 'b' => readWordEdge f cs
    | 'B' => boundary (.word f.word .inner)
    | '<' => boundary (.word f.word .start)
    | '>' => boundary (.word f.word .stop)
    | c => if c.toNat < 128 && !c.isAlphanum then char c else none

end ScopeForest.Pattern
