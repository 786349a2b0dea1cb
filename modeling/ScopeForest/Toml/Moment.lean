namespace ScopeForest.Toml

def field? (n least most : Nat) (cs : List Char) : Option (Nat × List Char) :=
  let digits := cs.take n
  let value := Nat.ofDigitChars 10 digits 0
  if digits.length = n ∧ digits.all Char.isDigit ∧ least ≤ value ∧ value ≤ most then
    some (value, cs.drop n)
  else none

def afterChar? (c : Char) : List Char → Option (List Char)
  | [] => none
  | d :: cs => if d = c then some cs else none

def isLeapYear (year : Nat) : Bool := year % 4 == 0 && (year % 100 != 0 || year % 400 == 0)

def daysOfMonth (year month : Nat) : Nat :=
  if month = 2 then (if isLeapYear year then 29 else 28)
  else if [4, 6, 9, 11].contains month then 30 else 31

def afterDate? (cs : List Char) : Option (List Char) := do
  let (year, cs) ← field? 4 0 9999 cs
  let (month, cs) ← field? 2 1 12 (← afterChar? '-' cs)
  let (_, cs) ← field? 2 1 (daysOfMonth year month) (← afterChar? '-' cs)
  some cs

/-- A time of day, which may be that of a leap second. -/
def afterTime? (cs : List Char) : Option (List Char) := do
  let (_, cs) ← field? 2 0 23 cs
  let (_, cs) ← field? 2 0 59 (← afterChar? ':' cs)
  let (_, cs) ← field? 2 0 60 (← afterChar? ':' cs)
  match cs with
  | '.' :: places =>
    let rest := places.dropWhile Char.isDigit
    some (if rest.length < places.length then rest else cs)
  | cs => some cs

def afterOffset? : List Char → Option (List Char)
  | [] => some []
  | c :: cs =>
    if c = 'Z' ∨ c = 'z' then some cs
    else if c = '+' ∨ c = '-' then do
      let (_, cs) ← field? 2 0 23 cs
      let (_, cs) ← field? 2 0 59 (← afterChar? ':' cs)
      some cs
    else some (c :: cs)

def afterMoment? (cs : List Char) : Option (List Char) :=
  match afterDate? cs with
  | none => afterTime? cs
  | some [] => some []
  | some (c :: rest) =>
    if c = 'T' ∨ c = 't' ∨ c = ' ' then
      match afterTime? rest with
      | some rest => afterOffset? rest
      | none => some (c :: rest)
    else some (c :: rest)

end ScopeForest.Toml
