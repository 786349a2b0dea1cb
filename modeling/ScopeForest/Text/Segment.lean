namespace ScopeForest.Text

/-- What stands after the last separator, if there is one, `depth` brackets being open. -/
def afterSeparator : Nat → List Char → Option (List Char)
  | _, [] => none
  | 0, ':' :: ':' :: cs => some ((afterSeparator 0 cs).getD cs)
  | depth, '<' :: cs => afterSeparator (depth + 1) cs
  | depth, '>' :: cs => afterSeparator (depth - 1) cs
  | depth, _ :: cs => afterSeparator depth cs

def lastSegment? (name : String) : Option String :=
  (afterSeparator 0 name.toList).map String.ofList

def lastSegment (name : String) : String := (lastSegment? name).getD name

/-- Where the last segment begins, `i` bytes having been passed and `depth` brackets being open. -/
def segmentStart : Nat → Nat → List UInt8 → Option Nat
  | _, _, [] => none
  | i, 0, 0x3A :: 0x3A :: bs => (segmentStart (i + 2) 0 bs).or (some (i + 2))
  | i, depth, 0x3C :: bs => segmentStart (i + 1) (depth + 1) bs
  | i, depth, 0x3E :: bs => segmentStart (i + 1) (depth - 1) bs
  | i, depth, _ :: bs => segmentStart (i + 1) depth bs

def lastSegmentStart? (name : String) : Option Nat := segmentStart 0 0 name.toByteArray.data.toList

/-- Separators inside angle brackets count here. -/
def hasSeparator : List Char → Bool
  | ':' :: ':' :: _ => true
  | _ :: cs => hasSeparator cs
  | [] => false

def dropRoot (name : String) : String :=
  match name.toList with
  | ':' :: ':' :: cs => String.ofList cs
  | _ => name

end ScopeForest.Text
