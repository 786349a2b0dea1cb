import ScopeForest.CharSet

namespace ScopeForest.Text

abbrev ByteRanges := List (Nat × Nat)

/-- The numbers from `lo` to `hi`, in digits of 6 bits of which `n` follow the first one. As many
numbers as possible are put together whose last digits are free. -/
def digitRanges : Nat → Nat → Nat → List ByteRanges
  | 0, lo, hi => [[(lo, hi)]]
  | n + 1, lo, hi =>
    let width := 1 <<< (6 * (n + 1))
    let under (head : Nat × Nat) (lo hi : Nat) : List ByteRanges :=
      (digitRanges n lo hi).map (head :: ·)
    let first := lo / width
    let last := hi / width
    if first = last then under (first, first) (lo % width) (hi % width)
    else
      let startsFull := lo % width = 0
      let endsFull := hi % width = width - 1
      let lo' := if startsFull then first else first + 1
      let hi' := if endsFull then last + 1 else last
      (if startsFull then [] else under (first, first) (lo % width) (width - 1)) ++
        (if lo' < hi' then under (lo', hi' - 1) 0 (width - 1) else []) ++
        (if endsFull then [] else under (last, last) 0 (hi % width))

/-- The bytes of digits: the first one tells how many follow. -/
def markBytes (lead : Nat) : ByteRanges → ByteRanges
  | [] => []
  | r :: rest => (r.1 + lead, r.2 + lead) :: rest.map fun r ↦ (r.1 + 0x80, r.2 + 0x80)

/-- The code points with encodings of one length: how many bytes follow the first, what marks it,
and the first and last of them. -/
def encodingLengths : List (Nat × Nat × Nat × Nat) :=
  [(0, 0, 0, 0x7F), (1, 0xC0, 0x80, 0x7FF), (2, 0xE0, 0x800, 0xD7FF), (2, 0xE0, 0xE000, 0xFFFF),
    (3, 0xF0, 0x10000, 0x10FFFF)]

def runByteRanges (run : Nat × Nat) : List ByteRanges :=
  encodingLengths.flatMap fun (follow, lead, first, last) ↦
    let lo := max first run.1
    let hi := min last run.2
    if lo ≤ hi then (digitRanges follow lo hi).map (markBytes lead) else []

def byteRanges (s : CharSet) : List ByteRanges := s.runs.flatMap runByteRanges

def utf8Bytes (c : Char) : List Nat :=
  (byteRanges (CharSet.single c)).flatten.map Prod.fst

end ScopeForest.Text
