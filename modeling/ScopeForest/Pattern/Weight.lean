import ScopeForest.Pattern.Regex
import ScopeForest.Text.Utf8

namespace ScopeForest.Regex

inductive Direction
  | forward | backward
  deriving DecidableEq, Repr

def stateWeight : Nat := 32

def forkWeight (branches : Nat) : Nat := stateWeight + 4 * branches

def rangesWeight (ranges : Nat) : Nat := stateWeight + 8 * ranges

def total (weights : List Nat) : Nat := weights.foldr (· + ·) 0

section Sets

open Text (ByteRanges)

def followers (seqs : List ByteRanges) : List (List ByteRanges) :=
  (seqs.splitBy fun a b ↦ a.head? == b.head?).map fun seqs ↦ seqs.map List.tail

/-- The states of a tree of sequences that are not at its leaves, each as what can follow it. -/
def innerStates : Nat → List ByteRanges → List (List ByteRanges)
  | 0, _ => []
  | fuel + 1, seqs =>
    if seqs = [[]] then [] else seqs :: (followers seqs).flatMap (innerStates fuel)

def treeEdges : Nat → List ByteRanges → Nat
  | 0, _ => 0
  | fuel + 1, seqs =>
    if seqs = [[]] then 0
    else total ((followers seqs).map fun rest ↦ treeEdges fuel rest + 1)

def longestEncoding : Nat := 4

/-- States that read a byte each, where those that are followed by the same are put together. -/
def sharedWeight (states : List (List ByteRanges)) : Nat :=
  let distinct := states.eraseDupsBy fun a b ↦ decide (a = b)
  total (distinct.map fun seqs ↦ rangesWeight (followers seqs).length)

def setWeight (d : Direction) (s : CharSet) : Nat :=
  match s.only? with
  | some c => stateWeight * c.utf8Size
  | none =>
    if s.isAscii then rangesWeight s.runs.length + stateWeight
    else
      let seqs := Text.byteRanges s
      match d with
      | .forward => sharedWeight (innerStates longestEncoding seqs) + stateWeight
      | .backward =>
        forkWeight seqs.length + stateWeight * treeEdges longestEncoding seqs + stateWeight

end Sets

section Words

def splitAtEmpty : List (List Nat) → List (List (List Nat))
  | [] => [[]]
  | word :: words =>
    if word.isEmpty then [] :: splitAtEmpty words
    else match splitAtEmpty words with
      | [] => [[word]]
      | chunk :: chunks => (word :: chunk) :: chunks

/-- A tree of words. Those that come after a word that has ended begin new edges, so that the order
of words is kept. -/
def wordsWeight : Nat → List (List Nat) → Nat
  | 0, _ => 0
  | fuel + 1, words =>
    if words.all List.isEmpty then 0
    else
      let later := words.dropWhile List.isEmpty
      let chunks := splitAtEmpty (if later.length < words.length then [] :: later else words)
      let heads := chunks.map fun chunk ↦ (chunk.filterMap List.head?).eraseDups
      let weights := heads.map fun heads ↦ match heads.length with
        | 0 => 0
        | 1 => stateWeight
        | n => rangesWeight n
      let ways := (heads.filter (!·.isEmpty)).length + (chunks.length - 1)
      let below := (chunks.zip heads).map fun (chunk, heads) ↦
        total (heads.map fun head ↦
          wordsWeight fuel ((chunk.filter (·.head? == some head)).map List.tail))
      total weights + total below + if ways = 1 then 0 else forkWeight ways

end Words

def word? : Regex → Option (List Nat)
  | one s => s.only?.map Text.utf8Bytes
  | cat a b => do some ((← word? a) ++ (← word? b))
  | _ => none

def shortest : Regex → Option Nat
  | empty => some 0
  | one s => if s = CharSet.empty then none else some 1
  | boundary _ => some 0
  | cat a b => do some ((← shortest a) + (← shortest b))
  | alt a b => do some (min (← shortest a) (← shortest b))
  | rep least _ a => if least = 0 then some 0 else (shortest a).map (least * ·)
  | group a => shortest a

/-- A repetition of something with a given weight. -/
def repeatWeight (inner : Nat) (consumes : Bool) (least : Nat) (most : Option Nat) : Nat :=
  match least, most with
  | 0, some 1 => forkWeight 2 + inner + stateWeight
  | 0, none =>
    if consumes then forkWeight 2 + inner
    else inner + forkWeight 2 + forkWeight 2 + stateWeight
  | least, none => least * inner + forkWeight 2
  | least, some most =>
    if least = most then least * inner
    else
      (if least = 0 then stateWeight else least * inner) + stateWeight +
        (most - least) * (forkWeight 2 + inner)

def choiceWeight (d : Direction) (options : List Regex) (parts : Nat) : Nat :=
  match options.mapM word? with
  | some words =>
    let words := match d with
      | .forward => words
      | .backward => words.map List.reverse
    stateWeight + wordsWeight ((words.map List.length).foldl max 0 + 1) words
  | none => forkWeight options.length + stateWeight + parts

/-- The weight of what matches, where the end of a choice does not count the choice again. -/
def weight (d : Direction) (inChoice : Bool) : Regex → Nat
  | empty => stateWeight
  | one s => setWeight d s
  | boundary _ => stateWeight
  | cat a b => weight d false a + weight d false b
  | alt a b =>
    let parts := weight d false a + weight d true b
    if inChoice then parts else choiceWeight d (a :: branches b) parts
  | rep least most a => repeatWeight (weight d false a) (a.shortest.any (0 < ·)) least most
  | group a => match d with
    | .forward => weight d false a + 2 * stateWeight
    | .backward => weight d false a

def opensText : Regex → Bool
  | boundary b => b == .textStart
  | cat a b => a.opensText || (a.isHollow && b.opensText)
  | alt a b => a.opensText && b.opensText
  | rep least _ a => 0 < least && a.opensText
  | group a => a.opensText
  | _ => false

def closesText : Regex → Bool
  | boundary b => b == .textEnd
  | cat a b => b.closesText || (b.isHollow && a.closesText)
  | alt a b => a.closesText && b.closesText
  | rep least _ a => 0 < least && a.closesText
  | group a => a.closesText
  | _ => false

/-- The whole automaton, which passes over the bytes before a match if there can be any. Forward it
marks where the match begins and ends. -/
def automatonWeight (d : Direction) (r : Regex) : Nat :=
  let (anchored, marks) := match d with
    | .forward => (r.opensText, 2 * stateWeight)
    | .backward => (r.closesText, 0)
  let skip := if anchored then stateWeight else forkWeight 2 + rangesWeight 1 + stateWeight
  skip + marks + weight d false r + stateWeight

def weightLimit : Nat := 10 * 1024 * 1024

def isLight (r : Regex) : Bool :=
  r.automatonWeight .forward ≤ weightLimit && r.automatonWeight .backward ≤ weightLimit

end ScopeForest.Regex
