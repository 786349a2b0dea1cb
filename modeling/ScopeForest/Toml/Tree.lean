import ScopeForest.Json.Basic

namespace ScopeForest.Toml

/-- A table comes into being by its header, by the header of a table inside it, or by a dotted key;
which of these it was decides whether it may be opened again. -/
inductive Origin
  | headed | implied | dotted
  deriving DecidableEq, Repr

inductive Node
  | leaf (v : Json)
  | table (origin : Origin) (entries : List (String × Node))
  | series (earlier : List Json) (last : List (String × Node))
  deriving Repr

abbrev Entries := List (String × Node)

mutual

def Node.toJson : Node → Json
  | .leaf v => v
  | .table _ entries => .obj (entriesToJson entries)
  | .series earlier last => .arr (earlier ++ [.obj (entriesToJson last)])

def entriesToJson : List (String × Node) → List (String × Json)
  | [] => []
  | (key, node) :: entries => (key, node.toJson) :: entriesToJson entries

end

namespace Entries

def replace (entries : Entries) (key : String) (node : Node) : Entries :=
  entries.map fun e ↦ if e.1 == key then (key, node) else e

/-- Opens a table at the end of a path, where `place` tells what becomes of the node there. -/
def openAt (place : Option Node → Option Node) : List String → Entries → Option Entries
  | [], _ => none
  | [key], entries => do
    let old := entries.lookup key
    let node ← place old
    some (if old.isSome then entries.replace key node else entries ++ [(key, node)])
  | key :: keys, entries => match entries.lookup key with
    | none => do
      let inner ← openAt place keys []
      some (entries ++ [(key, .table .implied inner)])
    | some (.table origin inner) => do
      let inner ← openAt place keys inner
      some (entries.replace key (.table origin inner))
    | some (.series earlier last) => do
      let last ← openAt place keys last
      some (entries.replace key (.series earlier last))
    | some (.leaf _) => none

def openTable : List String → Entries → Option Entries :=
  openAt fun
    | none => some (.table .headed [])
    | some (.table .implied inner) => some (.table .headed inner)
    | some _ => none

def openNext : List String → Entries → Option Entries :=
  openAt fun
    | none => some (.series [] [])
    | some (.series earlier last) => some (.series (earlier ++ [.obj (entriesToJson last)]) [])
    | some _ => none

/-- Whether a dotted key may pass through a table, or end in it. -/
def admits (last : Bool) : Origin → Bool
  | .headed => false
  | .implied => !last
  | .dotted => true

def set (v : Json) : List String → Entries → Option Entries
  | [], _ => none
  | [key], entries => match entries.lookup key with
    | none => some (entries ++ [(key, .leaf v)])
    | some _ => none
  | key :: keys, entries => match entries.lookup key with
    | none => do
      let inner ← set v keys []
      some (entries ++ [(key, .table .dotted inner)])
    | some (.table origin inner) =>
      if admits (keys.length == 1) origin then do
        let inner ← set v keys inner
        some (entries.replace key (.table origin inner))
      else none
    | some (.series earlier last) =>
      if keys.length = 1 then none
      else do
        let last ← set v keys last
        some (entries.replace key (.series earlier last))
    | some (.leaf _) => none

def setAt (keys : List String) (v : Json) : List String → Entries → Option Entries
  | [], entries => set v keys entries
  | key :: path, entries => match entries.lookup key with
    | some (.table origin inner) => do
      let inner ← setAt keys v path inner
      some (entries.replace key (.table origin inner))
    | some (.series earlier last) => do
      let last ← setAt keys v path last
      some (entries.replace key (.series earlier last))
    | _ => none

end Entries

end ScopeForest.Toml
