import ScopeForest.Settings.Environment
import ScopeForest.Settings.Json
import ScopeForest.Toml.Quoted
import ScopeForest.Toml.Reader

namespace ScopeForest

namespace Settings

/-- The directories from the working directory upwards, each with its settings directory, if it
has one, and the file in that. The nearest settings directory decides, file or not. -/
def findFile (dirs : List (Option (Option String))) : Option String :=
  (dirs.findSome? id).join

def partSizes : List (String × Nat) := [("builder", 5), ("query", 1), ("logging", 2)]

def cutParts : Json → Json
  | .obj fields => .obj (fields.map fun (key, v) ↦ match partSizes.lookup key, v with
    | some size, .arr items => (key, .arr (items.take size))
    | _, v => (key, v))
  | v => v

/-- The layers are the defaults, a file and the environment; a later layer wins, key by key. Only
the outcome has to fit the settings, but the file must be well formed. -/
def load? (file : Option String) (environment : List (String × String)) : Option Settings := do
  let base ← match file with
    | none => some (.obj [])
    | some text => Toml.read? text
  ofJson? (cutParts (base.overlay (Environment.layers environment)))

def line (key value : String) : String := key ++ " = " ++ value ++ "\n"

def boolText (b : Bool) : String := if b then "true" else "false"

def fileText (s : Settings) : String :=
  line "version" (toString s.version) ++
  "\n[builder]\n" ++
  line "join_declarations" (boolText s.builder.joinDeclarations) ++
  line "bind_aliases" (boolText s.builder.bindAliases) ++
  line "parallel_threads" (toString s.builder.parallelThreads) ++
  line "anonymous_prefix" (Toml.quoted s.builder.anonymousPrefix) ++
  line "lenient_context" (boolText s.builder.lenientContext) ++
  "\n[query]\n" ++
  line "name_index" (boolText s.query.nameIndex) ++
  "\n[logging]\n" ++
  line "level" (Toml.quoted s.logging.level) ++
  line "debug" (boolText s.logging.debug)

end Settings

end ScopeForest
