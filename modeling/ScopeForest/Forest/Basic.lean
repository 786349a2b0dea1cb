import ScopeForest.Registry
import ScopeForest.Settings.Basic
import ScopeForest.Store.Basic

namespace ScopeForest

inductive Stage
  | created | nodesAllocated | fieldsResolved | merged | frozen
  deriving DecidableEq, Repr

def Stage.name : Stage → String
  | created => "Created"
  | nodesAllocated => "NodesAllocated"
  | fieldsResolved => "FieldsResolved"
  | merged => "Merged"
  | frozen => "Frozen"

/-- Declarations of different units with equal keys are one entity. -/
structure MergeKey where
  /-- The shared node of the owning scope. -/
  parent : DeclId
  kind : DeclKind
  name : String
  /-- What tells overloads apart. -/
  signature : Option String
  deriving DecidableEq, Repr

/-- One tree of scopes for all units, the types of each unit after those of the units before it, and
for each unit a registry from its ids to the shared nodes. -/
structure Forest where
  settings : BuilderSettings := {}
  store : Store := ⟨[], []⟩
  files : List String := []
  registries : List Registry := []
  /-- The first node with each key. -/
  keys : List (MergeKey × DeclId) := []
  root : Option DeclId := none
  deriving DecidableEq

namespace Forest

def stage (f : Forest) : Stage := if f.registries.isEmpty then .created else .merged

def nextUnit (f : Forest) : UnitId := Id.next f.registries

def keyed? (f : Forest) (key : MergeKey) : Option DeclId := f.keys.lookup key

def addKey (f : Forest) (key : MergeKey) (d : DeclId) : Forest :=
  if (f.keyed? key).isSome then f else { f with keys := f.keys ++ [(key, d)] }

end Forest

end ScopeForest
