import ScopeForest.Id

namespace ScopeForest

inductive NodeSort
  | declaration | type | scope | classNode
  deriving DecidableEq, Repr

def NodeSort.name : NodeSort → String
  | declaration => "declaration"
  | type => "type"
  | scope => "scope"
  | classNode => "class"

inductive GraphError
  | duplicateId (unit : UnitId) (id : ExternalId)
  | unresolvedReference (unit : UnitId) (id user : ExternalId)
  | cyclicAlias (id : ExternalId)
  | cyclicType (unit : UnitId) (id : ExternalId)
  | missingField (unit : UnitId) (id : ExternalId) (field : String)
  | invalidField (unit : UnitId) (id : ExternalId) (field value : String)
  | unexpectedNode (unit : UnitId) (id : ExternalId) (expected : NodeSort)
  | missingGlobalNamespace (unit : UnitId)
  | multipleGlobalNamespaces (unit : UnitId) (first second : ExternalId)
  | registryFrozen (unit : UnitId)
  | unitOutOfOrder (expected found : UnitId)
  | unreadableRecords
  deriving DecidableEq, Repr

def UnitId.shown (u : UnitId) : String := s!"UnitId({u.val})"

def DeclId.shown (d : DeclId) : String := s!"DeclId({d.val})"

namespace GraphError

def code : GraphError → String
  | duplicateId .. => "DUPLICATE_ID"
  | unresolvedReference .. => "UNRESOLVED_REFERENCE"
  | cyclicAlias .. => "CYCLIC_ALIAS"
  | cyclicType .. => "CYCLIC_TYPE"
  | missingField .. => "MISSING_FIELD"
  | invalidField .. => "INVALID_FIELD"
  | unexpectedNode .. => "UNEXPECTED_NODE_KIND"
  | missingGlobalNamespace .. => "MISSING_GLOBAL_NAMESPACE"
  | multipleGlobalNamespaces .. => "MULTIPLE_GLOBAL_NAMESPACES"
  | registryFrozen .. => "REGISTRY_FROZEN"
  | unitOutOfOrder .. => "UNIT_OUT_OF_ORDER"
  | unreadableRecords => "RECORD_STREAM"

def message : GraphError → String
  | duplicateId u id => s!"Reference id '{id}' is bound twice in unit {UnitId.shown u}"
  | unresolvedReference u id user =>
    s!"Reference id '{id}' used by '{user}' in unit {UnitId.shown u} has no defining record"
  | cyclicAlias id => s!"Typedef '{id}' aliases itself through a cycle"
  | cyclicType u id => s!"Type '{id}' in unit {UnitId.shown u} contains itself"
  | missingField u id field =>
    s!"Record '{id}' in unit {UnitId.shown u} is missing required field '{field}'"
  | invalidField u id field value =>
    s!"Record '{id}' in unit {UnitId.shown u} has invalid value '{value}' for field '{field}'"
  | unexpectedNode u id expected =>
    s!"Reference id '{id}' in unit {UnitId.shown u} does not name a {expected.name}"
  | missingGlobalNamespace u => s!"Unit {UnitId.shown u} has no global namespace record"
  | multipleGlobalNamespaces u first second =>
    s!"Unit {UnitId.shown u} declares more than one global namespace ('{first}' and '{second}')"
  | registryFrozen u =>
    s!"Registry of unit {UnitId.shown u} is frozen and cannot accept new bindings"
  | unitOutOfOrder expected found =>
    s!"Unit {UnitId.shown found} cannot be merged yet, " ++
      s!"the graph expects unit {UnitId.shown expected} next"
  | unreadableRecords => "Failed to read record stream"

def externalId? : GraphError → Option ExternalId
  | duplicateId _ id | unresolvedReference _ id _ | cyclicAlias id | cyclicType _ id
  | missingField _ id _ | invalidField _ id _ _ | unexpectedNode _ id _ => some id
  | multipleGlobalNamespaces _ _ second => some second
  | missingGlobalNamespace _ | registryFrozen _ | unitOutOfOrder _ _ | unreadableRecords => none

def hints : GraphError → List String
  | duplicateId .. | multipleGlobalNamespaces .. =>
    ["Each translation unit must be fed as its own record stream",
      "Check that the dump was not concatenated with another unit"]
  | unresolvedReference .. =>
    ["The dump is truncated or was filtered after generation",
      "Regenerate the dump for this translation unit"]
  | cyclicAlias .. | cyclicType .. => ["The front-end emitted a type that refers back to itself"]
  | unitOutOfOrder .. =>
    ["Create unit builders through GraphBuilder::unit_builder()",
      "Merge resolved units in the order their ids were handed out"]
  | registryFrozen .. => ["Reopen the graph with DeclGraph::into_builder() before adding units"]
  | _ => []

end GraphError

/-- A handle that the arena does not hold, a unit numbered 0, or a walk over types or scopes that
would never end. -/
inductive Fault
  | noDecl (id : DeclId)
  | noType (id : TypeId)
  | noUnit
  | endless
  deriving DecidableEq, Repr

inductive Failure
  | input (e : GraphError)
  | fault (f : Fault)
  deriving DecidableEq, Repr

abbrev Outcome := Except Failure

namespace Outcome

variable {α : Type}

def refuse (e : GraphError) : Outcome α := .error (.input e)

def fault (f : Fault) : Outcome α := .error (.fault f)

def fault? (x : Outcome α) : Option Fault :=
  match x with
  | .error (.fault f) => some f
  | _ => none

/-- A fault of the records is a value; only faults of ids go on. -/
def recover (x : Outcome α) : Outcome (Except GraphError α) :=
  match x with
  | .ok a => .ok (.ok a)
  | .error (.input e) => .ok (.error e)
  | .error (.fault f) => .error (.fault f)

def any (test : α → Outcome Bool) : List α → Outcome Bool
  | [] => .ok false
  | a :: rest => do if ← test a then return true else any test rest

def filter (test : α → Outcome Bool) : List α → Outcome (List α)
  | [] => .ok []
  | a :: rest => do
    let keep ← test a
    let kept ← filter test rest
    return if keep then a :: kept else kept

def ofExcept (x : Except GraphError α) : Outcome α :=
  match x with
  | .ok a => .ok a
  | .error e => refuse e

end Outcome

end ScopeForest
