import ScopeForest.Failure
import ScopeForest.NameMap

namespace ScopeForest

inductive Node
  | decl (id : DeclId)
  | type (id : TypeId)
  deriving DecidableEq, Repr

namespace Node

def decl? : Node → Option DeclId
  | decl id => some id
  | type _ => none

def type? : Node → Option TypeId
  | decl _ => none
  | type id => some id

end Node

/-- An id is bound once; a frozen registry takes no more bindings. -/
structure Registry where
  unit : UnitId
  bindings : NameMap Node := ∅
  frozen : Bool := false
  deriving DecidableEq

namespace Registry

def get? (r : Registry) (id : ExternalId) : Option Node := r.bindings.get? id

def contains (r : Registry) (id : ExternalId) : Bool := r.bindings.contains id

def size (r : Registry) : Nat := r.bindings.size

def register (r : Registry) (id : ExternalId) (node : Node) : Except GraphError Registry :=
  if r.frozen then .error (.registryFrozen r.unit)
  else if r.contains id then .error (.duplicateId r.unit id)
  else .ok { r with bindings := r.bindings.insert id node }

/-- The node that `id` names where the record `user` mentions it. -/
def resolveFrom (r : Registry) (id user : ExternalId) : Except GraphError Node :=
  match r.get? id with
  | some node => .ok node
  | none => .error (.unresolvedReference r.unit id user)

def resolve (r : Registry) (id : ExternalId) : Except GraphError Node := r.resolveFrom id id

def resolveDecl (r : Registry) (id user : ExternalId) : Except GraphError DeclId :=
  match r.resolveFrom id user with
  | .ok (.decl d) => .ok d
  | .ok (.type _) => .error (.unexpectedNode r.unit id .declaration)
  | .error e => .error e

def resolveType (r : Registry) (id user : ExternalId) : Except GraphError TypeId :=
  match r.resolveFrom id user with
  | .ok (.type t) => .ok t
  | .ok (.decl _) => .error (.unexpectedNode r.unit id .type)
  | .error e => .error e

def rebind (r : Registry) (f : Node → Node) : Except GraphError Registry :=
  if r.frozen then .error (.registryFrozen r.unit)
  else .ok { r with bindings := r.bindings.map f }

def freeze (r : Registry) : Registry := { r with frozen := true }

end Registry

end ScopeForest
