import ScopeForest.Store.MergeName
import ScopeForest.Unit.Acyclic
import ScopeForest.Unit.Declarations
import ScopeForest.Unit.Types

namespace ScopeForest

/-- A unit with all its nodes, in arenas of its own. -/
structure ResolvedUnit where
  unit : UnitId
  store : Store
  root : DeclId
  registry : Registry
  files : List String
  /-- What tells overloads apart, for each declaration; absent where nothing is called. -/
  signatureKeys : List (Option String)
  deriving DecidableEq

/-- The scope that is left after going up `fuel` times. -/
def climb (decls : List Declaration) : Nat → Option DeclId → Option DeclId
  | _, none => none
  | 0, some d => some d
  | fuel + 1, some d => climb decls fuel ((d.get? decls).bind (·.parent))

namespace Slots

def danglingRef? (s : Slots) (r : Record) : Option ExternalId :=
  r.references.find? fun id ↦ (s.record? id).isNone && !s.registry.contains id

def checkReferences (s : Slots) : Outcome Unit :=
  s.records.forM fun r ↦ match s.danglingRef? r with
    | none => return ()
    | some id => Outcome.refuse (.unresolvedReference s.unit id r.id)

/-- Appends a declaration to the members of its scope. -/
def linkMember (s : Slots) (decls : List Declaration) (d : Declaration) :
    Outcome (List Declaration) :=
  match d.parent with
  | none => return decls
  | some parent => match parent.get? decls with
    | none => Outcome.fault (.noDecl parent)
    | some scope =>
      if scope.hasMembers then return parent.modify (·.addMember d.id) decls
      else Outcome.refuse (.unexpectedNode s.unit scope.externalId .scope)

def linkMembers (s : Slots) (decls : List Declaration) : Outcome (List Declaration) :=
  decls.foldlM s.linkMember decls

/-- A declaration that is still inside a scope after as many steps as there are declarations lies
in a circle of scopes. -/
def checkReachable (s : Slots) (decls : List Declaration) : Outcome Unit :=
  decls.forM fun d ↦ match climb decls decls.length d.parent with
    | none => return ()
    | some p =>
      let value := ((p.get? decls).map (·.externalId)).getD ""
      Outcome.refuse (.invalidField s.unit d.externalId Field.context value)

def typeExternalId (s : Slots) (t : TypeId) : ExternalId :=
  match t.get? s.types with
  | some (.record r) | some (.constHalf r _) | some (.volatileHalf r) => r.id
  | some (.declared d) => ((d.get? s.decls).map (·.externalId)).getD ""
  | none => ""

/-- A circle is blamed on its first typedef, if it has one, or on its first type. -/
def cycleError (s : Slots) (store : Store) (cycle : List TypeId) : GraphError :=
  match cycle.findSome? store.typedef? with
  | some x => .cyclicAlias x.externalId
  | none => .cyclicType s.unit ((cycle.head?.map s.typeExternalId).getD "?")

def checkAcyclic (s : Slots) (store : Store) : Outcome Unit := do
  match ← store.findCycle with
  | none => return ()
  | some cycle => Outcome.refuse (s.cycleError store cycle)

end Slots

namespace AllocatedUnit

def declarations (u : AllocatedUnit) (settings : BuilderSettings) :
    Outcome (List Declaration) :=
  u.slots.decls.zipIdx.mapM fun (slot, i) ↦ u.declOf settings (Id.ofIndex i) slot

/-- References are checked first, then come the types, the declarations and the members of scopes. A
unit is accepted if every declaration lies below the root and no type contains itself. -/
def resolve (u : AllocatedUnit) (settings : BuilderSettings) : Outcome ResolvedUnit := do
  u.slots.checkReferences
  let types ← u.slots.types.mapM u.slots.typeOf
  let decls ← u.slots.linkMembers (← u.declarations settings)
  let store : Store := ⟨decls, types⟩
  u.slots.checkReachable decls
  u.slots.checkAcyclic store
  let signatureKeys ← (Id.all decls).mapM store.signatureKey
  return { unit := u.slots.unit, store, root := u.root, registry := u.slots.registry,
           files := u.slots.files.map (·.2), signatureKeys }

end AllocatedUnit

def buildUnit (settings : BuilderSettings) (unit : UnitId) (records : List Record) :
    Outcome ResolvedUnit := do
  (← Outcome.ofExcept (allocate unit records)).resolve settings

end ScopeForest
