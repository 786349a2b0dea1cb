import ScopeForest.Record.Basic
import ScopeForest.Registry

namespace ScopeForest

inductive DeclSource
  | record (r : Record)
  | enumerator (owner : Record) (child : ChildRecord)
  deriving DecidableEq

structure DeclSlot where
  source : DeclSource
  kind : DeclKind
  externalId : ExternalId
  /-- The type that names the declaration. -/
  declared : Option TypeId := none
  deriving DecidableEq

namespace DeclSlot

def record (s : DeclSlot) : Record :=
  match s.source with
  | .record r => r
  | .enumerator owner _ => owner

def classKey? (s : DeclSlot) : Option ClassKey :=
  match s.source with
  | .record r => r.tag.classKey?
  | .enumerator .. => none

end DeclSlot

inductive TypeSource
  | record (r : Record)
  /-- The const half of a type with both qualifiers, around the other half. -/
  | constHalf (r : Record) (inner : TypeId)
  | volatileHalf (r : Record)
  | declared (d : DeclId)
  deriving DecidableEq

structure Slots where
  unit : UnitId
  registry : Registry
  /-- The records placed so far. -/
  records : List Record := []
  decls : List DeclSlot := []
  types : List TypeSource := []
  files : List (ExternalId × String) := []
  root? : Option DeclId := none
  deriving DecidableEq

def Record.namesRoot (r : Record) : Bool :=
  r.tag == .namespaceTag && r.attrs.literal? Field.name == some "::"

def enumeratorId (owner : ExternalId) (position : Nat) : ExternalId := s!"{owner}#{position}"

namespace Slots

def empty (unit : UnitId) : Slots := { unit, registry := { unit } }

def record? (s : Slots) (id : ExternalId) : Option Record := s.records.find? (·.id == id)

def addDecl (s : Slots) (slot : DeclSlot) : Except GraphError Slots := do
  let registry ← s.registry.register slot.externalId (.decl (Id.next s.decls))
  return { s with registry, decls := s.decls ++ [slot] }

def addTypes (s : Slots) (id : ExternalId) (sources : List TypeSource) :
    Except GraphError Slots := do
  let registry ← s.registry.register id (.type (Id.next s.types))
  return { s with registry, types := s.types ++ sources }

/-- Whether a record becomes the root. Where no record spells the root, it is the first namespace
without a context. -/
def claimsRoot (s : Slots) (spelled : Bool) (r : Record) : Bool :=
  r.tag == .namespaceTag &&
    if spelled then r.namesRoot
    else (r.attrs.ref? Field.context).isNone && s.root?.isNone

def claimRoot (s : Slots) (r : Record) (d : DeclId) : Except GraphError Slots :=
  match s.root? with
  | none => .ok { s with root? := some d }
  | some first =>
    let firstId := ((first.get? s.decls).map (·.externalId)).getD ""
    .error (.multipleGlobalNamespaces s.unit firstId r.id)

def settleRoot (s : Slots) (claims : Bool) (r : Record) (d : DeclId) : Except GraphError Slots :=
  if claims then s.claimRoot r d else .ok s

def addDeclared (s : Slots) (kind : DeclKind) (d : DeclId) : Slots :=
  if kind.isTypeDeclaration then { s with types := s.types ++ [.declared d] } else s

def addEnumerators (s : Slots) (owner : Record) : Nat → List ChildRecord → Except GraphError Slots
  | _, [] => .ok s
  | n, child :: children => do
    let slot : DeclSlot :=
      { source := .enumerator owner child, kind := .enumerator,
        externalId := enumeratorId owner.id n }
    (← s.addDecl slot).addEnumerators owner (n + 1) children

def placeDecl (s : Slots) (spelled : Bool) (r : Record) (kind : DeclKind) :
    Except GraphError Slots := do
  let d : DeclId := Id.next s.decls
  let declared := if kind.isTypeDeclaration then some (Id.next s.types) else none
  let t ← s.addDecl { source := .record r, kind, externalId := r.id, declared }
  let t ← t.settleRoot (s.claimsRoot spelled r) r d
  let t := t.addDeclared kind d
  if kind = .enumDecl then t.addEnumerators r 0 (r.childrenOf .enumerator) else return t

def placeType (s : Slots) (r : Record) : Except GraphError Slots :=
  if r.tag = .cvQualifiedType ∧ r.attrs.flag Field.const ∧ r.attrs.flag Field.volatile then
    let inner : TypeId := (IdCounter.after s.types.length).take.2.take.1
    s.addTypes r.id [.constHalf r inner, .volatileHalf r]
  else s.addTypes r.id [.record r]

def placeFile (s : Slots) (r : Record) : Except GraphError Slots :=
  match r.attrs.literal? Field.name with
  | none => .error (.missingField s.unit r.id Field.name)
  | some path => .ok { s with files := s.files ++ [(r.id, path)] }

/-- An enumeration brings a slot for each of its enumerators, a type declaration one for the type
that it declares, and a type that is both const and volatile one for each qualifier. Files get
numbers of their own and no binding. -/
def place (spelled : Bool) (s : Slots) (r : Record) : Except GraphError Slots :=
  if (s.record? r.id).isSome then .error (.duplicateId s.unit r.id)
  else
    let s := { s with records := s.records ++ [r] }
    if r.tag = .file then s.placeFile r
    else match r.tag.declKind? with
      | some kind => s.placeDecl spelled r kind
      | none => s.placeType r

end Slots

/-- A unit whose nodes have their slots, and which has a root. -/
structure AllocatedUnit where
  slots : Slots
  root : DeclId
  deriving DecidableEq

def allocate (unit : UnitId) (records : List Record) : Except GraphError AllocatedUnit := do
  let slots ← records.foldlM (Slots.place (records.any Record.namesRoot)) (Slots.empty unit)
  match slots.root? with
  | some root => return { slots, root }
  | none => .error (.missingGlobalNamespace unit)

end ScopeForest
