import ScopeForest.Text.Blank
import ScopeForest.Text.Decimal
import ScopeForest.Ty.Basic
import ScopeForest.Unit.Slots

namespace ScopeForest.Slots

variable (s : Slots) (r : Record)

def missing {α : Type} (field : String) : Outcome α :=
  Outcome.refuse (.missingField s.unit r.id field)

def invalid {α : Type} (field value : String) : Outcome α :=
  Outcome.refuse (.invalidField s.unit r.id field value)

def requiredRef (field : String) : Outcome ExternalId :=
  match r.attrs.ref? field with
  | some id => .ok id
  | none => s.missing r field

def requiredLiteral (field : String) : Outcome String :=
  match r.attrs.literal? field with
  | some text => .ok text
  | none => s.missing r field

def childType (child : ChildRecord) : Outcome ExternalId :=
  match child.attrs.ref? Field.type with
  | some id => .ok id
  | none => s.missing r Field.type

def number? (bound : Nat) (field : String) : Outcome (Option Nat) :=
  match r.attrs.literal? field with
  | none => .ok none
  | some text =>
    if text = "" then .ok none
    else match Text.decimal? bound text with
      | some n => .ok (some n)
      | none => s.invalid r field text

def accessOr (default : Access) (attrs : Attrs) : Outcome Access :=
  match attrs.literal? Field.access with
  | none => .ok default
  | some text => match Access.ofKeyword? text with
    | some access => .ok access
    | none => s.invalid r Field.access text

def declSlot (d : DeclId) : Outcome DeclSlot :=
  match d.get? s.decls with
  | some slot => .ok slot
  | none => Outcome.fault (.noDecl d)

def declRef (id : ExternalId) : Outcome DeclId := Outcome.ofExcept (s.registry.resolveDecl id r.id)

/-- The type that a reference names; a type declaration stands for the type that it declares. -/
def typeRef (id : ExternalId) : Outcome TypeId := do
  match ← Outcome.ofExcept (s.registry.resolveFrom id r.id) with
  | .type t => return t
  | .decl d => match (← s.declSlot d).declared with
    | some t => return t
    | none => Outcome.refuse (.unexpectedNode s.unit id .type)

def typeField (field : String) : Outcome TypeId := do s.typeRef r (← s.requiredRef r field)

def typeField? (field : String) : Outcome (Option TypeId) :=
  match r.attrs.ref? field with
  | none => .ok none
  | some id => some <$> s.typeRef r id

def classRef (id : ExternalId) : Outcome DeclId := do
  let d ← s.declRef r id
  match (← s.declSlot d).kind with
  | .classDecl | .unionDecl => return d
  | _ => Outcome.refuse (.unexpectedNode s.unit id .classNode)

def fileRef (id : ExternalId) : Outcome FileId :=
  match s.files.findIdx? (·.1 == id) with
  | some i => .ok (Id.ofIndex i)
  | none => Outcome.refuse (.unresolvedReference s.unit id r.id)

end ScopeForest.Slots
