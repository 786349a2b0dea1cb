import ScopeForest.Declaration.Basic
import ScopeForest.Settings.Basic
import ScopeForest.Unit.Fields

namespace ScopeForest.AllocatedUnit

variable (u : AllocatedUnit) (settings : BuilderSettings)

/-- Follows the contexts from the record `current` through functions. A chain that is longer than
the unit runs in a circle, which is the fault of the record `r` where it began. -/
def scopeFrom (r : Record) : Nat → Record → Outcome DeclId
  | 0, _ => u.slots.invalid r Field.context r.id
  | fuel + 1, current =>
    match current.attrs.ref? Field.context with
    | none =>
      if settings.lenientContext then .ok u.root else u.slots.missing current Field.context
    | some context => do
      let scope ← u.slots.declRef current context
      let slot ← u.slots.declSlot scope
      if slot.kind.isScope then return scope
      else if slot.kind.isCallable then scopeFrom r fuel slot.record
      else Outcome.refuse (.unexpectedNode u.slots.unit context .scope)

/-- What is declared inside a function belongs to the scope of the function. -/
def scopeOf (r : Record) : Outcome DeclId :=
  u.scopeFrom settings r (u.slots.decls.length + 1) r

def parentOf (d : DeclId) (r : Record) : Outcome (Option DeclId) :=
  if d = u.root then return none else some <$> u.scopeOf settings r

def accessIn (r : Record) (parent : Option DeclId) : Outcome (Option Access) :=
  match parent with
  | none => .ok none
  | some parent => do
    match (← u.slots.declSlot parent).classKey? with
    | none => return none
    | some key => some <$> u.slots.accessOr r key.defaultAccess r.attrs

def location (r : Record) : Outcome (Option Location) :=
  match r.attrs.ref? Field.file with
  | none => .ok none
  | some id => do
    let file ← u.slots.fileRef r id
    return some ⟨file, (← u.slots.number? r Text.maxWord32 Field.line).getD 0⟩

def baseOf (r : Record) (key : ClassKey) (child : ChildRecord) : Outcome BaseSpec := do
  let id ← u.slots.childType r child
  let access ← u.slots.accessOr r key.defaultAccess child.attrs
  return ⟨← u.slots.classRef r id, access, child.attrs.flag Field.virtual⟩

def classDetails (r : Record) (key : ClassKey) : Outcome ClassDetails := do
  let size ← u.slots.number? r Text.maxWord64 Field.size
  let instantiates ← u.slots.typeField? r Field.instantiates
  let bases ← (r.childrenOf .base).mapM (u.baseOf r key)
  return {
    key
    bases
    isComplete := !r.attrs.flag Field.incomplete
    isAbstract := r.attrs.flag Field.abstract
    size
    instantiates }

def hasVariableFlag (r : Record) : VariableFlag → Bool
  | .static => r.attrs.flag Field.static
  | .external => r.attrs.flag Field.external
  | .mutable => r.attrs.flag Field.mutable
  | .member => r.tag == .field

def variableDetails (r : Record) : Outcome VariableDetails := do
  let type ← u.slots.typeField r Field.type
  let bits ← u.slots.number? r Text.maxWord32 Field.bits
  return { type, flags := .ofPred (hasVariableFlag r), bits, init := r.attrs.literal? Field.init }

def hasCallableFlag (r : Record) : CallableFlag → Bool
  | .virtual => r.attrs.flag Field.virtual
  | .pureVirtual => r.attrs.flag Field.pureVirtual
  | .static => r.attrs.flag Field.static
  | .const => r.attrs.flag Field.const
  | .volatile => r.attrs.flag Field.volatile
  | .inline => r.attrs.flag Field.inline
  | .explicit => r.attrs.flag Field.explicit
  | .external => r.attrs.flag Field.external
  | .artificial => r.attrs.flag Field.artificial
  | .noexcept => r.attrs.flag Field.noexcept
  | .ellipsis => !(r.childrenOf .ellipsis).isEmpty
  | .member => r.tag.isMemberOnly

def parameter (r : Record) (child : ChildRecord) : Outcome Parameter := do
  let type ← u.slots.typeRef r (← u.slots.childType r child)
  return { name := (child.attrs.literal? Field.name).getD "", type,
           defaultValue := child.attrs.literal? Field.default }

def callableDetails (r : Record) : Outcome CallableDetails := do
  let parameters ← (r.childrenOf .argument).mapM (u.parameter r)
  let returnType ← u.slots.typeField? r Field.returns
  return { returnType, parameters, flags := .ofPred (hasCallableFlag r) }

def details (r : Record) : DeclKind → Outcome Details
  | .namespaceDecl => return .scope []
  | .classDecl | .unionDecl => Details.cls <$> u.classDetails r (r.tag.classKey?.getD .classKey)
  | .enumDecl => return .enumeration []
  | .enumerator => return .enumerator ""
  | .variableDecl => Details.var <$> u.variableDetails r
  | .typedef => Details.typedef <$> u.slots.typeField r Field.type
  | .function | .memberFunction | .constructor | .destructor | .operator =>
    Details.callable <$> u.callableDetails r

def anonymousName (id : ExternalId) : String :=
  settings.anonymousPrefix ++ toString u.slots.unit.val ++ "_" ++ id

def enumeratorName (owner : Record) (child : ChildRecord) : Outcome String :=
  match child.attrs.literal? Field.name with
  | some name => return name
  | none => u.slots.missing owner Field.name

def enumeratorOf (d : DeclId) (slot : DeclSlot) (owner : Record) (child : ChildRecord) :
    Outcome Declaration := do
  let name ← u.enumeratorName owner child
  let value := (child.attrs.literal? Field.init <|> child.attrs.literal? Field.value).getD ""
  let parent ← Outcome.ofExcept (u.slots.registry.resolveDecl owner.id slot.externalId)
  return { id := d, kind := .enumerator, name, unit := u.slots.unit,
           externalId := slot.externalId, parent := some parent, details := .enumerator value }

def declarationOf (d : DeclId) (slot : DeclSlot) (r : Record) : Outcome Declaration := do
  let isRoot := d == u.root
  let name := if isRoot then "::" else (r.attrs.literal? Field.name).getD ""
  let parent ← u.parentOf settings d r
  let access ← u.accessIn r parent
  let location ← u.location r
  let details ← u.details r slot.kind
  let anonymous :=
    if !isRoot && name == "" && slot.kind.isScope then some (u.anonymousName settings r.id)
    else none
  return { id := d, kind := slot.kind, name, unit := u.slots.unit, externalId := slot.externalId,
           parent, access, location, anonymous, details }

def declOf (d : DeclId) (slot : DeclSlot) : Outcome Declaration :=
  match slot.source with
  | .record r => u.declarationOf settings d slot r
  | .enumerator owner child => u.enumeratorOf d slot owner child

end ScopeForest.AllocatedUnit
