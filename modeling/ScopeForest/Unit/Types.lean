import ScopeForest.Unit.Fields

namespace ScopeForest

def ArraySize.ofLiteral (text : Option String) : ArraySize :=
  match text.map Text.trim with
  | none => .unknown
  | some "" => .unknown
  | some text => match Text.decimal? Text.maxWord64 text with
    | some n => .known n
    | none => .dependent text

namespace Slots

variable (s : Slots)

def signature (r : Record) : Outcome Signature := do
  let returnType ← s.typeField r Field.returns
  let parameters ← (r.childrenOf .argument).mapM fun child ↦ do
    s.typeRef r (← s.childType r child)
  return {
    returnType
    parameters
    hasEllipsis := !(r.childrenOf .ellipsis).isEmpty
    isConst := r.attrs.flag Field.const
    isVolatile := r.attrs.flag Field.volatile }

def methodType (r : Record) : Outcome Ty := do
  let cls ← s.classRef r (← s.requiredRef r Field.basetype)
  return .memberFunctionPointer cls (← s.signature r)

/-- A pointer to the type of a method is a pointer to a member function. -/
def pointerType (r : Record) : Outcome Ty := do
  let target ← s.requiredRef r Field.type
  match (s.record? target).filter (·.tag == .methodType) with
  | some method => s.methodType method
  | none => return .pointer (← s.typeRef r target)

def qualifiedType (r : Record) : Outcome Ty := do
  let inner ← s.typeField r Field.type
  if r.attrs.flag Field.const then return .const inner
  else if r.attrs.flag Field.volatile then return .volatile inner
  else s.missing r Field.const

def templateArg (r : Record) (child : ChildRecord) : Outcome TemplateArg :=
  match child.attrs.ref? Field.type, child.attrs.literal? Field.value with
  | some id, _ => TemplateArg.type <$> s.typeRef r id
  | none, some text => return .value text
  | none, none => s.missing r Field.type

def typeOfRecord (r : Record) : Outcome Ty :=
  match r.tag with
  | .fundamentalType => Ty.fundamental <$> s.requiredLiteral r Field.name
  | .pointerType => s.pointerType r
  | .referenceType => Ty.reference <$> s.typeField r Field.type
  | .arrayType => do
    return .array (← s.typeField r Field.type)
      (ArraySize.ofLiteral (r.attrs.literal? Field.size))
  | .cvQualifiedType => s.qualifiedType r
  | .functionType => Ty.function <$> s.signature r
  | .methodType => s.methodType r
  | .offsetType => do
    let cls ← s.classRef r (← s.requiredRef r Field.basetype)
    return .memberPointer cls (← s.typeField r Field.type)
  | .templateInstantiation => do
    let template ← s.declRef r (← s.requiredRef r Field.template)
    return .instantiation template (← (r.childrenOf .templateArgument).mapM (s.templateArg r))
  | _ => Outcome.refuse (.unexpectedNode s.unit r.id .type)

def typeOf : TypeSource → Outcome Ty
  | .record r => s.typeOfRecord r
  | .constHalf _ inner => return .const inner
  | .volatileHalf r => Ty.volatile <$> s.typeField r Field.type
  | .declared d => return .declared d

end Slots

end ScopeForest
