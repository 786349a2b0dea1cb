import ScopeForest.Declaration.Basic
import ScopeForest.Ty.Json

namespace ScopeForest

open Json

def idsToJson {k : IdKind} (ids : List (Id k)) : Json := arr (ids.map Id.toJson)

def idOrNull {k : IdKind} (id : Option (Id k)) : Json := ofOption (id.map Id.toJson)

def named? {α : Type} (ofName? : String → Option α) (v : Json) : Option α :=
  v.plainVariant?.bind ofName?

def flags? {F : Type} [FlagNames F] (v : Json) : Option (FlagSet F) := v.str?.bind FlagSet.ofText?

def Location.toJson (l : Location) : Json := obj [("file", l.file.toJson), ("line", nat l.line)]

def Location.ofJson? (v : Json) : Option Location := do
  let slot ← v.slots? ["file", "line"]
  return {
    file := ← (slot "file").required Id.ofJson?
    line := ← (slot "line").required (nat? Text.maxWord32) }

def BaseSpec.toJson (b : BaseSpec) : Json :=
  obj [("class", b.cls.toJson), ("access", str b.access.name), ("is_virtual", bool b.isVirtual)]

def BaseSpec.ofJson? (v : Json) : Option BaseSpec := do
  let slot ← v.slots? ["class", "access", "is_virtual"]
  return {
    cls := ← (slot "class").required Id.ofJson?
    access := ← (slot "access").required (named? Access.ofName?)
    isVirtual := ← (slot "is_virtual").required bool? }

def ClassDetails.toJson (c : ClassDetails) : Json :=
  obj [("key", str c.key.name), ("members", idsToJson c.members),
    ("bases", arr (c.bases.map BaseSpec.toJson)), ("is_complete", bool c.isComplete),
    ("is_abstract", bool c.isAbstract), ("size", ofOption (c.size.map nat)),
    ("instantiates", idOrNull c.instantiates), ("aliases", idsToJson c.aliases)]

def ClassDetails.ofJson? (v : Json) : Option ClassDetails := do
  let slot ← v.slots? ["key", "members", "bases", "is_complete", "is_abstract", "size",
    "instantiates", "aliases"]
  return {
    key := ← (slot "key").required (named? ClassKey.ofName?)
    members := ← (slot "members").required (list? Id.ofJson?)
    bases := ← (slot "bases").required (list? BaseSpec.ofJson?)
    isComplete := ← (slot "is_complete").required bool?
    isAbstract := ← (slot "is_abstract").required bool?
    size := ← (slot "size").optional (nat? Text.maxWord64)
    instantiates := ← (slot "instantiates").optional Id.ofJson?
    aliases := ← (slot "aliases").required (list? Id.ofJson?) }

def Parameter.toJson (p : Parameter) : Json :=
  obj [("name", str p.name), ("ty", p.type.toJson),
    ("default_value", ofOption (p.defaultValue.map str))]

def Parameter.ofJson? (v : Json) : Option Parameter := do
  let slot ← v.slots? ["name", "ty", "default_value"]
  return {
    name := ← (slot "name").required str?
    type := ← (slot "ty").required Id.ofJson?
    defaultValue := ← (slot "default_value").optional str? }

def CallableDetails.toJson (c : CallableDetails) : Json :=
  obj [("return_type", idOrNull c.returnType),
    ("parameters", arr (c.parameters.map Parameter.toJson)), ("flags", str c.flags.text)]

def CallableDetails.ofJson? (v : Json) : Option CallableDetails := do
  let slot ← v.slots? ["return_type", "parameters", "flags"]
  return {
    returnType := ← (slot "return_type").optional Id.ofJson?
    parameters := ← (slot "parameters").required (list? Parameter.ofJson?)
    flags := ← (slot "flags").required flags? }

def VariableDetails.toJson (d : VariableDetails) : Json :=
  obj [("ty", d.type.toJson), ("flags", str d.flags.text), ("bits", ofOption (d.bits.map nat)),
    ("init", ofOption (d.init.map str))]

def VariableDetails.ofJson? (v : Json) : Option VariableDetails := do
  let slot ← v.slots? ["ty", "flags", "bits", "init"]
  return {
    type := ← (slot "ty").required Id.ofJson?
    flags := ← (slot "flags").required flags?
    bits := ← (slot "bits").optional (nat? Text.maxWord32)
    init := ← (slot "init").optional str? }

def single? {α : Type} (name : String) (decode : Json → Option α) (v : Json) : Option α := do
  ((← v.slots? [name]) name).required decode

def Details.toJson : Details → Json
  | scope members => tagged "Namespace" (obj [("members", idsToJson members)])
  | cls c => tagged "Class" c.toJson
  | enumeration values => tagged "Enum" (obj [("values", idsToJson values)])
  | enumerator value => tagged "EnumValue" (obj [("value", str value)])
  | callable c => tagged "Callable" c.toJson
  | var v => tagged "Variable" v.toJson
  | typedef t => tagged "Typedef" (obj [("aliased", t.toJson)])

def Details.ofJson? (v : Json) : Option Details :=
  match v.variant? with
  | some ("Namespace", some v) => (single? "members" (list? Id.ofJson?) v).map scope
  | some ("Class", some v) => (ClassDetails.ofJson? v).map cls
  | some ("Enum", some v) => (single? "values" (list? Id.ofJson?) v).map enumeration
  | some ("EnumValue", some v) => (single? "value" str? v).map enumerator
  | some ("Callable", some v) => (CallableDetails.ofJson? v).map callable
  | some ("Variable", some v) => (VariableDetails.ofJson? v).map var
  | some ("Typedef", some v) => (single? "aliased" Id.ofJson? v).map typedef
  | _ => none

def Declaration.toJson (d : Declaration) : Json :=
  obj [("id", d.id.toJson), ("kind", str d.kind.name), ("name", str d.name),
    ("unit", d.unit.toJson), ("external_id", str d.externalId), ("parent", idOrNull d.parent),
    ("access", ofOption (d.access.map fun a ↦ str a.name)),
    ("location", ofOption (d.location.map Location.toJson)),
    ("anonymous", ofOption (d.anonymous.map str)), ("details", d.details.toJson)]

def Declaration.ofJson? (v : Json) : Option Declaration := do
  let slot ← v.slots? ["id", "kind", "name", "unit", "external_id", "parent", "access", "location",
    "anonymous", "details"]
  return {
    id := ← (slot "id").required Id.ofJson?
    kind := ← (slot "kind").required (named? DeclKind.ofName?)
    name := ← (slot "name").required str?
    unit := ← (slot "unit").required Id.ofJson?
    externalId := ← (slot "external_id").required str?
    parent := ← (slot "parent").optional Id.ofJson?
    access := ← (slot "access").optional (named? Access.ofName?)
    location := ← (slot "location").optional Location.ofJson?
    anonymous := ← (slot "anonymous").optional str?
    details := ← (slot "details").required Details.ofJson? }

end ScopeForest
