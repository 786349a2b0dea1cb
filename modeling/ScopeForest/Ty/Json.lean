import ScopeForest.Json.Decode
import ScopeForest.Text.Decimal
import ScopeForest.Ty.Basic

namespace ScopeForest

open Json

namespace Id

variable {k : IdKind}

def toJson (i : Id k) : Json := nat i.val

def ofJson? (v : Json) : Option (Id k) := (v.nat? Text.maxWord32).map Id.mk

end Id

def ArraySize.toJson : ArraySize → Json
  | known n => tagged "Known" (nat n)
  | unknown => str "Unknown"
  | dependent text => tagged "Dependent" (str text)

def ArraySize.ofJson? (v : Json) : Option ArraySize :=
  match v.variant? with
  | some ("Known", some v) => (v.nat? Text.maxWord64).map known
  | some ("Unknown", none) | some ("Unknown", some null) => some unknown
  | some ("Dependent", some v) => v.str?.map dependent
  | _ => none

def Signature.toJson (s : Signature) : Json :=
  obj [("return_type", s.returnType.toJson), ("parameters", arr (s.parameters.map Id.toJson)),
    ("has_ellipsis", bool s.hasEllipsis), ("is_const", bool s.isConst),
    ("is_volatile", bool s.isVolatile)]

def Signature.ofJson? (v : Json) : Option Signature := do
  let slot ← v.slots? ["return_type", "parameters", "has_ellipsis", "is_const", "is_volatile"]
  return {
    returnType := ← (slot "return_type").required Id.ofJson?
    parameters := ← (slot "parameters").required (list? Id.ofJson?)
    hasEllipsis := ← (slot "has_ellipsis").required bool?
    isConst := ← (slot "is_const").required bool?
    isVolatile := ← (slot "is_volatile").required bool? }

def TemplateArg.toJson : TemplateArg → Json
  | type t => tagged "Type" t.toJson
  | value text => tagged "Value" (str text)

def TemplateArg.ofJson? (v : Json) : Option TemplateArg :=
  match v.variant? with
  | some ("Type", some v) => (Id.ofJson? v).map type
  | some ("Value", some v) => v.str?.map value
  | _ => none

namespace Ty

def toJson : Ty → Json
  | fundamental name => tagged "Fundamental" (str name)
  | declared d => tagged "Declared" d.toJson
  | pointer t => tagged "Pointer" t.toJson
  | reference t => tagged "Reference" t.toJson
  | array element size =>
    tagged "Array" (obj [("element", element.toJson), ("size", size.toJson)])
  | const t => tagged "Const" t.toJson
  | volatile t => tagged "Volatile" t.toJson
  | function s => tagged "Function" s.toJson
  | memberFunctionPointer cls s =>
    tagged "MemberFunctionPointer" (obj [("class", cls.toJson), ("signature", s.toJson)])
  | memberPointer cls pointee =>
    tagged "MemberPointer" (obj [("class", cls.toJson), ("pointee", pointee.toJson)])
  | instantiation template args =>
    tagged "Instantiation"
      (obj [("template", template.toJson), ("args", arr (args.map TemplateArg.toJson))])

def pair? {α β : Type} (first second : String) (a : Json → Option α) (b : Json → Option β)
    (v : Json) : Option (α × β) := do
  let slot ← v.slots? [first, second]
  return (← (slot first).required a, ← (slot second).required b)

def ofJson? (v : Json) : Option Ty :=
  match v.variant? with
  | some ("Fundamental", some v) => v.str?.map fundamental
  | some ("Declared", some v) => (Id.ofJson? v).map declared
  | some ("Pointer", some v) => (Id.ofJson? v).map pointer
  | some ("Reference", some v) => (Id.ofJson? v).map reference
  | some ("Array", some v) =>
    (pair? "element" "size" Id.ofJson? ArraySize.ofJson? v).map fun p ↦ array p.1 p.2
  | some ("Const", some v) => (Id.ofJson? v).map const
  | some ("Volatile", some v) => (Id.ofJson? v).map volatile
  | some ("Function", some v) => (Signature.ofJson? v).map function
  | some ("MemberFunctionPointer", some v) =>
    (pair? "class" "signature" Id.ofJson? Signature.ofJson? v).map
      fun p ↦ memberFunctionPointer p.1 p.2
  | some ("MemberPointer", some v) =>
    (pair? "class" "pointee" Id.ofJson? Id.ofJson? v).map fun p ↦ memberPointer p.1 p.2
  | some ("Instantiation", some v) =>
    (pair? "template" "args" Id.ofJson? (list? TemplateArg.ofJson?) v).map
      fun p ↦ instantiation p.1 p.2
  | _ => none

end Ty

end ScopeForest
