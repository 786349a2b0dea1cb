import ScopeForest.Json.Decode
import ScopeForest.Json.Printer
import ScopeForest.Json.Reader
import ScopeForest.Record.Basic

namespace ScopeForest

open Json

def AttrValue.toJson : AttrValue → Json
  | literal text => tagged "literal" (str text)
  | ref id => tagged "ref" (str id)
  | refs ids => tagged "refs" (ofStrings ids)

def AttrValue.ofJson? (v : Json) : Option AttrValue :=
  match v.variant? with
  | some ("literal", some v) => v.str?.map literal
  | some ("ref", some v) => v.str?.map ref
  | some ("refs", some v) => (v.list? str?).map refs
  | _ => none

def Attrs.toJson (attrs : Attrs) : Json :=
  obj (attrs.entries.map fun e ↦ (e.1, e.2.toJson))

def Attrs.ofJson? : Json → Option Attrs
  | obj fields => do
    let es ← fields.mapM fun f ↦ do return (f.1, ← AttrValue.ofJson? f.2)
    return NameMap.ofList es
  | _ => none

def ChildRecord.toJson (c : ChildRecord) : Json :=
  obj [("kind", str c.kind.name), ("attrs", c.attrs.toJson)]

def ChildRecord.ofJson? (v : Json) : Option ChildRecord := do
  let slot ← v.slots? ["kind", "attrs"]
  return {
    kind := ← (slot "kind").required fun v ↦ do ChildKind.ofName? (← v.plainVariant?)
    attrs := ← (slot "attrs").withDefault ∅ Attrs.ofJson? }

namespace Record

def toJson (r : Record) : Json :=
  obj [("kind", str r.tag.name), ("id", str r.id), ("attrs", r.attrs.toJson),
    ("children", arr (r.children.map ChildRecord.toJson))]

def ofJson? (v : Json) : Option Record := do
  let slot ← v.slots? ["kind", "id", "attrs", "children"]
  return {
    tag := ← (slot "kind").required fun v ↦ do Tag.ofName? (← v.plainVariant?)
    id := ← (slot "id").required str?
    attrs := ← (slot "attrs").withDefault ∅ Attrs.ofJson?
    children := ← (slot "children").withDefault [] (list? ChildRecord.ofJson?) }

def listToJson (rs : List Record) : Json := arr (rs.map toJson)

def listOfJson? : Json → Option (List Record) := list? ofJson?

def listText (rs : List Record) : String := (listToJson rs).text

def readList? (text : String) : Option (List Record) := do listOfJson? (← read? text)

end Record

end ScopeForest
