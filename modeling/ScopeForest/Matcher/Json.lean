import ScopeForest.Json.Printer
import ScopeForest.Json.Reader
import ScopeForest.Matcher.Basic
import ScopeForest.Ty.Json

namespace ScopeForest

open Json

mutual

def Matcher.toJson : Matcher → Json
  | .anything => str "anything"
  | .nameEquals name => tagged "name_equals" (str name)
  | .nameMatches pattern => tagged "name_matches" (str pattern.source)
  | .qualifiedNameEquals name => tagged "qualified_name_equals" (str name)
  | .kindIs kind => tagged "kind_is" (str kind.name)
  | .accessIs access => tagged "access_is" (str access.name)
  | .isVirtual => str "is_virtual"
  | .isPureVirtual => str "is_pure_virtual"
  | .isStatic => str "is_static"
  | .isConst => str "is_const"
  | .typeMatches type => tagged "type_matches" type.toJson
  | .returnType type => tagged "return_type" type.toJson
  | .hasParameter type => tagged "has_parameter" type.toJson
  | .parameterCount n => tagged "parameter_count" (nat n)
  | .hasBaseClass base => tagged "has_base_class" base.toJson
  | .parentIs parent => tagged "parent_is" parent.toJson
  | .conj all => tagged "and" (arr (Matcher.listToJson all))
  | .disj any => tagged "or" (arr (Matcher.listToJson any))
  | .neg m => tagged "not" m.toJson

def Matcher.listToJson : List Matcher → List Json
  | [] => []
  | m :: ms => m.toJson :: Matcher.listToJson ms

def TypeMatcher.toJson : TypeMatcher → Json
  | .any => str "any"
  | .fundamental name => tagged "fundamental" (ofOption (name.map str))
  | .void => str "void"
  | .pointerTo target => tagged "pointer_to" target.toJson
  | .referenceTo target => tagged "reference_to" target.toJson
  | .arrayOf element => tagged "array_of" element.toJson
  | .const inner => tagged "const" inner.toJson
  | .volatile inner => tagged "volatile" inner.toJson
  | .declared decl => tagged "declared" decl.toJson
  | .equalTo t => tagged "equal_to" t.toJson
  | .spelled text => tagged "rendered" (str text)
  | .conj all => tagged "all" (arr (TypeMatcher.listToJson all))
  | .disj any => tagged "any_of" (arr (TypeMatcher.listToJson any))
  | .neg m => tagged "not" m.toJson

def TypeMatcher.listToJson : List TypeMatcher → List Json
  | [] => []
  | m :: ms => m.toJson :: TypeMatcher.listToJson ms

end

def Matcher.ofName? : String → Option Matcher
  | "anything" => some .anything
  | "is_virtual" => some .isVirtual
  | "is_pure_virtual" => some .isPureVirtual
  | "is_static" => some .isStatic
  | "is_const" => some .isConst
  | _ => none

def TypeMatcher.ofName? : String → Option TypeMatcher
  | "any" => some .any
  | "void" => some .void
  | _ => none

def nullableText? : Json → Option (Option String)
  | null => some none
  | v => v.str?.map some

mutual

def Matcher.ofJson? : Json → Option Matcher
  | str name => Matcher.ofName? name
  | obj [(name, v)] => match name with
    | "name_equals" => v.str?.map .nameEquals
    | "name_matches" => v.str?.bind Matcher.pattern?
    | "qualified_name_equals" => v.str?.map .qualifiedNameEquals
    | "kind_is" => (v.plainVariant?.bind DeclKind.ofName?).map .kindIs
    | "access_is" => (v.plainVariant?.bind Access.ofName?).map .accessIs
    | "type_matches" => (TypeMatcher.ofJson? v).map .typeMatches
    | "return_type" => (TypeMatcher.ofJson? v).map .returnType
    | "has_parameter" => (TypeMatcher.ofJson? v).map .hasParameter
    | "parameter_count" => (v.nat? Text.maxWord64).map .parameterCount
    | "has_base_class" => (Matcher.ofJson? v).map .hasBaseClass
    | "parent_is" => (Matcher.ofJson? v).map .parentIs
    | "and" => match v with
      | arr items => (Matcher.listOfJson? items).map .conj
      | _ => none
    | "or" => match v with
      | arr items => (Matcher.listOfJson? items).map .disj
      | _ => none
    | "not" => (Matcher.ofJson? v).map .neg
    | name => match v with
      | null => Matcher.ofName? name
      | _ => none
  | _ => none

def Matcher.listOfJson? : List Json → Option (List Matcher)
  | [] => some []
  | v :: vs => do return (← Matcher.ofJson? v) :: (← Matcher.listOfJson? vs)

def TypeMatcher.ofJson? : Json → Option TypeMatcher
  | str name => TypeMatcher.ofName? name
  | obj [(name, v)] => match name with
    | "fundamental" => (nullableText? v).map .fundamental
    | "pointer_to" => (TypeMatcher.ofJson? v).map .pointerTo
    | "reference_to" => (TypeMatcher.ofJson? v).map .referenceTo
    | "array_of" => (TypeMatcher.ofJson? v).map .arrayOf
    | "const" => (TypeMatcher.ofJson? v).map .const
    | "volatile" => (TypeMatcher.ofJson? v).map .volatile
    | "declared" => (Matcher.ofJson? v).map .declared
    | "equal_to" => (Id.ofJson? v).map .equalTo
    | "rendered" => v.str?.map .spelled
    | "all" => match v with
      | arr items => (TypeMatcher.listOfJson? items).map .conj
      | _ => none
    | "any_of" => match v with
      | arr items => (TypeMatcher.listOfJson? items).map .disj
      | _ => none
    | "not" => (TypeMatcher.ofJson? v).map .neg
    | name => match v with
      | null => TypeMatcher.ofName? name
      | _ => none
  | _ => none

def TypeMatcher.listOfJson? : List Json → Option (List TypeMatcher)
  | [] => some []
  | v :: vs => do return (← TypeMatcher.ofJson? v) :: (← TypeMatcher.listOfJson? vs)

end

namespace Matcher

def nestingLimit : Nat := 127

def jsonText (m : Matcher) : String := m.toJson.text

def ofText? (text : String) : Option Matcher := do
  let v ← (read? text).filter fun v ↦ decide (v.depth ≤ nestingLimit)
  ofJson? v

instance : BEq Matcher := ⟨fun a b ↦ a.jsonText == b.jsonText⟩

end Matcher

namespace TypeMatcher

def jsonText (m : TypeMatcher) : String := m.toJson.text

def ofText? (text : String) : Option TypeMatcher := do
  let v ← (read? text).filter fun v ↦ decide (v.depth ≤ Matcher.nestingLimit)
  ofJson? v

end TypeMatcher

end ScopeForest
