import ScopeForest.Matcher.Basic
import ScopeForest.Text.Quoted

namespace ScopeForest

def joinConditions (sep none : String) (texts : List String) : String :=
  if texts.isEmpty then none else "(" ++ sep.intercalate texts ++ ")"

mutual

def Matcher.text : Matcher → String
  | .anything => "*"
  | .nameEquals name => "name == " ++ Text.quoted name
  | .nameMatches pattern => "name =~ /" ++ pattern.source ++ "/"
  | .qualifiedNameEquals name => "qualified_name == " ++ Text.quoted name
  | .kindIs kind => "kind == " ++ kind.name
  | .accessIs access => "access == " ++ access.keyword
  | .isVirtual => "virtual"
  | .isPureVirtual => "pure_virtual"
  | .isStatic => "static"
  | .isConst => "const"
  | .typeMatches type => "type(" ++ type.text ++ ")"
  | .returnType type => "returns(" ++ type.text ++ ")"
  | .hasParameter type => "has_parameter(" ++ type.text ++ ")"
  | .parameterCount n => "parameters == " ++ toString n
  | .hasBaseClass base => "has_base(" ++ base.text ++ ")"
  | .parentIs parent => "parent(" ++ parent.text ++ ")"
  | .conj all => joinConditions " && " "*" (Matcher.texts all)
  | .disj any => joinConditions " || " "!*" (Matcher.texts any)
  | .neg m => "!" ++ m.text

def Matcher.texts : List Matcher → List String
  | [] => []
  | m :: ms => m.text :: Matcher.texts ms

def TypeMatcher.text : TypeMatcher → String
  | .any => "*"
  | .fundamental none => "fundamental"
  | .fundamental (some name) => name
  | .void => "void"
  | .pointerTo target => target.text ++ " *"
  | .referenceTo target => target.text ++ " &"
  | .arrayOf element => element.text ++ "[]"
  | .const inner => inner.text ++ " const"
  | .volatile inner => inner.text ++ " volatile"
  | .declared decl => "decl(" ++ decl.text ++ ")"
  | .equalTo t => "type#" ++ toString t.val
  | .spelled text => Text.quoted text
  | .conj all => joinConditions " && " "*" (TypeMatcher.texts all)
  | .disj any => joinConditions " || " "!*" (TypeMatcher.texts any)
  | .neg m => "!" ++ m.text

def TypeMatcher.texts : List TypeMatcher → List String
  | [] => []
  | m :: ms => m.text :: TypeMatcher.texts ms

end

end ScopeForest
