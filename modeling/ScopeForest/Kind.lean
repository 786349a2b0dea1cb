namespace ScopeForest

def readName? {α : Type} (all : List α) (name : α → String) (text : String) : Option α :=
  all.find? fun a ↦ name a == text

inductive DeclKind
  | namespaceDecl | classDecl | unionDecl | enumDecl
  | function | memberFunction | constructor | destructor | operator
  | variableDecl | typedef | enumerator
  deriving DecidableEq, Repr

namespace DeclKind

def all : List DeclKind :=
  [namespaceDecl, classDecl, unionDecl, enumDecl, function, memberFunction, constructor,
    destructor, operator, variableDecl, typedef, enumerator]

def name : DeclKind → String
  | namespaceDecl => "Namespace"
  | classDecl => "Class"
  | unionDecl => "Union"
  | enumDecl => "Enum"
  | function => "Function"
  | memberFunction => "MemberFunction"
  | constructor => "Constructor"
  | destructor => "Destructor"
  | operator => "Operator"
  | variableDecl => "Variable"
  | typedef => "Typedef"
  | enumerator => "EnumValue"

def ofName? (text : String) : Option DeclKind := readName? all name text

def isScope : DeclKind → Bool
  | namespaceDecl | classDecl | unionDecl | enumDecl => true
  | _ => false

def isCallable : DeclKind → Bool
  | function | memberFunction | constructor | destructor | operator => true
  | _ => false

def isTypeDeclaration : DeclKind → Bool
  | classDecl | unionDecl | enumDecl | typedef => true
  | _ => false

end DeclKind

inductive Access
  | pub | prot | priv
  deriving DecidableEq, Repr

namespace Access

def all : List Access := [pub, prot, priv]

def name : Access → String
  | pub => "Public"
  | prot => "Protected"
  | priv => "Private"

def keyword : Access → String
  | pub => "public"
  | prot => "protected"
  | priv => "private"

def ofName? (text : String) : Option Access := readName? all name text

def ofKeyword? (text : String) : Option Access :=
  readName? all keyword text <|> ofName? text

end Access

inductive ClassKey
  | classKey | structKey | unionKey
  deriving DecidableEq, Repr

namespace ClassKey

def all : List ClassKey := [classKey, structKey, unionKey]

def name : ClassKey → String
  | classKey => "Class"
  | structKey => "Struct"
  | unionKey => "Union"

def ofName? (text : String) : Option ClassKey := readName? all name text

/-- Access of members declared without a specifier. -/
def defaultAccess : ClassKey → Access
  | classKey => .priv
  | structKey | unionKey => .pub

end ClassKey

end ScopeForest
