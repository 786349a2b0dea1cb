import ScopeForest.Id
import ScopeForest.Kind
import ScopeForest.NameMap

namespace ScopeForest

inductive Tag
  | file | namespaceTag | classTag | structTag | unionTag | enumeration
  | function | method | constructor | destructor
  | operatorFunction | operatorMethod | converter
  | variableTag | field | typedef
  | fundamentalType | pointerType | referenceType | arrayType | cvQualifiedType
  | functionType | methodType | offsetType | templateInstantiation
  deriving DecidableEq, Repr

namespace Tag

def all : List Tag :=
  [file, namespaceTag, classTag, structTag, unionTag, enumeration, function, method, constructor,
    destructor, operatorFunction, operatorMethod, converter, variableTag, field, typedef,
    fundamentalType, pointerType, referenceType, arrayType, cvQualifiedType, functionType,
    methodType, offsetType, templateInstantiation]

def name : Tag → String
  | file => "File"
  | namespaceTag => "Namespace"
  | classTag => "Class"
  | structTag => "Struct"
  | unionTag => "Union"
  | enumeration => "Enumeration"
  | function => "Function"
  | method => "Method"
  | constructor => "Constructor"
  | destructor => "Destructor"
  | operatorFunction => "OperatorFunction"
  | operatorMethod => "OperatorMethod"
  | converter => "Converter"
  | variableTag => "Variable"
  | field => "Field"
  | typedef => "Typedef"
  | fundamentalType => "FundamentalType"
  | pointerType => "PointerType"
  | referenceType => "ReferenceType"
  | arrayType => "ArrayType"
  | cvQualifiedType => "CvQualifiedType"
  | functionType => "FunctionType"
  | methodType => "MethodType"
  | offsetType => "OffsetType"
  | templateInstantiation => "TemplateInstantiation"

def ofName? (text : String) : Option Tag := readName? all name text

def declKind? : Tag → Option DeclKind
  | namespaceTag => some .namespaceDecl
  | classTag | structTag => some .classDecl
  | unionTag => some .unionDecl
  | enumeration => some .enumDecl
  | function => some .function
  | method => some .memberFunction
  | constructor => some .constructor
  | destructor => some .destructor
  | operatorFunction | operatorMethod | converter => some .operator
  | variableTag | field => some .variableDecl
  | typedef => some .typedef
  | _ => none

def isType : Tag → Bool
  | fundamentalType | pointerType | referenceType | arrayType | cvQualifiedType
  | functionType | methodType | offsetType | templateInstantiation => true
  | _ => false

def isMemberOnly : Tag → Bool
  | method | constructor | destructor | operatorMethod | converter | field => true
  | _ => false

def classKey? : Tag → Option ClassKey
  | classTag => some .classKey
  | structTag => some .structKey
  | unionTag => some .unionKey
  | _ => none

end Tag

inductive AttrValue
  | literal (text : String)
  | ref (id : ExternalId)
  | refs (ids : List ExternalId)
  deriving DecidableEq, Repr

def AttrValue.references : AttrValue → List ExternalId
  | literal _ => []
  | ref id => [id]
  | refs ids => ids

abbrev Attrs := NameMap AttrValue

namespace Attrs

def literal? (attrs : Attrs) (name : String) : Option String :=
  match attrs.get? name with
  | some (.literal text) => some text
  | _ => none

def ref? (attrs : Attrs) (name : String) : Option ExternalId :=
  match attrs.get? name with
  | some (.ref id) => some id
  | _ => none

/-- Truth is written `1` or `true`. -/
def flag (attrs : Attrs) (name : String) : Bool :=
  attrs.literal? name == some "1" || attrs.literal? name == some "true"

def references (attrs : Attrs) : List ExternalId := attrs.values.flatMap AttrValue.references

end Attrs

inductive ChildKind
  | argument | ellipsis | base | enumerator | templateArgument
  deriving DecidableEq, Repr

namespace ChildKind

def all : List ChildKind := [argument, ellipsis, base, enumerator, templateArgument]

def name : ChildKind → String
  | argument => "Argument"
  | ellipsis => "Ellipsis"
  | base => "Base"
  | enumerator => "EnumValue"
  | templateArgument => "TemplateArgument"

def ofName? (text : String) : Option ChildKind := readName? all name text

end ChildKind

structure ChildRecord where
  kind : ChildKind
  attrs : Attrs := ∅
  deriving DecidableEq

structure Record where
  tag : Tag
  id : ExternalId
  attrs : Attrs := ∅
  children : List ChildRecord := []
  deriving DecidableEq

namespace Record

def withAttr (r : Record) (name : String) (v : AttrValue) : Record :=
  { r with attrs := r.attrs.insert name v }

def withLiteral (r : Record) (name text : String) : Record := r.withAttr name (.literal text)

def withRef (r : Record) (name : String) (id : ExternalId) : Record := r.withAttr name (.ref id)

def withRefs (r : Record) (name : String) (ids : List ExternalId) : Record :=
  r.withAttr name (.refs ids)

def withFlag (r : Record) (name : String) : Record := r.withLiteral name "1"

def withChild (r : Record) (child : ChildRecord) : Record :=
  { r with children := r.children ++ [child] }

def childrenOf (r : Record) (kind : ChildKind) : List ChildRecord :=
  r.children.filter (·.kind = kind)

def references (r : Record) : List ExternalId :=
  r.attrs.references ++ r.children.flatMap (·.attrs.references)

end Record

namespace Field

def name := "name"
def context := "context"
def access := "access"
def file := "file"
def line := "line"
def type := "type"
def returns := "returns"
def basetype := "basetype"
def size := "size"
def init := "init"
def default := "default"
def value := "value"
def bits := "bits"
def template := "template"
def instantiates := "instantiates"
def const := "const"
def volatile := "volatile"
def virtual := "virtual"
def pureVirtual := "pure_virtual"
def static := "static"
def inline := "inline"
def explicit := "explicit"
def external := "extern"
def mutable := "mutable"
def artificial := "artificial"
def noexcept := "noexcept"
def incomplete := "incomplete"
def abstract := "abstract"

end Field

end ScopeForest
