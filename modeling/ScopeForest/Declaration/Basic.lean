import ScopeForest.FlagSet
import ScopeForest.Id
import ScopeForest.Kind

namespace ScopeForest

structure Location where
  file : FileId
  line : Nat
  deriving DecidableEq, Repr

structure BaseSpec where
  cls : DeclId
  access : Access
  isVirtual : Bool
  deriving DecidableEq, Repr

structure ClassDetails where
  key : ClassKey
  members : List DeclId := []
  bases : List BaseSpec := []
  /-- False for a forward declaration. -/
  isComplete : Bool := true
  isAbstract : Bool := false
  size : Option Nat := none
  /-- The instantiation that the class specializes. -/
  instantiates : Option TypeId := none
  /-- Typedefs that stand for the class. -/
  aliases : List DeclId := []
  deriving DecidableEq, Repr

inductive CallableFlag
  | virtual | pureVirtual | static | const | volatile | inline | explicit | external
  | artificial | noexcept | ellipsis | member
  deriving DecidableEq, Repr

namespace CallableFlag

def name : CallableFlag → String
  | virtual => "VIRTUAL"
  | pureVirtual => "PURE_VIRTUAL"
  | static => "STATIC"
  | const => "CONST"
  | volatile => "VOLATILE"
  | inline => "INLINE"
  | explicit => "EXPLICIT"
  | external => "EXTERN"
  | artificial => "ARTIFICIAL"
  | noexcept => "NOEXCEPT"
  | ellipsis => "ELLIPSIS"
  | member => "MEMBER"

instance : FlagNames CallableFlag where
  all := [virtual, pureVirtual, static, const, volatile, inline, explicit, external, artificial,
    noexcept, ellipsis, member]
  name := name
  bit f := f.ctorIdx
  width := 16

end CallableFlag

inductive VariableFlag
  | static | external | mutable | member
  deriving DecidableEq, Repr

namespace VariableFlag

def name : VariableFlag → String
  | static => "STATIC"
  | external => "EXTERN"
  | mutable => "MUTABLE"
  | member => "MEMBER"

instance : FlagNames VariableFlag where
  all := [static, external, mutable, member]
  name := name
  bit f := f.ctorIdx
  width := 8

end VariableFlag

structure Parameter where
  name : String := ""
  type : TypeId
  defaultValue : Option String := none
  deriving DecidableEq, Repr

structure CallableDetails where
  /-- Absent for constructors and destructors. -/
  returnType : Option TypeId := none
  parameters : List Parameter := []
  flags : FlagSet CallableFlag := ∅
  deriving DecidableEq, Repr

structure VariableDetails where
  type : TypeId
  flags : FlagSet VariableFlag := ∅
  bits : Option Nat := none
  init : Option String := none
  deriving DecidableEq, Repr

inductive Details
  | scope (members : List DeclId)
  | cls (c : ClassDetails)
  | enumeration (values : List DeclId)
  | enumerator (value : String)
  | callable (c : CallableDetails)
  | var (v : VariableDetails)
  | typedef (aliased : TypeId)
  deriving DecidableEq, Repr

structure Declaration where
  id : DeclId
  kind : DeclKind
  /-- As written; empty for unnamed entities. -/
  name : String
  /-- The unit that declared it first. -/
  unit : UnitId
  externalId : ExternalId
  parent : Option DeclId := none
  /-- Access of a class member. -/
  access : Option Access := none
  location : Option Location := none
  /-- A name made up for an unnamed scope. -/
  anonymous : Option String := none
  details : Details
  deriving DecidableEq, Repr

def Details.withMembers (members : List DeclId) : Details → Details
  | .scope _ => .scope members
  | .cls c => .cls { c with members }
  | .enumeration _ => .enumeration members
  | details => details

def Details.withAliases (aliases : List DeclId) : Details → Details
  | .cls c => .cls { c with aliases }
  | details => details

namespace Declaration

def isAnonymous (d : Declaration) : Bool := d.anonymous.isSome

def members (d : Declaration) : List DeclId :=
  match d.details with
  | .scope members => members
  | .cls c => c.members
  | .enumeration values => values
  | _ => []

def hasMembers (d : Declaration) : Bool :=
  match d.details with
  | .scope _ | .cls _ | .enumeration _ => true
  | _ => false

def withMembers (members : List DeclId) (d : Declaration) : Declaration :=
  { d with details := d.details.withMembers members }

def addMember (member : DeclId) (d : Declaration) : Declaration :=
  d.withMembers (d.members ++ [member])

def withAliases (aliases : List DeclId) (d : Declaration) : Declaration :=
  { d with details := d.details.withAliases aliases }

def classDetails? (d : Declaration) : Option ClassDetails :=
  match d.details with
  | .cls c => some c
  | _ => none

def callableDetails? (d : Declaration) : Option CallableDetails :=
  match d.details with
  | .callable c => some c
  | _ => none

def variableDetails? (d : Declaration) : Option VariableDetails :=
  match d.details with
  | .var v => some v
  | _ => none

def aliased? (d : Declaration) : Option TypeId :=
  match d.details with
  | .typedef t => some t
  | _ => none

def instantiates? (d : Declaration) : Option TypeId := d.classDetails?.bind (·.instantiates)

/-- What the type of the declaration stands for: the target of a typedef, the instantiation of a
specialized class. -/
def expansion? (d : Declaration) : Option TypeId := d.aliased? <|> d.instantiates?

def bases (d : Declaration) : List BaseSpec := (d.classDetails?.map (·.bases)).getD []

def aliases (d : Declaration) : List DeclId := (d.classDetails?.map (·.aliases)).getD []

def addAlias (typedef : DeclId) (d : Declaration) : Declaration :=
  d.withAliases (d.aliases ++ [typedef])

def valueType? (d : Declaration) : Option TypeId :=
  match d.details with
  | .var v => some v.type
  | .typedef t => some t
  | .callable c => c.returnType
  | _ => none

def hasFlag (d : Declaration) (f : CallableFlag) : Bool := d.callableDetails?.any (·.flags.has f)

def isVirtual (d : Declaration) : Bool := d.hasFlag .virtual || d.hasFlag .pureVirtual

def isPureVirtual (d : Declaration) : Bool := d.hasFlag .pureVirtual

def isStatic (d : Declaration) : Bool :=
  d.hasFlag .static || d.variableDetails?.any (·.flags.has .static)

def isConst (d : Declaration) : Bool := d.hasFlag .const

end Declaration

end ScopeForest
