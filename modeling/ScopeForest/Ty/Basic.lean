import ScopeForest.Id

namespace ScopeForest

inductive ArraySize
  | known (n : Nat)
  | unknown
  /-- An expression that the front-end left as text. -/
  | dependent (text : String)
  deriving DecidableEq, Repr

structure Signature where
  returnType : TypeId
  parameters : List TypeId
  hasEllipsis : Bool := false
  isConst : Bool := false
  isVolatile : Bool := false
  deriving DecidableEq, Repr

inductive TemplateArg
  | type (t : TypeId)
  | value (text : String)
  deriving DecidableEq, Repr

inductive Ty
  | fundamental (name : String)
  | declared (d : DeclId)
  | pointer (t : TypeId)
  | reference (t : TypeId)
  | array (element : TypeId) (size : ArraySize)
  | const (t : TypeId)
  | volatile (t : TypeId)
  | function (s : Signature)
  | memberFunctionPointer (cls : DeclId) (s : Signature)
  | memberPointer (cls : DeclId) (pointee : TypeId)
  | instantiation (template : DeclId) (args : List TemplateArg)
  deriving DecidableEq, Repr

structure Qualifiers where
  const : Bool := false
  volatile : Bool := false
  deriving DecidableEq, Repr

namespace Qualifiers

def union (p q : Qualifiers) : Qualifiers := ⟨p.const || q.const, p.volatile || q.volatile⟩

def names (q : Qualifiers) : String :=
  " | ".intercalate (List.filterMap id
    [if q.const then some "CONST" else none, if q.volatile then some "VOLATILE" else none])

end Qualifiers

namespace Signature

def children (s : Signature) : List TypeId := s.returnType :: s.parameters

def map (f : TypeId → TypeId) (s : Signature) : Signature :=
  { s with returnType := f s.returnType, parameters := s.parameters.map f }

end Signature

namespace TemplateArg

def type? : TemplateArg → Option TypeId
  | type t => some t
  | value _ => none

def map (f : TypeId → TypeId) : TemplateArg → TemplateArg
  | type t => type (f t)
  | value text => value text

end TemplateArg

namespace Ty

def children : Ty → List TypeId
  | fundamental _ | declared _ => []
  | pointer t | reference t | const t | volatile t => [t]
  | array element _ => [element]
  | memberPointer _ pointee => [pointee]
  | function s | memberFunctionPointer _ s => s.children
  | instantiation _ args => args.filterMap TemplateArg.type?

def isVoid : Ty → Bool
  | fundamental name => name == "void"
  | _ => false

def rename (d : DeclId → DeclId) (t : TypeId → TypeId) : Ty → Ty
  | fundamental name => fundamental name
  | declared i => declared (d i)
  | pointer i => pointer (t i)
  | reference i => reference (t i)
  | array element size => array (t element) size
  | const i => const (t i)
  | volatile i => volatile (t i)
  | function s => function (s.map t)
  | memberFunctionPointer cls s => memberFunctionPointer (d cls) (s.map t)
  | memberPointer cls pointee => memberPointer (d cls) (t pointee)
  | instantiation template args => instantiation (d template) (args.map (TemplateArg.map t))

end Ty

end ScopeForest
