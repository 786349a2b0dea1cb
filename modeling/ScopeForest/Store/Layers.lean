import ScopeForest.Store.Strip

namespace ScopeForest

inductive Layer
  | pointer
  | reference
  | array (size : ArraySize)
  | const
  | volatile
  deriving DecidableEq, Repr

structure Decomposition where
  layers : List Layer
  base : TypeId
  deriving DecidableEq, Repr

namespace Layer

def isQualifier : Layer → Bool
  | const | volatile => true
  | _ => false

def ofQualifiers (q : Qualifiers) : List Layer :=
  (if q.const then [const] else []) ++ (if q.volatile then [volatile] else [])

end Layer

namespace Decomposition

def shape? (d : Decomposition) : Option Layer := d.layers.find? (!·.isQualifier)

def isPointer (d : Decomposition) : Bool := d.shape? == some .pointer

def isReference (d : Decomposition) : Bool := d.shape? == some .reference

def isArray (d : Decomposition) : Bool :=
  match d.shape? with
  | some (.array _) => true
  | _ => false

end Decomposition

/-- A pointer, reference or array as a layer around another type. -/
def Ty.shape? : Ty → Option (Layer × TypeId)
  | pointer t => some (.pointer, t)
  | reference t => some (.reference, t)
  | array element size => some (.array size, element)
  | _ => none

def Ty.layer? : Ty → Option (Layer × TypeId)
  | const t => some (.const, t)
  | volatile t => some (.volatile, t)
  | node => node.shape?

inductive TypeClass
  | fundamental | declared | pointer | reference | array | function
  | memberFunctionPointer | memberPointer | instantiation
  deriving DecidableEq, Repr

def TypeClass.name : TypeClass → String
  | fundamental => "Fundamental"
  | declared => "Declared"
  | pointer => "Pointer"
  | reference => "Reference"
  | array => "Array"
  | function => "Function"
  | memberFunctionPointer => "MemberFunctionPointer"
  | memberPointer => "MemberPointer"
  | instantiation => "Instantiation"

def Ty.class? : Ty → Option TypeClass
  | fundamental _ => some .fundamental
  | declared _ => some .declared
  | pointer _ => some .pointer
  | reference _ => some .reference
  | array .. => some .array
  | function _ => some .function
  | memberFunctionPointer .. => some .memberFunctionPointer
  | memberPointer .. => some .memberPointer
  | instantiation .. => some .instantiation
  | const _ | volatile _ => none

namespace Store

def decomposeAux (s : Store) : Nat → TypeId → Outcome Decomposition
  | 0, _ => Outcome.fault .endless
  | fuel + 1, t => do
    match (← s.ty t).layer? with
    | none => return ⟨[], t⟩
    | some (layer, inner) =>
      let d ← s.decomposeAux fuel inner
      return { d with layers := layer :: d.layers }

def decompose (s : Store) (t : TypeId) : Outcome Decomposition :=
  s.decomposeAux (s.types.length + 1) t

def decomposeCanonicalAux (s : Store) : Nat → TypeId → Outcome Decomposition
  | 0, _ => Outcome.fault .endless
  | fuel + 1, t => do
    let (head, q) ← s.canonicalHead t
    match (← s.ty head).shape? with
    | none => return ⟨Layer.ofQualifiers q, head⟩
    | some (layer, inner) =>
      let d ← s.decomposeCanonicalAux fuel inner
      return { d with layers := Layer.ofQualifiers q ++ layer :: d.layers }

/-- The layers of the canonical form: typedefs looked through at every level, const before
volatile. -/
def decomposeCanonical (s : Store) (t : TypeId) : Outcome Decomposition :=
  s.decomposeCanonicalAux (s.types.length + 1) t

def classify (s : Store) (t : TypeId) : Outcome TypeClass := do
  let (head, _) ← s.canonicalHead t
  match (← s.ty head).class? with
  | some c => return c
  | none => Outcome.fault (.noType head)

def baseDeclaration (s : Store) (t : TypeId) : Outcome (Option DeclId) := do
  let d ← s.decomposeCanonical t
  match ← s.ty d.base with
  | .declared cls => return some cls
  | .instantiation template _ => return some template
  | _ => return none

end Store

end ScopeForest
