import ScopeForest.Store.Strip

namespace ScopeForest

def sameItems {α : Type} (same : α → α → Outcome Bool) : List α → List α → Outcome Bool
  | [], [] => return true
  | x :: xs, y :: ys => do if ← same x y then sameItems same xs ys else return false
  | _, _ => return false

def Signature.same (same : TypeId → TypeId → Outcome Bool) (a b : Signature) : Outcome Bool :=
  if a.hasEllipsis = b.hasEllipsis ∧ a.isConst = b.isConst ∧ a.isVolatile = b.isVolatile ∧
      a.parameters.length = b.parameters.length then
    sameItems same a.children b.children
  else return false

def TemplateArg.same (same : TypeId → TypeId → Outcome Bool) :
    TemplateArg → TemplateArg → Outcome Bool
  | type a, type b => same a b
  | value a, value b => return a == b
  | _, _ => return false

def Ty.same (same : TypeId → TypeId → Outcome Bool) : Ty → Ty → Outcome Bool
  | fundamental a, fundamental b => return a == b
  | declared a, declared b => return a == b
  | pointer a, pointer b => same a b
  | reference a, reference b => same a b
  | const a, const b => same a b
  | volatile a, volatile b => same a b
  | array a m, array b n => if m = n then same a b else return false
  | function a, function b => a.same same b
  | memberFunctionPointer c a, memberFunctionPointer d b =>
    if c = d then a.same same b else return false
  | memberPointer c a, memberPointer d b => if c = d then same a b else return false
  | instantiation c a, instantiation d b =>
    if c = d ∧ a.length = b.length then sameItems (TemplateArg.same same) a b else return false
  | _, _ => return false

namespace Store

def structuralEqualsAux (s : Store) : Nat → TypeId → TypeId → Outcome Bool
  | 0, _, _ => Outcome.fault .endless
  | fuel + 1, a, b =>
    if a = b then return true
    else do
      let (a, p) ← s.canonicalHead a
      let (b, q) ← s.canonicalHead b
      if p = q then (← s.ty a).same (s.structuralEqualsAux fuel) (← s.ty b) else return false

/-- Typedefs are transparent, qualifiers form a set, a specialized class is its instantiation, and
declarations are compared by identity. -/
def structuralEquals (s : Store) (a b : TypeId) : Outcome Bool :=
  s.structuralEqualsAux (s.types.length * s.types.length + 1) a b

def rawEqualsAux (s : Store) : Nat → TypeId → TypeId → Outcome Bool
  | 0, _, _ => Outcome.fault .endless
  | fuel + 1, a, b =>
    if a = b then return true
    else do (← s.ty a).same (s.rawEqualsAux fuel) (← s.ty b)

def rawEquals (s : Store) (a b : TypeId) : Outcome Bool :=
  s.rawEqualsAux (s.types.length * s.types.length + 1) a b

end Store

end ScopeForest
