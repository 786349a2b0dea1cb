import ScopeForest.Store.Strip

namespace ScopeForest

/-- Spells a type, canonically or as it stands. -/
abbrev Speller := Bool → TypeId → Outcome String

def Qualifiers.suffix (q : Qualifiers) : String :=
  (if q.const then " const" else "") ++ (if q.volatile then " volatile" else "")

def ArraySize.text : ArraySize → String
  | known n => toString n
  | unknown => ""
  | dependent text => text

namespace Signature

def suffix (s : Signature) : String := Qualifiers.suffix ⟨s.isConst, s.isVolatile⟩

def spellParameters (spell : TypeId → Outcome String) (s : Signature) : Outcome String := do
  let ps ← s.parameters.mapM spell
  return ", ".intercalate (ps ++ if s.hasEllipsis then ["..."] else [])

def spellAround (spell : TypeId → Outcome String) (declarator : Outcome String) (s : Signature) :
    Outcome String := do
  let result ← spell s.returnType
  let inner ← declarator
  return result ++ " " ++ inner ++ "(" ++ (← s.spellParameters spell) ++ ")" ++ s.suffix

end Signature

/-- Template arguments are always spelled canonically. -/
def spellArgs (spell : Speller) (args : List TemplateArg) : Outcome String := do
  let texts ← args.mapM fun
    | .type t => spell true t
    | .value text => return text
  return ", ".intercalate texts

namespace Store

def nameWith (s : Store) (spell : Speller) (d : DeclId) : Outcome String := do
  let decl ← s.decl d
  match decl.instantiates? with
  | none => return decl.name
  | some t =>
    match ← s.ty t with
    | .instantiation template args =>
      return (← s.decl template).name ++ "<" ++ (← spellArgs spell args) ++ ">"
    | _ => return decl.name

def pathAux (s : Store) (spell : Speller) : Nat → DeclId → List String → Outcome (List String)
  | 0, _, _ => Outcome.fault .endless
  | fuel + 1, d, below => do
    let decl ← s.decl d
    match decl.parent with
    | none => return below
    | some parent =>
      if decl.isAnonymous then s.pathAux spell fuel parent below
      else s.pathAux spell fuel parent ((← s.nameWith spell d) :: below)

/-- The names from the outermost scope below the root down to a declaration. -/
def pathWith (s : Store) (spell : Speller) (d : DeclId) : Outcome (List String) :=
  s.pathAux spell (s.decls.length + 1) d []

def qualifiedNameWith (s : Store) (spell : Speller) (d : DeclId) : Outcome String := do
  return "::".intercalate (← s.pathWith spell d)

/-- What a pointer points to: the canonical text looks at the canonical head. -/
def pointee (s : Store) (canonical : Bool) (t : TypeId) : Outcome TypeId :=
  if canonical then Prod.fst <$> s.canonicalHead t else return t

/-- A pointer or reference; around a function the mark stands inside parentheses. -/
def spellPointer (s : Store) (spell : Speller) (canonical : Bool) (mark : String) (t : TypeId) :
    Outcome String := do
  match ← s.ty (← s.pointee canonical t) with
  | .function sig => sig.spellAround (spell canonical) (return "(" ++ mark ++ ")")
  | _ => return (← spell canonical t) ++ " " ++ mark

def spellNode (s : Store) (spell : Speller) (canonical : Bool) : Ty → Outcome String
  | .fundamental name => return name
  | .declared d => s.qualifiedNameWith spell d
  | .pointer t => s.spellPointer spell canonical "*" t
  | .reference t => s.spellPointer spell canonical "&" t
  | .const t => do return (← spell canonical t) ++ " const"
  | .volatile t => do return (← spell canonical t) ++ " volatile"
  | .array element size => do return (← spell canonical element) ++ "[" ++ size.text ++ "]"
  | .function sig => sig.spellAround (spell canonical) (return "")
  | .memberFunctionPointer cls sig =>
    sig.spellAround (spell canonical) do return "(" ++ (← s.qualifiedNameWith spell cls) ++ "::*)"
  | .memberPointer cls pointee => do
    return (← spell canonical pointee) ++ " " ++ (← s.qualifiedNameWith spell cls) ++ "::*"
  | .instantiation template args => do
    return (← s.qualifiedNameWith spell template) ++ "<" ++ (← spellArgs spell args) ++ ">"

def spellAux (s : Store) : Nat → Speller
  | 0, _, _ => Outcome.fault .endless
  | fuel + 1, true, t => do
    let (head, q) ← s.canonicalHead t
    return (← s.spellNode (s.spellAux fuel) true (← s.ty head)) ++ q.suffix
  | fuel + 1, false, t => do s.spellNode (s.spellAux fuel) false (← s.ty t)

/-- Qualifiers stand behind what they qualify, const before volatile in the canonical text; the root
and unnamed scopes are left out. -/
def spell (s : Store) (canonical : Bool) (t : TypeId) : Outcome String :=
  s.spellAux (2 * s.types.length + 1) canonical t

def declName (s : Store) (d : DeclId) : Outcome String := s.nameWith s.spell d

def qualifiedPath (s : Store) (d : DeclId) : Outcome (List String) := s.pathWith s.spell d

def qualifiedName (s : Store) (d : DeclId) : Outcome String := s.qualifiedNameWith s.spell d

/-- The qualified name, or the plain name where there is none. -/
def shownName (s : Store) (d : DeclId) : Outcome String := do
  match ← (s.qualifiedName d).recover with
  | .ok name => return name
  | .error _ => return (← s.decl d).name

def displayName (s : Store) (d : DeclId) : Outcome String := do
  match ← (s.declName d).recover with
  | .ok name => return name
  | .error _ => return (← s.decl d).name

end Store

end ScopeForest
