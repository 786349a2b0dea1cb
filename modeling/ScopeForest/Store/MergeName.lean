import ScopeForest.Store.Spelling

namespace ScopeForest

def Ty.owner? : Ty → Option DeclId
  | declared d => some d
  | instantiation template _ => some template
  | memberPointer cls _ | memberFunctionPointer cls _ => some cls
  | _ => none

def anonymousTag (names : List String) : String :=
  match names with
  | [] => ""
  | names => " [" ++ ", ".intercalate names ++ "]"

namespace Store

def anonymousAroundAux (s : Store) : Nat → DeclId → Outcome (List String)
  | 0, _ => Outcome.fault .endless
  | fuel + 1, d => do
    let decl ← s.decl d
    let outer ← match decl.parent with
      | none => pure []
      | some parent => s.anonymousAroundAux fuel parent
    return decl.anonymous.toList ++ outer

/-- The unnamed scopes that a declaration is or lies in, from the inside out. -/
def anonymousAround (s : Store) (d : DeclId) : Outcome (List String) :=
  s.anonymousAroundAux (s.decls.length + 1) d

/-- The unnamed scopes around the declaration that a node names, and the instantiation that this
declaration specializes. -/
def ownerScopes (s : Store) (node : Ty) : Outcome (List String × Option TypeId) :=
  match node.owner? with
  | none => return ([], none)
  | some d => do return (← s.anonymousAround d, (← s.decl d).instantiates?)

def anonymousScopesAux (s : Store) : Nat → TypeId → Outcome (List String)
  | 0, _ => Outcome.fault .endless
  | fuel + 1, t => do
    let (head, _) ← s.canonicalHead t
    let node ← s.ty head
    let (own, special) ← s.ownerScopes node
    let inner ← (special.toList ++ node.children).mapM (s.anonymousScopesAux fuel)
    return own ++ inner.flatten

/-- The unnamed scopes around the declarations that the canonical form of a type names; one may
come up more than once. -/
def anonymousScopes (s : Store) (t : TypeId) : Outcome (List String) :=
  s.anonymousScopesAux (s.types.length + 1) t

/-- What tells overloads apart: the canonical parameter types and the qualifiers of the callable. -/
def signatureKey (s : Store) (d : DeclId) : Outcome (Option String) := do
  match (← s.decl d).callableDetails? with
  | none => return none
  | some c =>
    let types := c.parameters.map (·.type)
    let texts ← types.mapM (s.spell true)
    let params := texts ++ if c.flags.has .ellipsis then ["..."] else []
    let anonymous ← types.mapM s.anonymousScopes
    return some ("(" ++ ", ".intercalate params ++ ")" ++
      Qualifiers.suffix ⟨c.flags.has .const, c.flags.has .volatile⟩ ++
      (if c.flags.has .noexcept then " noexcept" else "") ++
      anonymousTag anonymous.flatten.eraseDups)

/-- Where a type reaches an unnamed scope, which its spelling leaves out, the made-up names of those
scopes are added. -/
def mergeName (s : Store) (d : DeclId) : Outcome String := do
  let name ← s.declName d
  match (← s.decl d).instantiates? with
  | none => return name
  | some t => return name ++ anonymousTag (← s.anonymousScopes t).eraseDups

end Store

end ScopeForest
