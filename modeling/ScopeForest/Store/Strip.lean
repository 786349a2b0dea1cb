import ScopeForest.Store.Basic

namespace ScopeForest.Store

/-- Goes from typedef to typedef; `seen` are those passed so far. -/
def followAliases (s : Store) (seen : List DeclId) (t : TypeId) : Outcome TypeId :=
  match s.ty t with
  | .error e => .error e
  | .ok (.declared d) =>
    match _ : d.get? s.decls with
    | none => Outcome.fault (.noDecl d)
    | some decl =>
      match decl.aliased? with
      | none => .ok t
      | some target =>
        if _ : d ∈ seen then Outcome.refuse (.cyclicAlias decl.externalId)
        else s.followAliases (d :: seen) target
  | .ok _ => .ok t
termination_by Id.unseen s.decls seen
decreasing_by exact Id.unseen_cons_lt ‹_› ‹_›

def stripAliases (s : Store) (t : TypeId) : Outcome TypeId := s.followAliases [] t

def stripQualifiersAux (s : Store) : Nat → Qualifiers → TypeId → Outcome (TypeId × Qualifiers)
  | 0, _, _ => Outcome.fault .endless
  | fuel + 1, q, t =>
    match s.ty t with
    | .error e => .error e
    | .ok (.const u) => s.stripQualifiersAux fuel { q with const := true } u
    | .ok (.volatile u) => s.stripQualifiersAux fuel { q with volatile := true } u
    | .ok _ => .ok (t, q)

/-- The type inside the outer qualifiers, and those qualifiers. Typedefs are not looked through. -/
def stripQualifiers (s : Store) (t : TypeId) : Outcome (TypeId × Qualifiers) :=
  s.stripQualifiersAux (s.types.length + 1) {} t

def followHead (s : Store) (seen : List DeclId) (q : Qualifiers) (t : TypeId) :
    Outcome (TypeId × Qualifiers) :=
  match s.stripQualifiersAux (s.types.length + 1) q t with
  | .error e => .error e
  | .ok (u, q) =>
    match s.ty u with
    | .error e => .error e
    | .ok (.declared d) =>
      match _ : d.get? s.decls with
      | none => Outcome.fault (.noDecl d)
      | some decl =>
        match decl.expansion? with
        | none => .ok (u, q)
        | some next =>
          if _ : d ∈ seen then Outcome.refuse (.cyclicAlias decl.externalId)
          else s.followHead (d :: seen) q next
    | .ok _ => .ok (u, q)
termination_by Id.unseen s.decls seen
decreasing_by exact Id.unseen_cons_lt ‹_› ‹_›

/-- What is left when neither typedefs nor qualifiers can be looked through any more, a class that
specializes a template counting as its instantiation; and all qualifiers on the way. -/
def canonicalHead (s : Store) (t : TypeId) : Outcome (TypeId × Qualifiers) := s.followHead [] {} t

def viewAux (s : Store) : Nat → Qualifiers → TypeId → Outcome (Option (TypeId × Qualifiers))
  | 0, _, _ => Outcome.fault .endless
  | fuel + 1, q, t => do
    match ← (s.stripAliases t).recover with
    | .error _ => return none
    | .ok u =>
      let (v, p) ← s.stripQualifiers u
      if v = t then return some (t, q.union p) else s.viewAux fuel (q.union p) v

/-- A type behind its typedefs and qualifiers, and those qualifiers. A specialized class stays a
class; a chain of typedefs that runs in a circle has no view. -/
def view (s : Store) (t : TypeId) : Outcome (Option (TypeId × Qualifiers)) :=
  s.viewAux (s.types.length + 1) {} t

end ScopeForest.Store
