import ScopeForest.Forest.Merge

namespace ScopeForest

/-- A frozen forest with its declarations in pre-order, the part of that order that lies inside each
of them, and the declarations with each name. -/
structure Graph where
  forest : Forest
  root : DeclId
  /-- All declarations in pre-order. -/
  order : List DeclId
  /-- Where in that order each declaration begins and ends. -/
  spans : List (Nat × Nat)
  /-- The declarations with a name, in pre-order. -/
  byName : NameMap (List DeclId)

def loneRoot (d : DeclId) : Declaration where
  id := d
  kind := .namespaceDecl
  name := "::"
  unit := ⟨1⟩
  externalId := "::"
  details := .scope []

namespace Store

def aliasedClass? (s : Store) (d : DeclId) : Option DeclId := do
  let target ← (← d.get? s.decls).aliased?
  let head ← (s.stripAliases target).toOption
  match head.get? s.types with
  | some (.declared c) =>
    if ((c.get? s.decls).bind (·.classDetails?)).isSome then some c else none
  | _ => none

/-- Lists with every class the typedefs among `order` that stand for it, after those it has. -/
def bindAliases (s : Store) (order : List DeclId) : Store :=
  let bound := order.filterMap fun d ↦ (s.aliasedClass? d).map (·, d)
  { s with decls := bound.foldl (fun decls b ↦ b.1.modify (·.addAlias b.2) decls) s.decls }

def clearAliases (s : Store) : Store :=
  { s with decls := s.decls.map (·.withAliases []) }

def indexName (s : Store) (index : NameMap (List DeclId)) (d : DeclId) : NameMap (List DeclId) :=
  match d.get? s.decls with
  | none => index
  | some decl => index.insert decl.name ((index.get? decl.name).getD [] ++ [d])

def indexNames (s : Store) (order : List DeclId) : NameMap (List DeclId) :=
  order.foldl s.indexName ∅

end Store

namespace Forest

/-- A forest that has a root, and that root. -/
def rooted (f : Forest) : Forest × DeclId :=
  match f.root with
  | some d => (f, d)
  | none =>
    let d : DeclId := Id.next f.store.decls
    (f.addNode (loneRoot d), d)

def freeze (f : Forest) : Graph :=
  let (f, root) := f.rooted
  let tour := f.store.tour root
  let store := if f.settings.bindAliases then f.store.bindAliases tour.order else f.store
  { forest := { f with store, registries := f.registries.map Registry.freeze }
    root
    order := tour.order
    spans := tour.spans
    byName := store.indexNames tour.order }

end Forest

namespace Graph

def store (g : Graph) : Store := g.forest.store

def reopen (g : Graph) : Forest :=
  { g.forest with store := g.store.clearAliases, root := some g.root }

def get? (g : Graph) (d : DeclId) : Option Declaration := d.get? g.store.decls

def resolve (g : Graph) (unit : UnitId) (id : ExternalId) : Outcome Node :=
  if unit.val = 0 then Outcome.fault .noUnit
  else match unit.get? g.forest.registries with
    | some registry => Outcome.ofExcept (registry.resolve id)
    | none => Outcome.refuse (.unresolvedReference unit id id)

def resolveDecl? (g : Graph) (unit : UnitId) (id : ExternalId) : Outcome (Option DeclId) := do
  return (← (g.resolve unit id).recover).toOption.bind Node.decl?

def fileId? (g : Graph) (path : String) : Option FileId :=
  (g.forest.files.findIdx? (· == path)).map Id.ofIndex

def named (g : Graph) (name : String) : List DeclId := (g.byName.get? name).getD []

def span (g : Graph) (d : DeclId) : Outcome (Nat × Nat) :=
  match d.get? g.spans with
  | some span => .ok span
  | none => Outcome.fault (.noDecl d)

def position (g : Graph) (d : DeclId) : Outcome Nat := do return (← g.span d).1

def subtree (g : Graph) (d : DeclId) : Outcome (List DeclId) := do
  let (start, stop) ← g.span d
  return (g.order.drop start).take (stop - start)

def contains (g : Graph) (outer inner : DeclId) : Outcome Bool := do
  let (start, stop) ← g.span outer
  let (place, _) ← g.span inner
  return decide (start ≤ place ∧ place < stop)

end Graph

end ScopeForest
