import ScopeForest.Forest.Basic
import ScopeForest.Store.Preorder
import ScopeForest.Unit.Resolve

namespace ScopeForest

inductive Target
  | new (d : DeclId)
  | joined (d : DeclId)
  deriving DecidableEq, Repr

namespace Target

def id : Target → DeclId
  | new d => d
  | joined d => d

def isNew : Target → Bool
  | new _ => true
  | joined _ => false

end Target

structure Placement where
  /-- A declaration of the unit. -/
  source : Declaration
  key : Option MergeKey
  target : Target
  deriving DecidableEq, Repr

def placed? (done : List Placement) (d : DeclId) : Option DeclId :=
  (done.find? (·.source.id == d)).map (·.target.id)

/-- The name in the key: a specialized class goes by its canonical spelling. -/
def ResolvedUnit.keyName (u : ResolvedUnit) (d : Declaration) : Outcome String :=
  if d.instantiates?.isSome then u.store.mergeName d.id else return d.name

namespace Forest

variable (f : Forest)

def newId (done : List Placement) : DeclId :=
  (IdCounter.after (f.store.decls.length + done.countP (·.target.isNew))).take.1

/-- A new node, or a shared one that no declaration of the unit has joined. -/
def targetOf (done : List Placement) (shared : Option DeclId) : Target :=
  match shared.filter fun d ↦ !done.any (·.target == .joined d) with
  | some d => .joined d
  | none => .new (f.newId done)

def keyOf (u : ResolvedUnit) (parent : DeclId) (d : Declaration) : Outcome (Option MergeKey) := do
  if f.settings.joinDeclarations && !d.isAnonymous then
    let name ← u.keyName d
    return some ⟨parent, d.kind, name, (d.id.get? u.signatureKeys).join⟩
  else return none

def placeNext (u : ResolvedUnit) (done : List Placement) (d : Declaration) :
    Outcome (List Placement) :=
  match d.parent with
  | none => return done ++ [⟨d, none, f.targetOf done f.root⟩]
  | some parent => match placed? done parent with
    | none => return done
    | some parent => do
      let key ← f.keyOf u parent d
      return done ++ [⟨d, key, f.targetOf done (key.bind f.keyed?)⟩]

/-- The root joins the root. Below it a declaration joins the node that has its key, unless another
declaration of the unit has done so, and becomes a new node otherwise. Unnamed scopes have no key.
-/
def plan (u : ResolvedUnit) : Outcome (List Placement) := do
  let order := (u.store.preorder u.root).filterMap (·.get? u.store.decls)
  let placements ← order.foldlM (f.placeNext u) []
  match u.store.decls.find? fun d ↦ (placed? placements d.id).isNone with
  | none => return placements
  | some d => Outcome.refuse (.invalidField u.unit d.externalId Field.context "")

end Forest

end ScopeForest
