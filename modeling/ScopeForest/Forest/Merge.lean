import ScopeForest.Forest.Plan

namespace ScopeForest

structure Renaming where
  decl : DeclId → DeclId
  type : TypeId → TypeId
  file : FileId → FileId

namespace Renaming

variable (r : Renaming)

def node : Node → Node
  | .decl d => .decl (r.decl d)
  | .type t => .type (r.type t)

def ty (t : Ty) : Ty := t.rename r.decl r.type

def location (l : Location) : Location := { l with file := r.file l.file }

def base (b : BaseSpec) : BaseSpec := { b with cls := r.decl b.cls }

def classDetails (c : ClassDetails) : ClassDetails :=
  { c with
    members := []
    bases := c.bases.map r.base
    instantiates := c.instantiates.map r.type
    aliases := [] }

def details : Details → Details
  | .scope _ => .scope []
  | .cls c => .cls (r.classDetails c)
  | .enumeration _ => .enumeration []
  | .enumerator value => .enumerator value
  | .callable c => .callable
    { c with
      returnType := c.returnType.map r.type
      parameters := c.parameters.map fun p ↦ { p with type := r.type p.type } }
  | .var v => .var { v with type := r.type v.type }
  | .typedef t => .typedef (r.type t)

def declaration (target : DeclId) (d : Declaration) : Declaration :=
  { d with
    id := target
    parent := d.parent.map r.decl
    location := d.location.map r.location
    details := r.details d.details }

end Renaming

def addBase (bases : List BaseSpec) (b : BaseSpec) : List BaseSpec :=
  if bases.any (·.cls == b.cls) then bases else bases ++ [b]

namespace ClassDetails

def isDefinedBy (kept seen : ClassDetails) : Bool := !kept.isComplete && seen.isComplete

def absorb (kept seen : ClassDetails) : ClassDetails :=
  let bases := seen.bases.foldl addBase kept.bases
  if kept.isDefinedBy seen then
    { kept with
      key := seen.key
      bases
      isComplete := true
      isAbstract := seen.isAbstract
      size := seen.size
      instantiates := seen.instantiates }
  else { kept with bases }

end ClassDetails

/-- A node of the forest takes over what another sighting of the same entity adds. The location is
the first one, except that the location of a definition replaces that of forward declarations. -/
def Declaration.absorb (kept seen : Declaration) : Declaration :=
  match kept.details, seen.details with
  | .cls k, .cls s =>
    { kept with
      location :=
        if k.isDefinedBy s then seen.location <|> kept.location
        else kept.location <|> seen.location
      details := .cls (k.absorb s) }
  | _, _ => { kept with location := kept.location <|> seen.location }

structure MergeSummary where
  unit : UnitId
  /-- How many declarations became new nodes. -/
  added : Nat
  /-- How many declarations joined a node. -/
  joined : Nat
  types : Nat
  deriving DecidableEq, Repr

def internFiles (files paths : List String) : List String :=
  paths.foldl (fun files path ↦ if path ∈ files then files else files ++ [path]) files

namespace Forest

def setDecls (f : Forest) (decls : List Declaration) : Forest :=
  { f with store := { f.store with decls } }

def setTypes (f : Forest) (types : List Ty) : Forest :=
  { f with store := { f.store with types } }

def renamingOf (f : Forest) (u : ResolvedUnit) (plan : List Placement) (files : List String) :
    Renaming where
  decl d := (placed? plan d).getD d
  type t := ⟨t.val + f.store.types.length⟩
  file i := match i.get? u.files with
    | some path => Id.ofIndex (files.idxOf path)
    | none => i

def addNode (f : Forest) (d : Declaration) : Forest :=
  let f := f.setDecls (f.store.decls ++ [d])
  match d.parent with
  | none => { f with root := some d.id }
  | some parent => f.setDecls (parent.modify (·.addMember d.id) f.store.decls)

def applyPlacement (r : Renaming) (f : Forest) (p : Placement) : Forest :=
  match p.target with
  | .new d =>
    let f := f.addNode (r.declaration d p.source)
    match p.key with
    | none => f
    | some key => f.addKey key d
  | .joined d => f.setDecls (d.modify (·.absorb (r.declaration d p.source)) f.store.decls)

def summary (u : ResolvedUnit) (plan : List Placement) : MergeSummary where
  unit := u.unit
  added := plan.countP (·.target.isNew)
  joined := plan.countP (!·.target.isNew)
  types := u.store.types.length

def planRenaming (f : Forest) (u : ResolvedUnit) (plan : List Placement) : Renaming :=
  f.renamingOf u plan (internFiles f.files u.files)

def typed (f : Forest) (u : ResolvedUnit) (plan : List Placement) : Forest :=
  { f with files := internFiles f.files u.files }.setTypes
    (f.store.types ++ u.store.types.map (f.planRenaming u plan).ty)

def grow (f : Forest) (u : ResolvedUnit) (plan : List Placement) : Forest :=
  plan.foldl (applyPlacement (f.planRenaming u plan)) (f.typed u plan)

/-- Merges a unit, which must be the next one. A plan that fails leaves the forest as it was; the
registry, which comes last, does not. -/
def attemptMerge (f : Forest) (u : ResolvedUnit) : Forest × Outcome MergeSummary :=
  if u.unit ≠ f.nextUnit then (f, Outcome.refuse (.unitOutOfOrder f.nextUnit u.unit))
  else match f.plan u with
    | .error e => (f, .error e)
    | .ok plan =>
      let grown := f.grow u plan
      match Outcome.ofExcept (u.registry.rebind (f.planRenaming u plan).node) with
      | .error e => (grown, .error e)
      | .ok registry =>
        ({ grown with registries := f.registries ++ [registry] }, .ok (summary u plan))

def attempt (f : Forest) (records : List Record) : Forest × Outcome UnitId :=
  match buildUnit f.settings f.nextUnit records with
  | .error e => (f, .error e)
  | .ok u => (f.attemptMerge u).map id (·.map (·.unit))

/-- The forest that a merge leads to, if it goes through. -/
def merge (f : Forest) (u : ResolvedUnit) : Outcome (Forest × MergeSummary) :=
  let (g, answer) := f.attemptMerge u
  answer.map (g, ·)

def addUnit (f : Forest) (records : List Record) : Outcome (Forest × UnitId) :=
  let (g, answer) := f.attempt records
  answer.map (g, ·)

/-- Merges units until one of them fails; those before it stay. -/
def mergeUnits (f : Forest) : List (Outcome ResolvedUnit) → Forest × Outcome (List UnitId)
  | [] => (f, .ok [])
  | .error e :: _ => (f, .error e)
  | .ok u :: units =>
    match f.attemptMerge u with
    | (g, .error e) => (g, .error e)
    | (g, .ok summary) => (g.mergeUnits units).map id (·.map (summary.unit :: ·))

def buildUnits (f : Forest) (streams : List (List Record)) : List (Outcome ResolvedUnit) :=
  let ids := (IdCounter.after f.registries.length).takeMany streams.length
  List.zipWith (buildUnit f.settings) ids streams

/-- All units are built before the first is merged, so that one whose building never ends keeps back
the others too. -/
def addUnits (f : Forest) (streams : List (List Record)) : Forest × Outcome (List UnitId) :=
  let units := f.buildUnits streams
  match units.findSome? Outcome.fault? with
  | some fault => (f, Outcome.fault fault)
  | none => f.mergeUnits units

end Forest

end ScopeForest
