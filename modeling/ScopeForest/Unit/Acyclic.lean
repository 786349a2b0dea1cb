import ScopeForest.Store.Basic

namespace ScopeForest.Store

/-- The types that a type immediately expands to. -/
def expansions (s : Store) (node : Ty) : Outcome (List TypeId) :=
  match node with
  | .declared d => do
    let decl ← s.decl d
    return node.children ++ decl.expansion?.toList
  | _ => return node.children

abbrev CycleSearch := Except (List TypeId) (List TypeId)

/-- Depth-first search through `todo`. The types of `path` lead to `todo`, the last one first; those
of `done` reach no circle. -/
def searchCycle (s : Store) (path done todo : List TypeId) : Outcome CycleSearch :=
  match todo with
  | [] => .ok (.ok done)
  | t :: todo =>
    if t ∈ done then s.searchCycle path done todo
    else if _ : t ∈ path then .ok (.error (path.reverse.dropWhile (· ≠ t)))
    else match _ : t.get? s.types with
      | none => Outcome.fault (.noType t)
      | some node =>
        match s.expansions node with
        | .error e => .error e
        | .ok next =>
          match s.searchCycle (t :: path) done next with
          | .ok (.ok done) => s.searchCycle path (t :: done) todo
          | other => other
termination_by (Id.unseen s.types path, todo.length)
decreasing_by
  · exact .right _ (by simp)
  · exact .left _ _ (Id.unseen_cons_lt ‹_› ‹_›)
  · exact .right _ (by simp)

/-- The types of a circle, in the order in which they expand to each other. -/
def findCycle (s : Store) : Outcome (Option (List TypeId)) := do
  match ← s.searchCycle [] [] (Id.all s.types) with
  | .ok _ => return none
  | .error cycle => return some cycle

def typedef? (s : Store) (t : TypeId) : Option Declaration :=
  match t.get? s.types with
  | some (.declared d) => (d.get? s.decls).filter (·.kind == .typedef)
  | _ => none

end ScopeForest.Store
