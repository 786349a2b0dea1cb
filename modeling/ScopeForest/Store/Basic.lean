import ScopeForest.Declaration.Basic
import ScopeForest.Failure
import ScopeForest.Ty.Basic

namespace ScopeForest

structure Store where
  decls : List Declaration
  types : List Ty
  deriving DecidableEq, Repr

namespace Store

def decl (s : Store) (d : DeclId) : Outcome Declaration :=
  match d.get? s.decls with
  | some x => .ok x
  | none => Outcome.fault (.noDecl d)

def ty (s : Store) (t : TypeId) : Outcome Ty :=
  match t.get? s.types with
  | some x => .ok x
  | none => Outcome.fault (.noType t)

end Store

namespace Id

variable {k : IdKind} {α : Type}

/-- How many ids of an arena are not in `seen`. -/
def unseen (slots : List α) (seen : List (Id k)) : Nat :=
  ((all slots).filter fun i ↦ i ∉ seen).length

theorem mem_all_of_get? {slots : List α} {i : Id k} {a : α} (h : i.get? slots = some a) :
    i ∈ all slots := by
  match i, h with
  | ⟨n + 1⟩, h =>
    have hn := (List.getElem?_eq_some_iff.mp h).1
    exact List.mem_map.mpr ⟨n, List.mem_range.mpr hn, rfl⟩

theorem unseen_cons_lt {slots : List α} {i : Id k} {a : α} {seen : List (Id k)}
    (h : i.get? slots = some a) (hs : i ∉ seen) :
    unseen slots (i :: seen) < unseen slots seen := by
  have hf : (all slots).filter (fun j ↦ j ∉ i :: seen) =
      ((all slots).filter fun j ↦ j ∉ seen).filter fun j ↦ j ≠ i := by
    rw [List.filter_filter]
    congr 1
    funext j
    simp
  rw [unseen, unseen, hf]
  refine List.length_filter_lt_length_iff_exists.mpr ⟨i, ?_, by simp⟩
  exact List.mem_filter.mpr ⟨mem_all_of_get? h, by simpa using hs⟩

end Id

end ScopeForest
