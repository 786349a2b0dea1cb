import ScopeForest.Proofs.Types.Heads
import ScopeForest.Store.Equality

namespace ScopeForest

open Outcome

theorem sameItems_returns {α : Type} {same : α → α → Outcome Bool} {xs ys : List α}
    (h : ∀ x ∈ xs, ∀ y ∈ ys, Returns (same x y)) : Returns (sameItems same xs ys) := by
  induction xs generalizing ys with
  | nil => cases ys <;> exact ⟨_, rfl⟩
  | cons x xs ih =>
    cases ys with
    | nil => exact ⟨false, rfl⟩
    | cons y ys =>
      refine (h x List.mem_cons_self y List.mem_cons_self).bind fun equal ↦ ?_
      split
      · exact ih fun x hx y hy ↦ h x (List.mem_cons_of_mem _ hx) y (List.mem_cons_of_mem _ hy)
      · exact ⟨false, rfl⟩

variable {same : TypeId → TypeId → Outcome Bool}

theorem Signature.same_returns {a b : Signature}
    (h : ∀ t ∈ a.children, ∀ u ∈ b.children, Returns (same t u)) : Returns (a.same same b) := by
  unfold Signature.same
  split
  · exact sameItems_returns h
  · exact ⟨false, rfl⟩

theorem TemplateArg.same_returns {a b : TemplateArg}
    (h : ∀ t ∈ a.type?, ∀ u ∈ b.type?, Returns (same t u)) : Returns (a.same same b) := by
  cases a with
  | type t =>
    cases b with
    | type u => exact h t rfl u rfl
    | value text => exact ⟨false, rfl⟩
  | value text => cases b <;> exact ⟨_, rfl⟩

theorem Ty.same_returns {a b : Ty} (h : ∀ t ∈ a.children, ∀ u ∈ b.children, Returns (same t u)) :
    Returns (a.same same b) := by
  unfold Ty.same
  split
  case h_7 | h_10 =>
    split
    · exact h _ List.mem_cons_self _ List.mem_cons_self
    · exact ⟨false, rfl⟩
  case h_8 => exact Signature.same_returns h
  case h_9 =>
    split
    · exact Signature.same_returns h
    · exact ⟨false, rfl⟩
  case h_11 c as d bs =>
    split
    · refine sameItems_returns fun x hx y hy ↦ TemplateArg.same_returns fun t ht u hu ↦ ?_
      exact h t (List.mem_filterMap.mpr ⟨x, hx, ht⟩) u (List.mem_filterMap.mpr ⟨y, hy, hu⟩)
    · exact ⟨false, rfl⟩
  case h_1 | h_2 | h_12 => exact ⟨_, rfl⟩
  all_goals exact h _ List.mem_cons_self _ List.mem_cons_self

namespace Store

variable {s : Store} {rank : TypeId → Nat} (hs : s.Linked) (hr : s.Ranking s.Expands rank)

include hs hr

theorem structuralEqualsAux_returns {fuel : Nat} {a b : TypeId} (ha : s.HoldsType a)
    (hb : s.HoldsType b) (hfuel : rank a < fuel) : Returns (s.structuralEqualsAux fuel a b) := by
  induction fuel generalizing a b with
  | zero => omega
  | succ fuel ih =>
    unfold structuralEqualsAux
    split
    · exact ⟨true, rfl⟩
    · obtain ⟨c, p, hc, hac⟩ := canonicalHead_returns hs hr ha
      obtain ⟨d, q, hd, hbd⟩ := canonicalHead_returns hs hr hb
      obtain ⟨nodec, hnodec⟩ := hac.held
      obtain ⟨noded, hnoded⟩ := hbd.held
      refine returns_bind hc (returns_bind hd ?_)
      simp only
      split
      · refine returns_bind (ty_of_get? hnodec) (returns_bind (ty_of_get? hnoded) ?_)
        refine Ty.same_returns fun t ht u hu ↦ ?_
        have hle := hr.le hac
        have hlt := hr.lt (.child hnodec ht)
        exact ih (hs.child hnodec ht) (hs.child hnoded hu) (by omega)
      · exact ⟨false, rfl⟩

theorem structuralEquals_returns {a b : TypeId} (ha : s.HoldsType a) (hb : s.HoldsType b) :
    Returns (s.structuralEquals a b) := by
  have hbound := hr.bound a
  have hle : s.types.length ≤ s.types.length * s.types.length := Nat.le_mul_self _
  exact structuralEqualsAux_returns hs hr ha hb (by omega)

theorem rawEqualsAux_returns {fuel : Nat} {a b : TypeId} (ha : s.HoldsType a)
    (hb : s.HoldsType b) (hfuel : rank a < fuel) : Returns (s.rawEqualsAux fuel a b) := by
  induction fuel generalizing a b with
  | zero => omega
  | succ fuel ih =>
    unfold rawEqualsAux
    split
    · exact ⟨true, rfl⟩
    · obtain ⟨nodea, hnodea⟩ := ha
      obtain ⟨nodeb, hnodeb⟩ := hb
      refine returns_bind (ty_of_get? hnodea) (returns_bind (ty_of_get? hnodeb) ?_)
      refine Ty.same_returns fun t ht u hu ↦ ?_
      have hlt := hr.lt (.child hnodea ht)
      exact ih (hs.child hnodea ht) (hs.child hnodeb hu) (by omega)

theorem rawEquals_returns {a b : TypeId} (ha : s.HoldsType a) (hb : s.HoldsType b) :
    Returns (s.rawEquals a b) := by
  have hbound := hr.bound a
  have hle : s.types.length ≤ s.types.length * s.types.length := Nat.le_mul_self _
  exact rawEqualsAux_returns hs hr ha hb (by omega)

end Store

end ScopeForest
