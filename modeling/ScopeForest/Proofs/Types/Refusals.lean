import ScopeForest.Proofs.Types.Cycles

namespace ScopeForest

def Outcome.Unrefused {α : Type} (x : Outcome α) : Prop := ∀ e, x ≠ Outcome.refuse e

namespace Outcome.Unrefused

variable {α β : Type} {x : Outcome α}

theorem ok (a : α) : Unrefused (.ok a) := fun _ h ↦ by cases h

theorem fault (f : Fault) : Unrefused (Outcome.fault f : Outcome α) := fun _ h ↦ by cases h

theorem bind {f : α → Outcome β} (hx : Unrefused x) (hf : ∀ a, Unrefused (f a)) :
    Unrefused (x >>= f) := by
  intro e h
  cases x with
  | error failure =>
    cases h
    exact hx e rfl
  | ok a => exact hf a e h

theorem map {f : α → β} (hx : Unrefused x) : Unrefused (f <$> x) := by
  intro e h
  cases x with
  | error failure =>
    cases h
    exact hx e rfl
  | ok a => cases h

theorem mapM {f : α → Outcome β} {xs : List α} (h : ∀ a, Unrefused (f a)) :
    Unrefused (xs.mapM f) := by
  induction xs with
  | nil => exact .ok _
  | cons a xs ih =>
    rw [List.mapM_cons]
    exact (h a).bind fun b ↦ ih.bind fun bs ↦ .ok _

end Outcome.Unrefused

open Outcome

section Pieces

variable {spell : Speller} (hspell : ∀ c t, Unrefused (spell c t))

include hspell

end Pieces

namespace Store

variable {s : Store} {rank : TypeId → Nat}

section Names

variable {spell : Speller} (hspell : ∀ c t, Unrefused (spell c t))

include hspell

end Names

section Ranked

variable (hs : s.Linked) (hr : s.Ranking s.Expands rank)

include hs hr

section Nodes

variable {spell : Speller} (hspell : ∀ c t, Unrefused (spell c t))

include hspell

end Nodes

end Ranked

end Store

end ScopeForest
