import Mathlib
import ScopeForest.Store.Basic

namespace ScopeForest

namespace Id

variable {k : IdKind} {α β : Type} {slots : List α} {i j : Id k} {a : α}

theorem get?_eq_some_iff : i.get? slots = some a ↔ ∃ n, i = ofIndex n ∧ slots[n]? = some a := by
  match i with
  | ⟨0⟩ => simp [get?, ofIndex]
  | ⟨n + 1⟩ => simp [get?, ofIndex]

theorem mem_of_get? (h : i.get? slots = some a) : a ∈ slots := by
  obtain ⟨n, -, hn⟩ := get?_eq_some_iff.mp h
  exact List.mem_of_getElem? hn

theorem exists_get?_of_mem (h : a ∈ slots) : ∃ i : Id k, i.get? slots = some a := by
  obtain ⟨n, hn⟩ := List.getElem?_of_mem h
  exact ⟨ofIndex n, hn⟩

theorem val_pos_of_get? (h : i.get? slots = some a) : 0 < i.val ∧ i.val ≤ slots.length := by
  obtain ⟨n, rfl, hn⟩ := get?_eq_some_iff.mp h
  have hlt := (List.getElem?_eq_some_iff.mp hn).1
  exact ⟨Nat.succ_pos n, hlt⟩

theorem exists_get?_iff : (∃ a, i.get? slots = some a) ↔ 0 < i.val ∧ i.val ≤ slots.length := by
  refine ⟨fun ⟨a, h⟩ ↦ val_pos_of_get? h, fun ⟨hpos, hle⟩ ↦ ?_⟩
  match i with
  | ⟨n + 1⟩ => exact ⟨slots[n], List.getElem?_eq_getElem hle⟩

theorem exists_get?_of_mem_all (h : i ∈ all slots) : ∃ a, i.get? slots = some a := by
  obtain ⟨n, hn, rfl⟩ := List.mem_map.mp h
  have hlt : n < slots.length := List.mem_range.mp hn
  exact ⟨slots[n], List.getElem?_eq_getElem hlt⟩

@[simp] theorem length_all : (all slots : List (Id k)).length = slots.length := by
  simp [all]

theorem ext_get? {more : List α} (h : ∀ i : Id k, i.get? slots = i.get? more) : slots = more :=
  List.ext_getElem? fun n ↦ h (ofIndex n)

theorem get?_append_left {more : List α} (h : i.get? slots = some a) :
    i.get? (slots ++ more) = some a := by
  obtain ⟨n, rfl, hn⟩ := get?_eq_some_iff.mp h
  rw [get?_ofIndex, List.getElem?_append_left (List.getElem?_eq_some_iff.mp hn).1, hn]

@[simp] theorem get?_next_append : (next slots : Id k).get? (slots ++ [a]) = some a := by
  rw [next_eq, get?_ofIndex, List.getElem?_concat_length]

theorem get?_append {more : List α} (h : i.get? (slots ++ more) = some a) :
    i.get? slots = some a ∨ ∃ n, i = ofIndex (slots.length + n) ∧ more[n]? = some a := by
  obtain ⟨n, rfl, hn⟩ := get?_eq_some_iff.mp h
  rcases Nat.lt_or_ge n slots.length with hlt | hge
  · left
    rwa [List.getElem?_append_left hlt] at hn
  · right
    rw [List.getElem?_append_right hge] at hn
    exact ⟨n - slots.length, congrArg ofIndex (by omega), hn⟩

theorem get?_append_singleton {b : α} (h : i.get? (slots ++ [b]) = some a) :
    i.get? slots = some a ∨ i = next slots ∧ a = b := by
  rcases get?_append h with h | ⟨n, rfl, hn⟩
  · exact .inl h
  · rw [List.getElem?_singleton] at hn
    split at hn
    next hz =>
      subst hz
      exact .inr ⟨rfl, (Option.some_inj.mp hn).symm⟩
    next => cases hn

theorem get?_append_right {more : List α} {n : Nat} (h : more[n]? = some a) :
    (ofIndex (slots.length + n) : Id k).get? (slots ++ more) = some a := by
  rw [get?_ofIndex, List.getElem?_append_right (Nat.le_add_right _ _), Nat.add_sub_cancel_left, h]

theorem get?_of_prefix {more : List α} (h : i.get? slots = some a) (hp : slots <+: more) :
    i.get? more = some a := by
  obtain ⟨rest, rfl⟩ := hp
  exact get?_append_left h

theorem get?_modify (f : α → α) :
    i.get? (j.modify f slots) = if j = i then (i.get? slots).map f else i.get? slots := by
  match i, j with
  | ⟨0⟩, ⟨0⟩ => rfl
  | ⟨0⟩, ⟨m + 1⟩ => simp [get?]
  | ⟨n + 1⟩, ⟨0⟩ => simp [modify, get?]
  | ⟨n + 1⟩, ⟨m + 1⟩ =>
    simp only [modify, get?, List.getElem?_modify, mk.injEq, Nat.add_right_cancel_iff]
    by_cases h : m = n
    · simp [h]
    · simp [h]

@[simp] theorem length_modify (f : α → α) : (i.modify f slots).length = slots.length := by
  match i with
  | ⟨0⟩ => rfl
  | ⟨n + 1⟩ => simp [modify]

/-- After a loop that changes one slot at a time, a slot has gone through the changes meant for it. -/
theorem get?_foldl_modify (change : β → α → α) (changes : List (Id k × β)) :
    i.get? (changes.foldl (fun slots c ↦ c.1.modify (change c.2) slots) slots) =
      (i.get? slots).map fun a ↦
        ((changes.filter (·.1 == i)).map (·.2)).foldl (fun a b ↦ change b a) a := by
  induction changes generalizing slots with
  | nil => simp
  | cons c changes ih =>
    rw [List.foldl_cons, ih, get?_modify, List.filter_cons]
    by_cases hc : c.1 = i
    · rw [if_pos hc, if_pos (beq_iff_eq.mpr hc), Option.map_map]
      rfl
    · rw [if_neg hc, if_neg (mt beq_iff_eq.mp hc)]

theorem get?_map (f : α → β) : i.get? (slots.map f) = (i.get? slots).map f := by
  match i with
  | ⟨0⟩ => rfl
  | ⟨n + 1⟩ => simp [get?]

theorem get?_map_of_get? (f : α → β) (h : i.get? slots = some a) :
    i.get? (slots.map f) = some (f a) := by
  rw [get?_map, h, Option.map_some]

theorem ne_next_of_get? (h : i.get? slots = some a) : i ≠ next slots := by
  have hle := (val_pos_of_get? h).2
  rintro rfl
  exact absurd hle (Nat.not_succ_le_self _)

end Id

section Related

variable {k : IdKind} {α β : Type} {R : α → β → Prop} {xs : List α} {ys : List β} {i : Id k}

theorem exists_of_mem_right (h : List.Forall₂ R xs ys) {y : β} (hy : y ∈ ys) :
    ∃ x ∈ xs, R x y := by
  induction h with
  | nil => cases hy
  | cons hr _ ih =>
    rcases List.mem_cons.mp hy with rfl | hy
    · exact ⟨_, List.mem_cons_self, hr⟩
    · obtain ⟨x, hx, hr⟩ := ih hy
      exact ⟨x, List.mem_cons_of_mem _ hx, hr⟩

theorem getElem?_right (h : List.Forall₂ R xs ys) {n : Nat} {x : α} (hx : xs[n]? = some x) :
    ∃ y, ys[n]? = some y ∧ R x y := by
  induction h generalizing n with
  | nil => cases hx
  | cons hr _ ih =>
    cases n with
    | zero =>
      cases hx
      exact ⟨_, rfl, hr⟩
    | succ n => exact ih hx

theorem Id.get?_right (h : List.Forall₂ R xs ys) {x : α} (hx : i.get? xs = some x) :
    ∃ y, i.get? ys = some y ∧ R x y := by
  obtain ⟨n, rfl, hn⟩ := Id.get?_eq_some_iff.mp hx
  exact getElem?_right h hn

theorem Id.get?_left (h : List.Forall₂ R xs ys) {y : β} (hy : i.get? ys = some y) :
    ∃ x, i.get? xs = some x ∧ R x y :=
  Id.get?_right (R := fun b a ↦ R a b) (List.Forall₂.flip h) hy

end Related

namespace IdCounter

variable {k : IdKind} {α : Type}

theorem takeMany_after (n m : Nat) :
    (after n : IdCounter k).takeMany m = (List.range' n m).map Id.ofIndex := by
  induction m generalizing n with
  | zero => rfl
  | succ m ih =>
    rw [takeMany, take_after, ih, List.range'_succ]
    rfl

/-- Handing out an id for each slot numbers the slots in order. -/
theorem takeMany_start (slots : List α) :
    (start : IdCounter k).takeMany slots.length = Id.all slots := by
  rw [Id.all, List.range_eq_range']
  exact takeMany_after 0 slots.length

theorem takeMany_after_succ (n m : Nat) : (after n : IdCounter k).takeMany (m + 1) =
    (after n).takeMany m ++ [(after (n + m)).take.1] := by
  rw [takeMany_after, takeMany_after, List.range'_concat, Nat.one_mul, List.map_append]
  rfl

theorem mem_takeMany_after {n m : Nat} {i : Id k} :
    i ∈ (after n).takeMany m ↔ n < i.val ∧ i.val ≤ n + m := by
  rw [takeMany_after, List.mem_map]
  constructor
  · rintro ⟨j, hj, rfl⟩
    rw [List.mem_range'_1] at hj
    rw [Id.val_ofIndex]
    omega
  · rintro ⟨hlow, hhigh⟩
    refine ⟨i.val - 1, List.mem_range'_1.mpr (by omega), ?_⟩
    exact congrArg Id.mk (Nat.sub_add_cancel (by omega))

theorem pairwise_takeMany (n m : Nat) :
    ((after n : IdCounter k).takeMany m).Pairwise (·.val < ·.val) := by
  rw [takeMany_after, List.pairwise_map]
  exact (List.pairwise_lt_range' 1).imp Nat.succ_lt_succ

/-- A counter of 32 bits hands out the same ids for as long as there are any. -/
theorem take?_after? (n : Nat) : (after? n : Option (IdCounter k)).bind take? =
    if n + 1 < limit then some (after n).take else none := by
  unfold after?
  split
  next hn =>
    rw [Option.bind_some, take?]
    by_cases h : n + 1 < limit
    · rw [if_pos h, if_pos (by simpa [Nat.min_eq_left (Nat.le_of_lt h)] using h)]
      simp [after, Nat.min_eq_left (Nat.le_of_lt h)]
    · rw [if_neg h, if_neg (by simpa using h)]
  next hn => rw [Option.bind_none, if_neg (by omega)]

end IdCounter

namespace Outcome

variable {ε α β γ δ : Type}

theorem bind_eq_ok {x : Except ε α} {f : α → Except ε β} {b : β} (h : (x >>= f) = .ok b) :
    ∃ a, x = .ok a ∧ f a = .ok b := by
  cases x with
  | error e => cases h
  | ok a => exact ⟨a, rfl, h⟩

theorem bind_of_eq_ok {x : Except ε α} {a : α} (h : x = .ok a) (f : α → Except ε β) :
    (x >>= f) = f a := by
  rw [h]
  rfl

theorem map_eq_ok {x : Except ε α} {f : α → β} {b : β} (h : (f <$> x) = .ok b) :
    ∃ a, x = .ok a ∧ f a = b := by
  cases x with
  | error e => cases h
  | ok a => exact ⟨a, rfl, Except.ok.inj h⟩

theorem ofExcept_eq_ok {x : Except GraphError α} {a : α} (h : ofExcept x = .ok a) : x = .ok a := by
  cases x with
  | error e => cases h
  | ok b => exact congrArg Except.ok (Except.ok.inj h)

theorem mapM_eq_ok {f : α → Except ε β} {xs : List α} {ys : List β} (h : xs.mapM f = .ok ys) :
    List.Forall₂ (fun x y ↦ f x = .ok y) xs ys := by
  induction xs generalizing ys with
  | nil =>
    cases h
    exact .nil
  | cons x xs ih =>
    rw [List.mapM_cons] at h
    obtain ⟨y, hy, h⟩ := bind_eq_ok h
    obtain ⟨zs, hzs, h⟩ := bind_eq_ok h
    cases h
    exact .cons hy (ih hzs)

theorem forM_eq_ok {f : α → Except ε Unit} {xs : List α} {r : Unit} (h : xs.forM f = .ok r) :
    ∀ x ∈ xs, f x = .ok () := by
  induction xs with
  | nil => simp
  | cons x xs ih =>
    obtain ⟨_, hx, h⟩ := bind_eq_ok (show (f x >>= fun _ ↦ xs.forM f) = .ok r from h)
    intro y hy
    rcases List.mem_cons.mp hy with rfl | hy
    · exact hx
    · exact ih h y hy

theorem forM_of_forall {f : α → Except ε Unit} {xs : List α} (h : ∀ x ∈ xs, f x = .ok ()) :
    xs.forM f = .ok () := by
  induction xs with
  | nil => rfl
  | cons x xs ih =>
    have hrest := ih fun y hy ↦ h y (List.mem_cons_of_mem x hy)
    show (f x >>= fun _ ↦ xs.forM f) = .ok ()
    rw [h x List.mem_cons_self]
    exact hrest

/-- The computation ends without a failure. -/
def Returns (x : Except ε α) : Prop := ∃ a, x = .ok a

theorem returns_bind {x : Except ε α} {f : α → Except ε β} {a : α} (hx : x = .ok a)
    (hf : Returns (f a)) : Returns (x >>= f) := by
  rw [hx]
  exact hf

theorem Returns.bind {x : Except ε α} {f : α → Except ε β} (hx : Returns x)
    (hf : ∀ a, Returns (f a)) : Returns (x >>= f) := by
  obtain ⟨a, ha⟩ := hx
  exact returns_bind ha (hf a)

theorem returns_bind_iff {x : Except ε α} {f : α → Except ε β} :
    Returns (x >>= f) ↔ ∃ a, x = .ok a ∧ Returns (f a) := by
  constructor
  · rintro ⟨b, hb⟩
    obtain ⟨a, ha, hb⟩ := bind_eq_ok hb
    exact ⟨a, ha, b, hb⟩
  · rintro ⟨a, ha, hb⟩
    exact returns_bind ha hb

theorem returns_mapM {f : α → Except ε β} {xs : List α} (h : ∀ x ∈ xs, Returns (f x)) :
    Returns (xs.mapM f) := by
  induction xs with
  | nil => exact ⟨[], rfl⟩
  | cons x xs ih =>
    rw [List.mapM_cons]
    refine (h x List.mem_cons_self).bind fun y ↦ ?_
    exact (ih fun z hz ↦ h z (List.mem_cons_of_mem x hz)).bind fun ys ↦ ⟨y :: ys, rfl⟩

/-- What `x` returns, `y` returns the image of. -/
def Maps (φ : α → β) (x : Except ε α) (y : Except ε β) : Prop := ∀ a, x = .ok a → y = .ok (φ a)

namespace Maps

theorem ok (φ : α → β) (a : α) : Maps (ε := ε) φ (.ok a) (.ok (φ a)) := by
  intro b hb
  cases hb
  rfl

theorem error (φ : α → β) (e : ε) (y : Except ε β) : Maps φ (.error e) y := by
  intro a ha
  cases ha

theorem bind {φ : α → β} {ψ : γ → δ} {x : Except ε α} {y : Except ε β} {f : α → Except ε γ}
    {g : β → Except ε δ} (hx : Maps φ x y) (hf : ∀ a, x = .ok a → Maps ψ (f a) (g (φ a))) :
    Maps ψ (x >>= f) (y >>= g) := by
  intro c hc
  obtain ⟨a, ha, hc⟩ := bind_eq_ok hc
  rw [hx a ha]
  exact hf a ha c hc

theorem map {φ : α → β} {ψ : γ → δ} {x : Except ε α} {y : Except ε β} {f : α → γ} {g : β → δ}
    (hx : Maps φ x y) (h : ∀ a, g (φ a) = ψ (f a)) : Maps ψ (f <$> x) (g <$> y) := by
  intro c hc
  obtain ⟨a, ha, rfl⟩ := map_eq_ok hc
  rw [hx a ha]
  exact congrArg Except.ok (h a)

theorem mapM {φ : α → β} {ψ : γ → δ} {f : α → Except ε γ} {g : β → Except ε δ} {xs : List α}
    (h : ∀ x ∈ xs, Maps ψ (f x) (g (φ x))) :
    Maps (List.map ψ) (xs.mapM f) ((xs.map φ).mapM g) := by
  induction xs with
  | nil => exact .ok _ _
  | cons x xs ih =>
    rw [List.map_cons, List.mapM_cons, List.mapM_cons]
    refine (h x List.mem_cons_self).bind fun y _ ↦ ?_
    exact (ih fun z hz ↦ h z (List.mem_cons_of_mem x hz)).bind fun ys _ ↦ .ok _ _

theorem mapM_same {ψ : γ → δ} {f : α → Except ε γ} {g : α → Except ε δ} {xs : List α}
    (h : ∀ x ∈ xs, Maps ψ (f x) (g x)) : Maps (List.map ψ) (xs.mapM f) (xs.mapM g) := by
  have hid := mapM (φ := id) h
  rwa [List.map_id] at hid

end Maps

def holds (x : Outcome Bool) : Bool := x.toOption.getD false

theorem Returns.eq_holds {x : Outcome Bool} (h : Returns x) : x = .ok (holds x) := by
  obtain ⟨b, rfl⟩ := h
  rfl

section Tests

variable {test : α → Outcome Bool} {p : α → Bool} {xs found : List α}

theorem any_eq_of_forall (h : ∀ x ∈ xs, test x = .ok (p x)) :
    Outcome.any test xs = .ok (xs.any p) := by
  induction xs with
  | nil => rfl
  | cons x xs ih =>
    rw [Outcome.any, h x List.mem_cons_self, ih fun y hy ↦ h y (List.mem_cons_of_mem x hy)]
    cases hp : p x <;> simp [hp, bind, Except.bind, pure, Except.pure]

theorem filter_eq_of_forall (h : ∀ x ∈ xs, test x = .ok (p x)) :
    Outcome.filter test xs = .ok (xs.filter p) := by
  induction xs with
  | nil => rfl
  | cons x xs ih =>
    rw [Outcome.filter, h x List.mem_cons_self, ih fun y hy ↦ h y (List.mem_cons_of_mem x hy)]
    cases hp : p x <;> simp [hp, bind, Except.bind, pure, Except.pure]

theorem returns_of_filter_eq_ok (h : Outcome.filter test xs = .ok found) :
    ∀ x ∈ xs, Returns (test x) := by
  induction xs generalizing found with
  | nil => exact fun x hx ↦ absurd hx List.not_mem_nil
  | cons y xs ih =>
    obtain ⟨keep, hkeep, h⟩ := bind_eq_ok h
    obtain ⟨kept, hkept, -⟩ := bind_eq_ok h
    intro x hx
    rcases List.mem_cons.mp hx with rfl | hx
    · exact ⟨keep, hkeep⟩
    · exact ih hkept x hx

end Tests

end Outcome

end ScopeForest
