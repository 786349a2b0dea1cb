namespace ScopeForest

inductive IdKind
  | decl | type | unit | file
  deriving DecidableEq, Repr

/-- The slots of an arena are numbered from 1 in the order they were filled, so that 0 never names a
slot. -/
structure Id (k : IdKind) where
  val : Nat
  deriving DecidableEq, Repr

abbrev DeclId := Id .decl
abbrev TypeId := Id .type
abbrev UnitId := Id .unit
abbrev FileId := Id .file

/-- The name that a front-end gives a record; only meaningful within one unit. -/
abbrev ExternalId := String

namespace Id

variable {k : IdKind} {α : Type}

def ofNat? (n : Nat) : Option (Id k) :=
  if n = 0 then none else some ⟨n⟩

def ofIndex (i : Nat) : Id k := ⟨i + 1⟩

def index (i : Id k) : Nat := i.val - 1

@[simp] theorem index_ofIndex (i : Nat) : (ofIndex i : Id k).index = i := rfl

@[simp] theorem val_ofIndex (i : Nat) : (ofIndex i : Id k).val = i + 1 := rfl

theorem ofIndex_injective {i j : Nat} (h : (ofIndex i : Id k) = ofIndex j) : i = j := by
  simpa [ofIndex] using h

def get? (i : Id k) (slots : List α) : Option α :=
  match i with
  | ⟨0⟩ => none
  | ⟨n + 1⟩ => slots[n]?

@[simp] theorem get?_ofIndex (i : Nat) (slots : List α) :
    (ofIndex i : Id k).get? slots = slots[i]? := rfl

def modify (i : Id k) (f : α → α) (slots : List α) : List α :=
  match i with
  | ⟨0⟩ => slots
  | ⟨n + 1⟩ => slots.modify n f

def all (slots : List α) : List (Id k) :=
  (List.range slots.length).map ofIndex

end Id

structure IdCounter (k : IdKind) where
  next : Nat
  deriving DecidableEq, Repr

namespace IdCounter

variable {k : IdKind}

def start : IdCounter k := ⟨1⟩

def after (n : Nat) : IdCounter k := ⟨n + 1⟩

def take (c : IdCounter k) : Id k × IdCounter k := (⟨c.next⟩, ⟨c.next + 1⟩)

@[simp] theorem take_after (n : Nat) :
    (after n : IdCounter k).take = (Id.ofIndex n, after (n + 1)) := rfl

def takeMany (c : IdCounter k) : Nat → List (Id k)
  | 0 => []
  | n + 1 => c.take.1 :: c.take.2.takeMany n

@[simp] theorem length_takeMany (c : IdCounter k) (n : Nat) : (c.takeMany n).length = n := by
  induction n generalizing c with
  | zero => rfl
  | succ n ih => rw [takeMany, List.length_cons, ih]

def count (c : IdCounter k) : Nat := c.next - 1

/-- The largest number of 32 bits, which is never handed out. -/
def limit : Nat := 4294967295

/-- There is no room for more than `limit` ids. -/
def after? (n : Nat) : Option (IdCounter k) :=
  if n ≤ limit then some ⟨min (n + 1) limit⟩ else none

def take? (c : IdCounter k) : Option (Id k × IdCounter k) :=
  if c.next < limit then some c.take else none

end IdCounter

def Id.next {k : IdKind} {α : Type} (slots : List α) : Id k :=
  (IdCounter.after slots.length).take.1

theorem Id.next_eq {k : IdKind} {α : Type} (slots : List α) :
    (Id.next slots : Id k) = ofIndex slots.length := rfl

end ScopeForest
