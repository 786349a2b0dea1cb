namespace ScopeForest

structure NameMap (α : Type) where
  entries : List (String × α)
  sorted : entries.Pairwise fun a b ↦ a.1 < b.1
  deriving DecidableEq

namespace NameMap

variable {α β : Type}

/-- Puts an entry in its place, where it takes over from an entry of the same name. -/
def place (k : String) (v : α) : List (String × α) → List (String × α)
  | [] => [(k, v)]
  | e :: es =>
    if k < e.1 then (k, v) :: e :: es
    else if k = e.1 then (k, v) :: es
    else e :: place k v es

theorem mem_place {k : String} {v : α} {es : List (String × α)} {e : String × α}
    (h : e ∈ place k v es) : e = (k, v) ∨ e ∈ es := by
  induction es with
  | nil => simpa [place] using h
  | cons d es ih =>
    rw [place] at h
    split at h
    · simpa using h
    · split at h
      · rcases List.mem_cons.mp h with h | h
        · exact .inl h
        · exact .inr (List.mem_cons_of_mem _ h)
      · rcases List.mem_cons.mp h with h | h
        · exact .inr (h ▸ List.mem_cons_self)
        · exact (ih h).imp_right (List.mem_cons_of_mem _)

theorem sorted_place (k : String) (v : α) {es : List (String × α)}
    (h : es.Pairwise fun a b ↦ a.1 < b.1) : (place k v es).Pairwise fun a b ↦ a.1 < b.1 := by
  induction es with
  | nil => exact List.pairwise_singleton _ _
  | cons e es ih =>
    obtain ⟨hd, ht⟩ := List.pairwise_cons.mp h
    rw [place]
    split
    next hlt =>
      refine List.pairwise_cons.mpr ⟨fun a ha ↦ ?_, h⟩
      rcases List.mem_cons.mp ha with rfl | ha
      · exact hlt
      · exact String.lt_trans hlt (hd a ha)
    next hlt =>
      split
      next heq => exact List.pairwise_cons.mpr ⟨fun a ha ↦ heq ▸ hd a ha, ht⟩
      next hne =>
        refine List.pairwise_cons.mpr ⟨fun a ha ↦ ?_, ih ht⟩
        rcases mem_place ha with rfl | ha
        · exact Decidable.byContradiction fun hge ↦
            hne (String.le_antisymm (String.not_lt.mp hge) (String.not_lt.mp hlt))
        · exact hd a ha

instance : EmptyCollection (NameMap α) := ⟨⟨[], .nil⟩⟩

instance : Inhabited (NameMap α) := ⟨∅⟩

def insert (m : NameMap α) (k : String) (v : α) : NameMap α :=
  ⟨place k v m.entries, sorted_place k v m.sorted⟩

def get? (m : NameMap α) (k : String) : Option α := m.entries.lookup k

def contains (m : NameMap α) (k : String) : Bool := (m.get? k).isSome

def size (m : NameMap α) : Nat := m.entries.length

def keys (m : NameMap α) : List String := m.entries.map (·.1)

def values (m : NameMap α) : List α := m.entries.map (·.2)

/-- Of entries with the same name, the last counts. -/
def ofList (es : List (String × α)) : NameMap α :=
  es.foldl (fun m e ↦ m.insert e.1 e.2) ∅

def map (f : α → β) (m : NameMap α) : NameMap β :=
  ⟨m.entries.map fun e ↦ (e.1, f e.2), List.pairwise_map.mpr m.sorted⟩

theorem lookup_cons_ite (k d : String) (v : α) (es : List (String × α)) :
    ((d, v) :: es).lookup k = if k = d then some v else es.lookup k := by
  rw [List.lookup_cons]
  by_cases h : k = d
  · simp [h]
  · simp [h, beq_eq_false_iff_ne.mpr h]

theorem lookup_place (k k' : String) (v : α) (es : List (String × α)) :
    (place k v es).lookup k' = if k' = k then some v else es.lookup k' := by
  induction es with
  | nil => exact lookup_cons_ite ..
  | cons e es ih =>
    obtain ⟨d, w⟩ := e
    rw [place]
    split
    · exact lookup_cons_ite ..
    · split
      next hk =>
        simp only at hk
        simp only [lookup_cons_ite, hk]
        grind
      next hk =>
        simp only at hk
        simp only [lookup_cons_ite, ih]
        grind

@[simp] theorem get?_insert (m : NameMap α) (k k' : String) (v : α) :
    (m.insert k v).get? k' = if k' = k then some v else m.get? k' :=
  lookup_place k k' v m.entries

@[simp] theorem get?_empty (k : String) : (∅ : NameMap α).get? k = none := rfl

@[simp] theorem get?_map (f : α → β) (m : NameMap α) (k : String) :
    (m.map f).get? k = (m.get? k).map f := by
  obtain ⟨es, hs⟩ := m
  simp only [get?, map]
  clear hs
  induction es with
  | nil => rfl
  | cons e es ih =>
    obtain ⟨d, v⟩ := e
    simp only [List.map_cons, lookup_cons_ite, ih]
    split <;> rfl

end NameMap

end ScopeForest
