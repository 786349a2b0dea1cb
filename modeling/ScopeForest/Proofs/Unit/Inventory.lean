import ScopeForest.Proofs.Unit.Allocation

namespace ScopeForest

namespace Id

variable {k : IdKind} {α : Type} {slots : List α} {i j : Id k} {a : α}

theorem nodup_of_get? (h : ∀ {i j : Id k} {a : α}, i.get? slots = some a →
    j.get? slots = some a → i = j) : slots.Nodup := by
  refine List.nodup_iff_getElem?_ne_getElem?.mpr fun m n hmn hn heq ↦ ?_
  have hget : (ofIndex n : Id k).get? slots = some slots[n] := List.getElem?_eq_getElem hn
  have hsame : (ofIndex m : Id k) = ofIndex n := h (heq.trans hget) hget
  have hindex : m + 1 = n + 1 := congrArg Id.val hsame
  omega

theorem eq_of_get? (h : slots.Nodup) (hi : i.get? slots = some a) (hj : j.get? slots = some a) :
    i = j := by
  obtain ⟨m, rfl, hm⟩ := get?_eq_some_iff.mp hi
  obtain ⟨n, rfl, hn⟩ := get?_eq_some_iff.mp hj
  have hlt := (List.getElem?_eq_some_iff.mp hm).1
  exact congrArg ofIndex ((List.getElem?_inj hlt h).mp (hm.trans hn.symm))

end Id

def DeclSlot.plain (slot : DeclSlot) : DeclSlot := { slot with declared := none }

/-- What a slot of a type is for. -/
inductive TypeRole
  | whole (r : Record)
  | constHalf (r : Record)
  | volatileHalf (r : Record)
  | declared (slot : Option DeclSlot)
  deriving DecidableEq

def TypeRole.record? : TypeRole → Option Record
  | .whole r | .constHalf r | .volatileHalf r => some r
  | .declared slot => slot.map DeclSlot.record

namespace Record

variable (r : Record)

def declSlots : List DeclSlot :=
  match r.tag.declKind? with
  | none => []
  | some kind => ⟨.record r, kind, r.id, none⟩ ::
    if kind = .enumDecl then Slots.enumeratorSlots r 0 (r.childrenOf .enumerator) else []

def typeRoles : List TypeRole :=
  match r.tag.declKind? with
  | some kind =>
    if kind.isTypeDeclaration then [.declared (some ⟨.record r, kind, r.id, none⟩)] else []
  | none =>
    if r.tag = .file then []
    else if r.TwiceQualified then [.constHalf r, .volatileHalf r]
    else [.whole r]

variable {r}

theorem nodup_typeRoles : r.typeRoles.Nodup := by
  unfold typeRoles
  split
  next =>
    split
    next => exact List.nodup_singleton _
    next => exact List.nodup_nil
  next =>
    split
    next => exact List.nodup_nil
    next =>
      split
      next => simp
      next => exact List.nodup_singleton _

theorem record?_of_mem_typeRoles {role : TypeRole} (h : role ∈ r.typeRoles) :
    role.record? = some r := by
  unfold typeRoles at h
  split at h
  next =>
    split at h
    next =>
      rw [List.mem_singleton.mp h]
      rfl
    next => cases h
  next =>
    split at h
    next => cases h
    next =>
      split at h
      next =>
        rcases List.mem_cons.mp h with rfl | h
        · rfl
        · rw [List.mem_singleton.mp h]
          rfl
      next =>
        rw [List.mem_singleton.mp h]
        rfl

end Record

namespace Slots

variable {s t : Slots} {spelled : Bool} {r : Record} {records : List Record}

def role (s : Slots) : TypeSource → TypeRole
  | .record r => .whole r
  | .constHalf r _ => .constHalf r
  | .volatileHalf r => .volatileHalf r
  | .declared d => .declared ((d.get? s.decls).map DeclSlot.plain)

/-- The slots are those that the records bring, in order. -/
structure Stocks (records : List Record) (s : Slots) : Prop where
  decls : s.decls.map DeclSlot.plain = records.flatMap Record.declSlots
  types : s.types.map s.role = records.flatMap Record.typeRoles
  files : s.files = records.flatMap newFiles

theorem plain_enumeratorSlots (owner : Record) (n : Nat) (children : List ChildRecord) :
    (enumeratorSlots owner n children).map DeclSlot.plain = enumeratorSlots owner n children := by
  induction children generalizing n with
  | nil => rfl
  | cons child children ih =>
    rw [enumeratorSlots, List.map_cons, ih]
    rfl

theorem plain_newDecls (s : Slots) (r : Record) :
    (s.newDecls r).map DeclSlot.plain = r.declSlots := by
  cases hk : r.tag.declKind? with
  | none => rw [newDecls, Record.declSlots, hk]; rfl
  | some kind =>
    rw [newDecls_eq hk, Record.declSlots, hk, List.map_cons]
    refine congrArg (List.cons _) ?_
    split
    next => exact plain_enumeratorSlots _ _ _
    next => rfl

theorem Fills.role_newTypes (h : Fills spelled { s with records := s.records ++ [r] } r t) :
    (s.newTypes r).map t.role = r.typeRoles := by
  cases hk : r.tag.declKind? with
  | some kind =>
    rw [newTypes_eq hk, Record.typeRoles, hk]
    simp only
    split
    next hkind =>
      have hd : (Id.next s.decls : DeclId).get? t.decls =
          some ⟨.record r, kind, r.id, some (Id.next s.types)⟩ := by
        rw [h.decls, newDecls_eq hk, if_pos hkind]
        exact Id.get?_append_right (n := 0) rfl
      rw [List.map_singleton, role, hd]
      rfl
    next => rfl
  | none =>
    rw [newTypes, Record.typeRoles, hk]
    simp only
    split
    next => rfl
    next =>
      split
      next => rfl
      next => rfl

theorem Sound.role_eq (hs : s.Sound spelled) (hst : s.Extends t) {a : TypeId} {source : TypeSource}
    (ha : a.get? s.types = some source) : t.role source = s.role source := by
  cases hs.backsType ha with
  | declared hd _ => rw [role, role, hd, Id.get?_of_prefix hd hst.decls]
  | _ => rfl

theorem Stocks.place (hs : s.Sound spelled) (h : s.Stocks records)
    (ht : Slots.place spelled s r = .ok t) : t.Stocks (records ++ [r]) := by
  obtain ⟨-, hfills⟩ := place_eq_ok ht
  refine ⟨?_, ?_, ?_⟩
  · rw [hfills.decls, List.map_append, h.decls, plain_newDecls, List.flatMap_append,
      List.flatMap_singleton]
  · have hold : s.types.map t.role = s.types.map s.role := by
      refine List.map_congr_left fun source hsource ↦ ?_
      obtain ⟨a, ha⟩ := Id.exists_get?_of_mem (k := .type) hsource
      exact hs.role_eq hfills.extends ha
    have hnew : (Slots.newTypes { s with records := s.records ++ [r] } r).map t.role =
        r.typeRoles := hfills.role_newTypes
    rw [hfills.types, List.map_append, hold, h.types, hnew, List.flatMap_append,
      List.flatMap_singleton]
  · rw [hfills.files, h.files, List.flatMap_append, List.flatMap_singleton]

theorem Stocks.foldlM {more : List Record} (hs : s.Sound spelled) (h : s.Stocks records)
    (ht : more.foldlM (Slots.place spelled) s = .ok t) : t.Stocks (records ++ more) := by
  induction more generalizing s records with
  | nil =>
    cases ht
    rwa [List.append_nil]
  | cons r more ih =>
    rw [List.foldlM_cons] at ht
    obtain ⟨m, hm, ht⟩ := Outcome.bind_eq_ok ht
    have hstocks := ih (hs.place hm) (h.place hs hm) ht
    rwa [List.append_assoc, List.singleton_append] at hstocks

theorem stocks_of_allocate {unit : UnitId} {u : AllocatedUnit}
    (h : allocate unit records = .ok u) : u.slots.Stocks records := by
  obtain ⟨slots, hslots, h⟩ := Outcome.bind_eq_ok h
  have hstocks : slots.Stocks ([] ++ records) :=
    Stocks.foldlM (sound_empty _ unit) ⟨rfl, rfl, rfl⟩ hslots
  split at h
  next =>
    cases h
    exact hstocks
  next => cases h

theorem Bound.nodup_decls (hs : s.Bound) : (s.decls.map DeclSlot.plain).Nodup := by
  refine Id.nodup_of_get? (k := .decl) fun {d e plain} hd he ↦ ?_
  rw [Id.get?_map, Option.map_eq_some_iff] at hd he
  obtain ⟨slot, hd, rfl⟩ := hd
  obtain ⟨other, he, hplain⟩ := he
  -- both slots carry one id, and that is bound to one declaration
  have hid : other.externalId = slot.externalId := by
    change other.plain.externalId = slot.plain.externalId
    rw [hplain]
  have hbound := hs.decl.mpr ⟨slot, hd, rfl⟩
  rw [hs.decl.mpr ⟨other, he, hid⟩] at hbound
  cases hbound
  rfl

theorem Stocks.nodup_types (h : s.Stocks records) (hs : (records.map (·.id)).Nodup) :
    (s.types.map s.role).Nodup := by
  rw [h.types, List.nodup_flatMap]
  refine ⟨fun r _ ↦ Record.nodup_typeRoles, ?_⟩
  refine hs.of_map.imp fun {q r} hne ↦ ?_
  intro role hq hr
  have hrecord := Record.record?_of_mem_typeRoles hq
  rw [Record.record?_of_mem_typeRoles hr] at hrecord
  exact hne (Option.some_inj.mp hrecord).symm

end Slots

end ScopeForest
