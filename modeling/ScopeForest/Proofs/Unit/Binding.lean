import ScopeForest.Proofs.Forest.Run
import ScopeForest.Proofs.Unit.Admission

namespace ScopeForest

open Outcome

namespace NameMap

variable {α : Type} {m : NameMap α} {k : String}

theorem nodup_keys (m : NameMap α) : m.keys.Nodup := by
  refine List.pairwise_map.mpr (m.sorted.imp fun {a b} hlt heq ↦ ?_)
  rw [heq] at hlt
  exact String.lt_irrefl _ hlt

theorem mem_keys_iff : k ∈ m.keys ↔ ∃ v, m.get? k = some v := by
  obtain ⟨es, hs⟩ := m
  simp only [keys, get?]
  clear hs
  induction es with
  | nil => simp
  | cons e es ih =>
    obtain ⟨d, v⟩ := e
    rw [List.map_cons, List.mem_cons, ih, lookup_cons_ite]
    by_cases h : k = d
    · simp [h]
    · simp [h]

end NameMap

namespace Record

variable (r : Record)

def enumeratorIds : List ExternalId :=
  if r.tag = .enumeration then
    (List.range (r.childrenOf .enumerator).length).map (enumeratorId r.id)
  else []

def declIds : List ExternalId :=
  if r.tag.declKind?.isSome then r.id :: r.enumeratorIds else []

/-- All ids that a record brings. Files have none. -/
def ids : List ExternalId :=
  if r.tag = .file then [] else r.id :: r.enumeratorIds

variable {r}

theorem mem_enumeratorIds_iff {x : ExternalId} : x ∈ r.enumeratorIds ↔ r.tag = .enumeration ∧
    ∃ i child, (r.childrenOf .enumerator)[i]? = some child ∧ enumeratorId r.id i = x := by
  rw [enumeratorIds]
  split
  next ht =>
    rw [List.mem_map]
    constructor
    · rintro ⟨i, hi, hid⟩
      exact ⟨ht, i, _, List.getElem?_eq_getElem (List.mem_range.mp hi), hid⟩
    · rintro ⟨-, i, child, hc, hid⟩
      exact ⟨i, List.mem_range.mpr (List.getElem?_eq_some_iff.mp hc).1, hid⟩
  next ht => simp [ht]

theorem id_mem_ids (h : r.tag ≠ .file) : r.id ∈ r.ids := by
  rw [ids, if_neg h]
  exact List.mem_cons_self

theorem mem_ids_of_mem_enumeratorIds {x : ExternalId} (h : x ∈ r.enumeratorIds) : x ∈ r.ids := by
  have htag := (mem_enumeratorIds_iff.mp h).1
  rw [ids, if_neg (by rw [htag]; decide)]
  exact List.mem_cons_of_mem _ h

theorem externalId_enumeratorSlots (owner : Record) (n : Nat) (children : List ChildRecord) :
    (Slots.enumeratorSlots owner n children).map (·.externalId) =
      (List.range' n children.length).map (enumeratorId owner.id) := by
  induction children generalizing n with
  | nil => rfl
  | cons child children ih =>
    rw [Slots.enumeratorSlots, List.map_cons, ih, List.length_cons, List.range'_succ, List.map_cons]

theorem externalId_declSlots : r.declSlots.map (·.externalId) = r.declIds := by
  rw [declSlots, declIds]
  split
  next hk => simp [hk]
  next kind hk =>
    rw [hk, Option.isSome_some, if_pos rfl, List.map_cons]
    refine congrArg (List.cons r.id) ?_
    rw [enumeratorIds]
    by_cases he : kind = .enumDecl
    · rw [if_pos he, if_pos (Slots.tag_eq_enumeration (he ▸ hk)), externalId_enumeratorSlots,
        List.range_eq_range']
    · rw [if_neg he, if_neg]
      · rfl
      · intro ht
        rw [ht] at hk
        exact he (Option.some_inj.mp hk).symm

theorem boundIds_eq : r.boundIds = r.ids := by
  cases hk : r.tag.declKind? with
  | some kind =>
    have hfile : r.tag ≠ .file := fun hf ↦ by
      rw [hf] at hk
      cases hk
    rw [boundIds_of_declKind? hk, externalId_declSlots, declIds, ids, hk, if_neg hfile]
    rfl
  | none =>
    by_cases hf : r.tag = .file
    · rw [boundIds_of_file hf, ids, if_pos hf]
    · have hnot : r.tag ≠ .enumeration := fun he ↦ by
        rw [he] at hk
        cases hk
      rw [boundIds_of_isType (Slots.isType_of_declKind? hk hf), ids, if_neg hf, enumeratorIds,
        if_neg hnot]

end Record

/-- Whether a type slot comes without an id: the type of a declaration, and the inner half of a type
with both qualifiers. -/
def TypeSource.isUnnamed : TypeSource → Bool
  | .volatileHalf _ | .declared _ => true
  | .record _ | .constHalf .. => false

namespace Slots

variable {s : Slots} {spelled : Bool} {records : List Record}

/-- The record that carries an id fills the slot of the node that the id is bound to. -/
inductive Carries (s : Slots) (records : List Record) (id : ExternalId) : Node → Prop
  | decl {r : Record} {d : DeclId} {slot : DeclSlot} (hr : r ∈ records) (hid : r.id = id)
      (hd : d.get? s.decls = some slot) (hs : slot.source = .record r)
      (hk : r.tag.declKind? = some slot.kind) : Carries s records id (.decl d)
  | enumerator {r : Record} {child : ChildRecord} {i : Nat} {d : DeclId} {slot : DeclSlot}
      (hr : r ∈ records) (ht : r.tag = .enumeration)
      (hc : (r.childrenOf .enumerator)[i]? = some child) (hid : enumeratorId r.id i = id)
      (hd : d.get? s.decls = some slot) (hs : slot.source = .enumerator r child) :
      Carries s records id (.decl d)
  | type {r : Record} {t : TypeId} (hr : r ∈ records) (hid : r.id = id) (ht : r.tag.isType)
      (hq : ¬r.TwiceQualified) (hs : t.get? s.types = some (.record r)) :
      Carries s records id (.type t)
  | constHalf {r : Record} {t inner : TypeId} (hr : r ∈ records) (hid : r.id = id)
      (hq : r.TwiceQualified) (hs : t.get? s.types = some (.constHalf r inner)) :
      Carries s records id (.type t)

/-- Each id of the records is bound once, to a slot of its own. -/
structure BindsOnce (records : List Record) (s : Slots) : Prop where
  distinct : (records.flatMap Record.ids).Nodup
  domain : s.registry.bindings.keys.Perm (records.flatMap Record.ids)
  injective : ∀ {x y : ExternalId} {node : Node}, s.registry.get? x = some node →
    s.registry.get? y = some node → x = y
  carries : ∀ {x : ExternalId} {node : Node}, s.registry.get? x = some node →
    s.Carries records x node
  /-- Declarations are numbered in the order of the records, enumerators after their enumeration. -/
  dense : ∀ {x : ExternalId} {i : Nat},
    (records.flatMap Record.declIds)[i]? = some x ↔ s.registry.get? x = some (.decl (Id.ofIndex i))
  decl : ∀ {d : DeclId} {slot : DeclSlot}, d.get? s.decls = some slot →
    ∃! x, s.registry.get? x = some (.decl d)
  type : ∀ {t : TypeId} {source : TypeSource}, t.get? s.types = some source →
    if source.isUnnamed then ∀ x, s.registry.get? x ≠ some (.type t)
    else ∃! x, s.registry.get? x = some (.type t)
  /-- Just the type declarations have a type, and just one. -/
  declared : ∀ {d : DeclId} {slot : DeclSlot}, d.get? s.decls = some slot →
    (slot.declared.isSome ↔ slot.kind.isTypeDeclaration) ∧
      ∀ t : TypeId, t.get? s.types = some (.declared d) ↔ slot.declared = some t
  declares : ∀ {d : DeclId} {t : TypeId}, t.get? s.types = some (.declared d) →
    ∃ slot, d.get? s.decls = some slot
  halves : ∀ {r : Record}, r ∈ records → r.TwiceQualified →
    ∃ t inner : TypeId, s.registry.get? r.id = some (.type t) ∧
      t.get? s.types = some (.constHalf r inner) ∧
        ∀ v : TypeId, v.get? s.types = some (.volatileHalf r) ↔ v = inner
  half : ∀ {r : Record} {t : TypeId}, t.get? s.types = some (.volatileHalf r) →
    r ∈ records ∧ r.TwiceQualified

theorem Bound.injective (hs : s.Bound) {x y : ExternalId} {node : Node}
    (hx : s.registry.get? x = some node) (hy : s.registry.get? y = some node) : x = y := by
  cases node with
  | decl d =>
    obtain ⟨slot, hd, rfl⟩ := hs.decl.mp hx
    obtain ⟨slot', hd', rfl⟩ := hs.decl.mp hy
    rw [hd] at hd'
    cases hd'
    rfl
  | type t =>
    obtain ⟨source, ht, hid⟩ := hs.type.mp hx
    obtain ⟨source', ht', hid'⟩ := hs.type.mp hy
    rw [ht] at ht'
    cases ht'
    rw [hid] at hid'
    exact Option.some_inj.mp hid'

theorem Stocks.externalIds (h : s.Stocks records) :
    s.decls.map (·.externalId) = records.flatMap Record.declIds := by
  have hplain : s.decls.map (·.externalId) = (s.decls.map DeclSlot.plain).map (·.externalId) := by
    rw [List.map_map]
    rfl
  rw [hplain, h.decls, List.map_flatMap]
  simp only [Record.externalId_declSlots]

theorem Bound.nodup_externalIds (hs : s.Bound) : (s.decls.map (·.externalId)).Nodup := by
  refine Id.nodup_of_get? (k := .decl) fun {d e x} hd he ↦ ?_
  rw [Id.get?_map, Option.map_eq_some_iff] at hd he
  have hx := hs.decl.mpr hd
  rw [hs.decl.mpr he] at hx
  cases hx
  rfl

section Sound

variable (hs : s.Sound spelled) {x : ExternalId} {node : Node}

include hs

theorem Sound.carries (h : s.registry.get? x = some node) : s.Carries s.records x node := by
  cases node with
  | decl d =>
    obtain ⟨slot, hd, rfl⟩ := hs.bound.decl.mp h
    cases hs.backs hd with
    | record hr hk hdeclared => exact .decl hr rfl hd rfl hk
    | enumerator hr ht hc => exact .enumerator hr ht hc rfl hd rfl
  | type t =>
    obtain ⟨source, ht, hid⟩ := hs.bound.type.mp h
    cases hs.backsType ht with
    | record hr hk hq => exact .type hr (Option.some_inj.mp hid) hk hq ht
    | constHalf hr hq hi => exact .constHalf hr (Option.some_inj.mp hid) hq ht
    | volatileHalf | declared => cases hid

theorem Sound.bound_of_isType {r : Record} (hr : r ∈ s.records) (ht : r.tag.isType) :
    ∃ t, s.registry.get? r.id = some (.type t) := by
  obtain ⟨t, source, hget, hsource⟩ := (hs.covers hr).type ht
  have hid : source.boundId? = some r.id := by
    rcases hsource with rfl | ⟨inner, rfl⟩ <;> rfl
  exact ⟨t, hs.bound.type.mpr ⟨source, hget, hid⟩⟩

theorem Sound.bound_of_mem {r : Record} (hr : r ∈ s.records) (hx : x ∈ r.ids) :
    ∃ node, s.registry.get? x = some node := by
  rw [Record.ids] at hx
  split at hx
  next => cases hx
  next hf =>
    rcases List.mem_cons.mp hx with rfl | hx
    · cases hk : r.tag.declKind? with
      | some kind =>
        obtain ⟨d, declared, hd⟩ := (hs.covers hr).decl hk
        exact ⟨.decl d, hs.bound.decl.mpr ⟨_, hd, rfl⟩⟩
      | none =>
        obtain ⟨t, ht⟩ := hs.bound_of_isType hr (isType_of_declKind? hk hf)
        exact ⟨.type t, ht⟩
    · obtain ⟨ht, i, child, hc, rfl⟩ := Record.mem_enumeratorIds_iff.mp hx
      obtain ⟨d, hd⟩ := (hs.covers hr).enumerator ht hc
      exact ⟨.decl d, hs.bound.decl.mpr ⟨_, hd, rfl⟩⟩

omit hs in
theorem Carries.mem_ids (h : s.Carries records x node) : x ∈ records.flatMap Record.ids := by
  have hown {r : Record} (hr : r ∈ records) (hf : r.tag ≠ .file) :
      r.id ∈ records.flatMap Record.ids :=
    List.mem_flatMap.mpr ⟨r, hr, Record.id_mem_ids hf⟩
  cases h with
  | decl hr hid hd hsource hk =>
    refine hid ▸ hown hr fun hf ↦ ?_
    rw [hf] at hk
    cases hk
  | @enumerator r child i d slot hr ht hc hid hd hsource =>
    have hmem := Record.mem_enumeratorIds_iff.mpr ⟨ht, i, child, hc, hid⟩
    exact List.mem_flatMap.mpr ⟨r, hr, Record.mem_ids_of_mem_enumeratorIds hmem⟩
  | type hr hid ht hq hsource => exact hid ▸ hown hr (declKind?_of_isType ht).2
  | constHalf hr hid hq hsource =>
    refine hid ▸ hown hr fun hf ↦ ?_
    rw [hq.1] at hf
    cases hf

/-- Ids of declarations differ as their slots do, ids of types as the records do, and no id is bound
to both. -/
theorem Sound.nodup_ids (h : s.Stocks s.records) : (s.records.flatMap Record.ids).Nodup := by
  have hperm : (s.records.flatMap (fun r ↦ r.declSlots.map (·.externalId)) ++
      s.records.flatMap fun r ↦ if r.tag.isType then [r.id] else []).Perm
        (s.records.flatMap Record.ids) := by
    have hids : Record.ids = fun r ↦ r.declSlots.map (·.externalId) ++
        if r.tag.isType then [r.id] else [] := funext fun r ↦ Record.boundIds_eq.symm
    rw [hids]
    exact List.flatMap_append_perm _ _ _
  rw [← hperm.nodup_iff, List.nodup_append]
  simp only [Record.externalId_declSlots]
  refine ⟨?_, ?_, ?_⟩
  · rw [← h.externalIds]
    exact hs.bound.nodup_externalIds
  · have hfilter : (s.records.flatMap fun r ↦ if r.tag.isType then [r.id] else []) =
        (s.records.filter (·.tag.isType)).map (·.id) := by
      rw [← List.filterMap_eq_map, List.filterMap_filter, List.filterMap_eq_flatMap_toList]
      refine List.flatMap_congr fun r _ ↦ ?_
      split <;> rfl
    rw [hfilter]
    exact hs.nodup.sublist (List.filter_sublist.map _)
  · rintro a ha b hb rfl
    rw [← h.externalIds] at ha
    obtain ⟨slot, hslot, hid⟩ := List.mem_map.mp ha
    obtain ⟨d, hd⟩ := Id.exists_get?_of_mem (k := .decl) hslot
    obtain ⟨r, hr, hmem⟩ := List.mem_flatMap.mp hb
    split at hmem
    next ht =>
      obtain ⟨t, hbound⟩ := hs.bound_of_isType hr ht
      rw [← List.mem_singleton.mp hmem, hs.bound.decl.mpr ⟨slot, hd, hid⟩] at hbound
      cases hbound
    next => cases hmem

theorem Sound.perm_keys (h : s.Stocks s.records) :
    s.registry.bindings.keys.Perm (s.records.flatMap Record.ids) := by
  refine (List.perm_ext_iff_of_nodup (NameMap.nodup_keys _) (hs.nodup_ids h)).mpr fun x ↦ ?_
  rw [NameMap.mem_keys_iff]
  constructor
  · rintro ⟨node, hnode⟩
    exact (hs.carries hnode).mem_ids
  · intro hx
    obtain ⟨r, hr, hx⟩ := List.mem_flatMap.mp hx
    exact hs.bound_of_mem hr hx

theorem Sound.unique_type {t : TypeId} {source : TypeSource} (ht : t.get? s.types = some source) :
    if source.isUnnamed then ∀ x, s.registry.get? x ≠ some (.type t)
    else ∃! x, s.registry.get? x = some (.type t) := by
  have hbound (x : ExternalId) :
      s.registry.get? x = some (.type t) ↔ source.boundId? = some x := by
    rw [hs.bound.type]
    constructor
    · rintro ⟨found, hfound, hid⟩
      rw [ht] at hfound
      cases hfound
      exact hid
    · exact fun hid ↦ ⟨source, ht, hid⟩
  simp only [hbound, ne_eq]
  cases source with
  | record r | constHalf r inner => exact ⟨r.id, rfl, fun y hy ↦ (Option.some_inj.mp hy).symm⟩
  | volatileHalf r | declared d => exact fun x hx ↦ by cases hx

theorem Sound.declared_iff {d : DeclId} {slot : DeclSlot} (hd : d.get? s.decls = some slot) :
    (slot.declared.isSome ↔ slot.kind.isTypeDeclaration) ∧
      ∀ t : TypeId, t.get? s.types = some (.declared d) ↔ slot.declared = some t := by
  constructor
  · cases hs.backs hd with
    | record hr hk hdeclared =>
      split at hdeclared
      next hkind =>
        obtain ⟨t, rfl, -⟩ := hdeclared
        simp [hkind]
      next hkind => simp [hdeclared, hkind]
    | enumerator => exact Iff.rfl
  · intro t
    refine ⟨fun ht ↦ ?_, fun ht ↦ ((hs.backs hd).declared ht).2⟩
    cases hs.backsType ht with
    | declared hd' ht' =>
      rw [hd] at hd'
      cases hd'
      exact ht'

theorem Sound.halves (h : s.Stocks s.records) {r : Record} (hr : r ∈ s.records)
    (hq : r.TwiceQualified) : ∃ t inner : TypeId, s.registry.get? r.id = some (.type t) ∧
      t.get? s.types = some (.constHalf r inner) ∧
        ∀ v : TypeId, v.get? s.types = some (.volatileHalf r) ↔ v = inner := by
  have htype : r.tag.isType := by rw [hq.1]; rfl
  obtain ⟨t, source, ht, hsource⟩ := (hs.covers hr).type htype
  have hbacks := hs.backsType ht
  rcases hsource with rfl | ⟨inner, rfl⟩
  · cases hbacks with
    | record _ _ hnot => exact absurd hq hnot
  · cases hbacks with
    | constHalf _ _ hinner =>
      refine ⟨t, inner, hs.bound.type.mpr ⟨_, ht, rfl⟩, ht, fun v ↦ ⟨fun hv ↦ ?_, ?_⟩⟩
      · exact Id.eq_of_get? (h.nodup_types hs.nodup) (Id.get?_map_of_get? s.role hv)
          (Id.get?_map_of_get? s.role hinner)
      · rintro rfl
        exact hinner

theorem Sound.bindsOnce (h : s.Stocks s.records) : s.BindsOnce s.records where
  distinct := hs.nodup_ids h
  domain := hs.perm_keys h
  injective := hs.bound.injective
  carries := hs.carries
  dense {x i} := by
    rw [← h.externalIds, hs.bound.decl, List.getElem?_map, Option.map_eq_some_iff]
    rfl
  decl {d slot} hd := by
    have hid := hs.bound.decl.mpr ⟨slot, hd, rfl⟩
    exact ⟨slot.externalId, hid, fun y hy ↦ hs.bound.injective hy hid⟩
  type := hs.unique_type
  declared := hs.declared_iff
  declares ht := by
    cases hs.backsType ht with
    | declared hd _ => exact ⟨_, hd⟩
  halves := hs.halves h
  half ht := by
    cases hs.backsType ht with
    | volatileHalf hr hq => exact ⟨hr, hq⟩

end Sound

end Slots

/-- A unit that is accepted binds each of its ids once, and none is accepted that has an id twice. -/
theorem allocate_bindsOnce (unit : UnitId) (records : List Record) :
    (∀ a, allocate unit records = .ok a → a.slots.BindsOnce records) ∧
      ∀ records', records.Perm records' → ¬(records.flatMap Record.ids).Nodup →
        ∀ a, allocate unit records' ≠ .ok a := by
  have hbinds {records : List Record} {a : AllocatedUnit} (h : allocate unit records = .ok a) :
      a.slots.BindsOnce records := by
    have ha := allocate_eq_ok h
    have hstocks := Slots.stocks_of_allocate h
    rw [← ha.records] at hstocks ⊢
    exact ha.slots.bindsOnce hstocks
  refine ⟨fun a ↦ hbinds, fun records' hperm hnot a ha ↦ hnot ?_⟩
  exact ((hperm.flatMap_right Record.ids).nodup_iff).mpr (hbinds ha).distinct

namespace Sample

/-- A variable with the id of the first enumerator of an enumeration. -/
def clash : List Record :=
  [({ tag := .namespaceTag, id := "n" } : Record).withLiteral Field.name "::",
    (({ tag := .enumeration, id := "e" } : Record).withRef Field.context "n").withChild
      { kind := .enumerator, attrs := NameMap.ofList [(Field.name, .literal "one")] },
    ({ tag := .variableTag, id := "e#0" } : Record).withRef Field.context "n"]

end Sample

open Sample

/-- The enumerator of the unit comes right after its enumeration, and the const half of the qualified
type before the other half. With an id twice, a unit is refused from either end. -/
theorem allocate_bindsOnce_sample :
    (∃ a, allocate ⟨1⟩ source = .ok a ∧ a.slots.BindsOnce source ∧
      a.slots.registry.get? "e" = some (.decl ⟨5⟩) ∧
        a.slots.registry.get? "e#0" = some (.decl ⟨6⟩) ∧
          a.slots.registry.get? "q" = some (.type ⟨3⟩)) ∧
      (∀ a, allocate ⟨1⟩ clash ≠ .ok a) ∧ ∀ a, allocate ⟨1⟩ clash.reverse ≠ .ok a := by
  have h : (fun a ↦ (a.slots.registry.get? "e", a.slots.registry.get? "e#0",
        a.slots.registry.get? "q")) <$> allocate ⟨1⟩ source =
      .ok (some (.decl ⟨5⟩), some (.decl ⟨6⟩), some (.type ⟨3⟩)) := by
    cbv
  obtain ⟨a, ha, hdata⟩ := map_eq_ok h
  simp only [Prod.mk.injEq] at hdata
  have hids : clash.flatMap Record.ids = ["n", "e", "e#0", "e#0"] := by cbv
  have hclash : ¬(clash.flatMap Record.ids).Nodup := by
    rw [hids]
    decide
  have hrefused := (allocate_bindsOnce ⟨1⟩ clash).2
  exact ⟨⟨a, ha, (allocate_bindsOnce ⟨1⟩ source).1 a ha, hdata⟩,
    hrefused clash (List.Perm.refl _) hclash, hrefused clash.reverse clash.reverse_perm.symm hclash⟩

end ScopeForest
