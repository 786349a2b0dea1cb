import ScopeForest.Proofs.Unit.Placing

namespace ScopeForest

def Record.mayBeRoot (spelled : Bool) (r : Record) : Bool :=
  r.tag == .namespaceTag &&
    if spelled then r.namesRoot else (r.attrs.ref? Field.context).isNone

/-- The record that spells the root or, where none does, the first namespace without a context. -/
def rootRecord? (records : List Record) : Option Record :=
  records.find? (Record.mayBeRoot (records.any Record.namesRoot))

namespace Slots

variable {s t : Slots}

/-- The slot of `d` comes from a record of the unit, and a type declaration has its type. -/
inductive Backs (s : Slots) (d : DeclId) : DeclSlot → Prop
  | record {r : Record} {kind : DeclKind} {declared : Option TypeId} (hr : r ∈ s.records)
      (hk : r.tag.declKind? = some kind)
      (hd : if kind.isTypeDeclaration then
          ∃ t, declared = some t ∧ t.get? s.types = some (.declared d)
        else declared = none) :
      Backs s d ⟨.record r, kind, r.id, declared⟩
  | enumerator {r : Record} {child : ChildRecord} {i : Nat} (hr : r ∈ s.records)
      (ht : r.tag = .enumeration) (hc : (r.childrenOf .enumerator)[i]? = some child) :
      Backs s d ⟨.enumerator r child, .enumerator, enumeratorId r.id i, none⟩

inductive BacksType (s : Slots) (t : TypeId) : TypeSource → Prop
  | record {r : Record} (hr : r ∈ s.records) (ht : r.tag.isType) (hq : ¬r.TwiceQualified) :
      BacksType s t (.record r)
  | constHalf {r : Record} {inner : TypeId} (hr : r ∈ s.records) (hq : r.TwiceQualified)
      (hi : inner.get? s.types = some (.volatileHalf r)) : BacksType s t (.constHalf r inner)
  | volatileHalf {r : Record} (hr : r ∈ s.records) (hq : r.TwiceQualified) :
      BacksType s t (.volatileHalf r)
  | declared {d : DeclId} {slot : DeclSlot} (hd : d.get? s.decls = some slot)
      (ht : slot.declared = some t) : BacksType s t (.declared d)

/-- The slots of `t` come after those of `s`. -/
structure Extends (s t : Slots) : Prop where
  records : s.records ⊆ t.records
  decls : s.decls <+: t.decls
  types : s.types <+: t.types

theorem Backs.mono {d : DeclId} {slot : DeclSlot} (h : s.Backs d slot) (hst : s.Extends t) :
    t.Backs d slot := by
  cases h with
  | record hr hk hd =>
    refine .record (hst.records hr) hk ?_
    split at hd
    next hkind =>
      obtain ⟨a, ha, hget⟩ := hd
      rw [if_pos hkind]
      exact ⟨a, ha, Id.get?_of_prefix hget hst.types⟩
    next hkind => rwa [if_neg hkind]
  | enumerator hr ht hc => exact .enumerator (hst.records hr) ht hc

theorem BacksType.mono {a : TypeId} {source : TypeSource} (h : s.BacksType a source)
    (hst : s.Extends t) : t.BacksType a source := by
  cases h with
  | record hr ht hq => exact .record (hst.records hr) ht hq
  | constHalf hr hq hi => exact .constHalf (hst.records hr) hq (Id.get?_of_prefix hi hst.types)
  | volatileHalf hr hq => exact .volatileHalf (hst.records hr) hq
  | declared hd ht => exact .declared (Id.get?_of_prefix hd hst.decls) ht

/-- A record has the slots of all that it describes. -/
structure Covers (s : Slots) (r : Record) : Prop where
  decl : ∀ {kind : DeclKind}, r.tag.declKind? = some kind →
    ∃ (d : DeclId) (declared : Option TypeId),
      d.get? s.decls = some ⟨.record r, kind, r.id, declared⟩
  enumerator : ∀ {i : Nat} {child : ChildRecord}, r.tag = .enumeration →
    (r.childrenOf .enumerator)[i]? = some child →
    ∃ d : DeclId, d.get? s.decls =
      some ⟨.enumerator r child, .enumerator, enumeratorId r.id i, none⟩
  type : r.tag.isType → ∃ (a : TypeId) (source : TypeSource), a.get? s.types = some source ∧
    (source = .record r ∨ ∃ inner, source = .constHalf r inner)

theorem Covers.mono {r : Record} (h : s.Covers r) (hst : s.Extends t) : t.Covers r where
  decl hk := by
    obtain ⟨d, declared, hd⟩ := h.decl hk
    exact ⟨d, declared, Id.get?_of_prefix hd hst.decls⟩
  enumerator ht hc := by
    obtain ⟨d, hd⟩ := h.enumerator ht hc
    exact ⟨d, Id.get?_of_prefix hd hst.decls⟩
  type ht := by
    obtain ⟨a, source, ha, hsource⟩ := h.type ht
    exact ⟨a, source, Id.get?_of_prefix ha hst.types, hsource⟩

/-- The root is the slot of the first record that may be one. -/
structure Rooted (spelled : Bool) (s : Slots) : Prop where
  absent : s.root? = none → s.records.find? (·.mayBeRoot spelled) = none
  present : ∀ {d : DeclId}, s.root? = some d → ∃ r : Record,
    d.get? s.decls = some ⟨.record r, .namespaceDecl, r.id, none⟩ ∧
      s.records.find? (·.mayBeRoot spelled) = some r

/-- The slots of a unit and its records belong together. -/
structure Sound (spelled : Bool) (s : Slots) : Prop where
  bound : s.Bound
  backs : ∀ {d : DeclId} {slot : DeclSlot}, d.get? s.decls = some slot → s.Backs d slot
  backsType : ∀ {a : TypeId} {source : TypeSource}, a.get? s.types = some source →
    s.BacksType a source
  covers : ∀ {r : Record}, r ∈ s.records → s.Covers r
  nodup : (s.records.map (·.id)).Nodup
  rooted : s.Rooted spelled

theorem sound_empty (spelled : Bool) (unit : UnitId) : (empty unit).Sound spelled where
  bound := bound_empty unit
  backs h := absurd (Id.mem_of_get? h) List.not_mem_nil
  backsType h := absurd (Id.mem_of_get? h) List.not_mem_nil
  covers h := absurd h List.not_mem_nil
  nodup := List.nodup_nil
  rooted := ⟨fun _ ↦ rfl, fun h ↦ nomatch h⟩

section Step

variable {spelled : Bool} {r : Record}

theorem Fills.extends (h : Fills spelled { s with records := s.records ++ [r] } r t) :
    s.Extends t where
  records := by
    rw [h.records]
    exact List.subset_append_left _ _
  decls := by
    rw [h.decls]
    exact List.prefix_append _ _
  types := by
    rw [h.types]
    exact List.prefix_append _ _

theorem Fills.mem (h : Fills spelled { s with records := s.records ++ [r] } r t) :
    r ∈ t.records := by
  rw [h.records]
  exact List.mem_append_right _ List.mem_cons_self

theorem tag_eq_enumeration {tag : Tag} (h : tag.declKind? = some .enumDecl) :
    tag = .enumeration := by
  cases tag <;> simp_all [Tag.declKind?]

theorem isType_of_declKind? {tag : Tag} (h : tag.declKind? = none) (hf : tag ≠ .file) :
    tag.isType := by
  cases tag <;> simp_all [Tag.declKind?, Tag.isType]

theorem declKind?_of_isType {tag : Tag} (h : tag.isType) : tag.declKind? = none ∧ tag ≠ .file := by
  cases tag <;> simp_all [Tag.declKind?, Tag.isType]

theorem newDecls_eq {kind : DeclKind} (hk : r.tag.declKind? = some kind) : s.newDecls r =
    ⟨.record r, kind, r.id, if kind.isTypeDeclaration then some (Id.next s.types) else none⟩ ::
      if kind = .enumDecl then enumeratorSlots r 0 (r.childrenOf .enumerator) else [] := by
  rw [newDecls, hk]

theorem newTypes_eq {kind : DeclKind} (hk : r.tag.declKind? = some kind) :
    s.newTypes r = if kind.isTypeDeclaration then [.declared (Id.next s.decls)] else [] := by
  rw [newTypes, hk]

theorem newTypes_of_isType (h : r.tag.isType) : s.newTypes r =
    if r.TwiceQualified then
      [.constHalf r (Id.ofIndex (s.types.length + 1)), .volatileHalf r]
    else [.record r] := by
  obtain ⟨hk, hf⟩ := declKind?_of_isType h
  rw [newTypes, hk]
  simp [hf]

theorem Fills.backs (h : Fills spelled { s with records := s.records ++ [r] } r t) {n : Nat}
    {slot : DeclSlot} (hn : (s.newDecls r)[n]? = some slot) :
    t.Backs (Id.ofIndex (s.decls.length + n)) slot := by
  cases hk : r.tag.declKind? with
  | none =>
    rw [newDecls, hk] at hn
    simp at hn
  | some kind =>
    rw [newDecls_eq hk] at hn
    cases n with
    | zero =>
      cases hn
      refine .record h.mem hk ?_
      split
      next hkind =>
        refine ⟨_, rfl, ?_⟩
        rw [h.types, newTypes_eq hk, if_pos hkind]
        exact Id.get?_next_append
      next => rfl
    | succ n =>
      rw [List.getElem?_cons_succ] at hn
      split at hn
      next he =>
        rw [getElem?_enumeratorSlots, Option.map_eq_some_iff] at hn
        obtain ⟨child, hc, rfl⟩ := hn
        rw [Nat.zero_add]
        exact .enumerator h.mem (tag_eq_enumeration (he ▸ hk)) hc
      next => cases hn

theorem Fills.backsType (h : Fills spelled { s with records := s.records ++ [r] } r t) {n : Nat}
    {source : TypeSource} (hn : (s.newTypes r)[n]? = some source) :
    t.BacksType (Id.ofIndex (s.types.length + n)) source := by
  cases hk : r.tag.declKind? with
  | some kind =>
    rw [newTypes_eq hk] at hn
    split at hn
    next hkind =>
      rw [List.getElem?_singleton] at hn
      split at hn
      next hz =>
        subst hz
        cases hn
        have hd : (Id.next s.decls : DeclId).get? t.decls =
            some ⟨.record r, kind, r.id, some (Id.next s.types)⟩ := by
          rw [h.decls, newDecls_eq hk, if_pos hkind]
          exact Id.get?_append_right (n := 0) rfl
        exact .declared hd rfl
      next => cases hn
    next => cases hn
  | none =>
    by_cases hf : r.tag = .file
    · rw [newTypes, hk] at hn
      simp [hf] at hn
    have ht := isType_of_declKind? hk hf
    rw [newTypes_of_isType ht] at hn
    split at hn
    next hq =>
      rcases n with _ | _ | n
      · cases hn
        refine .constHalf h.mem hq ?_
        rw [h.types, newTypes_of_isType ht, if_pos hq]
        exact Id.get?_append_right (n := 1) rfl
      · cases hn
        exact .volatileHalf h.mem hq
      · cases hn
    next hq =>
      rw [List.getElem?_singleton] at hn
      split at hn
      · cases hn
        exact .record h.mem ht hq
      · cases hn

theorem Fills.covers (h : Fills spelled { s with records := s.records ++ [r] } r t) :
    t.Covers r where
  decl {kind} hk := by
    refine ⟨Id.next s.decls, if kind.isTypeDeclaration then some (Id.next s.types) else none, ?_⟩
    rw [h.decls, newDecls_eq hk]
    exact Id.get?_append_right (n := 0) rfl
  enumerator {i child} ht hc := by
    have hk : r.tag.declKind? = some .enumDecl := by rw [ht]; rfl
    refine ⟨Id.ofIndex (s.decls.length + (i + 1)), ?_⟩
    rw [h.decls, newDecls_eq hk, if_pos rfl]
    refine Id.get?_append_right ?_
    rw [List.getElem?_cons_succ, getElem?_enumeratorSlots, hc, Nat.zero_add]
    rfl
  type ht := by
    rw [h.types, newTypes_of_isType ht]
    split
    · exact ⟨Id.next s.types, _, Id.get?_append_right (n := 0) rfl, .inr ⟨_, rfl⟩⟩
    · exact ⟨Id.next s.types, _, Id.get?_append_right (n := 0) rfl, .inl rfl⟩

theorem claimsRoot_eq : s.claimsRoot spelled r =
    (r.mayBeRoot spelled && (spelled || s.root?.isNone)) := by
  cases spelled <;> simp [claimsRoot, Record.mayBeRoot, Bool.and_assoc]

theorem Fills.rooted (h : Fills spelled { s with records := s.records ++ [r] } r t)
    (hs : s.Rooted spelled) : t.Rooted spelled := by
  have hroot := h.root
  rw [claimsRoot_eq] at hroot
  constructor
  · intro hnone
    split at hroot
    next => rw [hroot.2] at hnone; cases hnone
    next hclaim =>
      have hnone : s.root? = none := hroot.symm.trans hnone
      rw [h.records, List.find?_append, hs.absent hnone]
      simpa [hnone] using hclaim
  · intro d hsome
    split at hroot
    next hclaim =>
      have hmay := (Bool.and_eq_true_iff.mp hclaim).1
      have hns : r.tag = .namespaceTag := by
        simpa using (Bool.and_eq_true_iff.mp hmay).1
      have hk : r.tag.declKind? = some .namespaceDecl := by rw [hns]; rfl
      rw [hroot.2] at hsome
      cases hsome
      refine ⟨r, ?_, ?_⟩
      · rw [h.decls, newDecls_eq hk]
        exact Id.get?_append_right (n := 0) rfl
      · rw [h.records, List.find?_append, hs.absent hroot.1]
        simp [hmay]
    next =>
      rw [hroot] at hsome
      obtain ⟨q, hd, hfind⟩ := hs.present hsome
      refine ⟨q, Id.get?_of_prefix hd h.extends.decls, ?_⟩
      rw [h.records, List.find?_append, hfind]
      rfl

theorem Sound.place (hs : s.Sound spelled) (h : Slots.place spelled s r = .ok t) :
    t.Sound spelled := by
  obtain ⟨hfresh, h⟩ := place_eq_ok h
  refine ⟨h.bound (hs.bound.withRecords _), ?_, ?_, ?_, ?_, h.rooted hs.rooted⟩
  · intro d slot hd
    rw [h.decls] at hd
    rcases Id.get?_append hd with hd | ⟨n, rfl, hn⟩
    · exact (hs.backs hd).mono h.extends
    · exact h.backs hn
  · intro a source ha
    rw [h.types] at ha
    rcases Id.get?_append ha with ha | ⟨n, rfl, hn⟩
    · exact (hs.backsType ha).mono h.extends
    · exact h.backsType hn
  · intro q hq
    rw [h.records] at hq
    rcases List.mem_append.mp hq with hq | hq
    · exact (hs.covers hq).mono h.extends
    · rw [List.mem_singleton.mp hq]
      exact h.covers
  · rw [h.records, List.map_append, List.nodup_append]
    refine ⟨hs.nodup, by simp, ?_⟩
    intro a ha b hb hab
    obtain ⟨q, hq, rfl⟩ := List.mem_map.mp ha
    rw [List.map_singleton, List.mem_singleton] at hb
    have hne := List.find?_eq_none.mp hfresh q hq
    simp [hab, hb] at hne

theorem sound_foldlM {records : List Record} (hs : s.Sound spelled)
    (h : records.foldlM (Slots.place spelled) s = .ok t) :
    t.Sound spelled ∧ t.records = s.records ++ records ∧ t.unit = s.unit := by
  induction records generalizing s with
  | nil =>
    cases h
    exact ⟨hs, (List.append_nil _).symm, rfl⟩
  | cons r records ih =>
    rw [List.foldlM_cons] at h
    obtain ⟨m, hm, h⟩ := Outcome.bind_eq_ok h
    obtain ⟨hsound, hrecords, hunit⟩ := ih (hs.place hm) h
    obtain ⟨-, hfills⟩ := place_eq_ok hm
    refine ⟨hsound, ?_, hunit.trans hfills.unit⟩
    rw [hrecords, hfills.records, List.append_assoc, List.singleton_append]

end Step

end Slots

/-- The slots of a unit are those of just its records. -/
structure AllocatedUnit.Sound (unit : UnitId) (records : List Record) (u : AllocatedUnit) :
    Prop where
  slots : u.slots.Sound (records.any Record.namesRoot)
  records : u.slots.records = records
  unit : u.slots.unit = unit
  root : u.slots.root? = some u.root

theorem allocate_eq_ok {unit : UnitId} {records : List Record} {u : AllocatedUnit}
    (h : allocate unit records = .ok u) : u.Sound unit records := by
  obtain ⟨slots, hslots, h⟩ := Outcome.bind_eq_ok h
  obtain ⟨hsound, hrecords, hunit⟩ := Slots.sound_foldlM (Slots.sound_empty _ unit) hslots
  split at h
  next root hroot =>
    cases h
    exact ⟨hsound, hrecords, hunit, hroot⟩
  next => cases h

theorem AllocatedUnit.Sound.rootSlot {unit : UnitId} {records : List Record} {u : AllocatedUnit}
    (h : u.Sound unit records) : ∃ r : Record,
      u.root.get? u.slots.decls = some ⟨.record r, .namespaceDecl, r.id, none⟩ ∧
        rootRecord? records = some r := by
  obtain ⟨r, hr, hfind⟩ := h.slots.rooted.present h.root
  exact ⟨r, hr, h.records ▸ hfind⟩

end ScopeForest
