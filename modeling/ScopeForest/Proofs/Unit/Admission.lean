import ScopeForest.Proofs.Unit.Inventory

namespace ScopeForest

open Outcome

namespace Registry

variable {reg reg' : Registry} {id : ExternalId} {ids : List ExternalId} {node : Node}

def Free (reg : Registry) (ids : List ExternalId) : Prop :=
  ids.Nodup ∧ ∀ id ∈ ids, reg.get? id = none

theorem returns_register_iff (hreg : reg.frozen = false) :
    Returns (reg.register id node) ↔ reg.get? id = none := by
  constructor
  · rintro ⟨reg', h⟩
    exact (register_eq_ok h).1
  · intro h
    have hfree : reg.contains id = false := by
      rw [contains, NameMap.contains, Option.isSome_eq_false_iff, Option.isNone_iff_eq_none]
      exact h
    rw [register, hreg, hfree]
    exact ⟨_, rfl⟩

theorem free_cons_iff (h : reg.register id node = .ok reg') :
    reg.Free (id :: ids) ↔ reg'.Free ids := by
  obtain ⟨hfree, rfl⟩ := register_eq_ok h
  simp only [Free, List.nodup_cons, List.forall_mem_cons, get?, NameMap.get?_insert]
  constructor
  · rintro ⟨⟨hnot, hnodup⟩, -, hids⟩
    refine ⟨hnodup, fun other hother ↦ ?_⟩
    have hne : other ≠ id := fun he ↦ hnot (he ▸ hother)
    rw [if_neg hne]
    exact hids other hother
  · rintro ⟨hnodup, hids⟩
    have hne {other : ExternalId} (hother : other ∈ ids) : other ≠ id := fun he ↦ by
      have hbound := hids other hother
      rw [if_pos he] at hbound
      cases hbound
    refine ⟨⟨fun hid ↦ hne hid rfl, hnodup⟩, hfree, fun other hother ↦ ?_⟩
    have hbound := hids other hother
    rwa [if_neg (hne hother)] at hbound

end Registry

namespace Record

def boundIds (r : Record) : List ExternalId :=
  r.declSlots.map (·.externalId) ++ if r.tag.isType then [r.id] else []

theorem boundIds_of_declKind? {r : Record} {kind : DeclKind} (hk : r.tag.declKind? = some kind) :
    r.boundIds = r.declSlots.map (·.externalId) := by
  have htype : ¬r.tag.isType := fun ht ↦ by
    rw [(Slots.declKind?_of_isType ht).1] at hk
    cases hk
  rw [boundIds, if_neg htype, List.append_nil]

theorem boundIds_of_isType {r : Record} (ht : r.tag.isType) : r.boundIds = [r.id] := by
  rw [boundIds, declSlots, (Slots.declKind?_of_isType ht).1, if_pos ht]
  rfl

theorem boundIds_of_file {r : Record} (hf : r.tag = .file) : r.boundIds = [] := by
  rw [boundIds, declSlots, hf]
  rfl

theorem not_namesRoot {r : Record} (hk : r.tag.declKind? = none) : ¬r.namesRoot := by
  intro hr
  have htag : r.tag = .namespaceTag := by
    simpa using (Bool.and_eq_true_iff.mp hr).1
  rw [htag] at hk
  cases hk

/-- Two records can stand in one unit, where the root is spelled. -/
structure Compatible (q r : Record) : Prop where
  id : q.id ≠ r.id
  bound : q.boundIds.Disjoint r.boundIds
  root : ¬(q.namesRoot ∧ r.namesRoot)

instance : Std.Symm Compatible :=
  ⟨fun _ _ h ↦ ⟨h.id.symm, List.disjoint_symm h.bound, fun hr ↦ h.root hr.symm⟩⟩

end Record

namespace Slots

variable {s t : Slots} {q r : Record} {records records' : List Record}

/-- The record can be placed next. -/
structure Admits (s : Slots) (r : Record) : Prop where
  id : s.record? r.id = none
  path : r.tag = .file → (r.attrs.literal? Field.name).isSome
  free : s.registry.Free r.boundIds
  root : r.namesRoot → s.root? = none

theorem claimsRoot_true : s.claimsRoot true r = r.namesRoot := by
  simp [claimsRoot, Record.namesRoot]

section Steps

variable {slot : DeclSlot} (hs : s.registry.frozen = false)

theorem free_addDecl (h : s.addDecl slot = .ok t) (ids : List ExternalId) :
    s.registry.Free (slot.externalId :: ids) ↔ t.registry.Free ids := by
  obtain ⟨reg, hreg, h⟩ := bind_eq_ok h
  cases h
  exact Registry.free_cons_iff hreg

include hs

theorem returns_addDecl_iff : Returns (s.addDecl slot) ↔ s.registry.get? slot.externalId = none := by
  rw [addDecl, returns_bind_iff, ← Registry.returns_register_iff hs]
  exact ⟨fun ⟨reg, hreg, _⟩ ↦ ⟨reg, hreg⟩, fun ⟨reg, hreg⟩ ↦ ⟨reg, hreg, _, rfl⟩⟩

theorem unfrozen_addDecl (h : s.addDecl slot = .ok t) : t.registry.frozen = false := by
  obtain ⟨reg, hreg, h⟩ := bind_eq_ok h
  obtain ⟨-, rfl⟩ := Registry.register_eq_ok hreg
  cases h
  exact hs

theorem returns_addEnumerators_iff {owner : Record} {n : Nat} {children : List ChildRecord} :
    Returns (s.addEnumerators owner n children) ↔
      s.registry.Free ((enumeratorSlots owner n children).map (·.externalId)) := by
  induction children generalizing s n with
  | nil => exact ⟨fun _ ↦ ⟨List.nodup_nil, nofun⟩, fun _ ↦ ⟨s, rfl⟩⟩
  | cons child children ih =>
    rw [addEnumerators, returns_bind_iff, enumeratorSlots, List.map_cons]
    constructor
    · rintro ⟨m, hm, hrest⟩
      exact (free_addDecl hm _).mpr ((ih (unfrozen_addDecl hs hm)).mp hrest)
    · intro hfree
      obtain ⟨m, hm⟩ := (returns_addDecl_iff hs).mpr (hfree.2 _ List.mem_cons_self)
      exact ⟨m, hm, (ih (unfrozen_addDecl hs hm)).mpr ((free_addDecl hm _).mp hfree)⟩

omit hs in
theorem returns_settleRoot_iff {claims : Bool} {d : DeclId} :
    Returns (s.settleRoot claims r d) ↔ (claims → s.root? = none) := by
  unfold settleRoot claimRoot
  cases claims with
  | false => exact ⟨fun _ ↦ nofun, fun _ ↦ ⟨s, rfl⟩⟩
  | true =>
    cases s.root? with
    | none => exact ⟨fun _ _ ↦ rfl, fun _ ↦ ⟨_, rfl⟩⟩
    | some first =>
      constructor
      · rintro ⟨t, ht⟩
        cases ht
      · intro h
        cases h rfl

theorem returns_enumerators_iff {kind : DeclKind} :
    Returns (if kind = .enumDecl then s.addEnumerators r 0 (r.childrenOf .enumerator)
      else (return s : Except GraphError Slots)) ↔
    s.registry.Free ((if kind = .enumDecl then enumeratorSlots r 0 (r.childrenOf .enumerator)
      else []).map (·.externalId)) := by
  split
  next => exact returns_addEnumerators_iff hs
  next => exact ⟨fun _ ↦ ⟨List.nodup_nil, nofun⟩, fun _ ↦ ⟨s, rfl⟩⟩

theorem returns_placeDecl_iff {kind : DeclKind} (hk : r.tag.declKind? = some kind) :
    Returns (s.placeDecl true r kind) ↔
      s.registry.Free (r.declSlots.map (·.externalId)) ∧ (r.namesRoot → s.root? = none) := by
  have hclaims : s.claimsRoot true r = r.namesRoot := claimsRoot_true
  have hreg (b : Slots) : (b.addDeclared kind (Id.next s.decls)).registry = b.registry := by
    rw [addDeclared_eq]
  rw [Record.declSlots, hk, List.map_cons, placeDecl, returns_bind_iff]
  constructor
  · rintro ⟨a, ha, h⟩
    obtain ⟨b, hb, h⟩ := returns_bind_iff.mp h
    have hroot := returns_settleRoot_iff.mp ⟨b, hb⟩
    obtain ⟨root?, rfl, -⟩ := settleRoot_eq_ok hb
    have hunfrozen := unfrozen_addDecl hs ha
    have hunfrozen : (Slots.addDeclared { a with root? } kind (Id.next s.decls)).registry.frozen =
        false := by
      rw [hreg]
      exact hunfrozen
    have hfree := (returns_enumerators_iff hunfrozen).mp h
    rw [hreg] at hfree
    refine ⟨(free_addDecl ha _).mpr hfree, ?_⟩
    obtain ⟨-, reg, rfl⟩ := addDecl_eq_ok ha
    rwa [hclaims] at hroot
  · rintro ⟨hfree, hroot⟩
    have hfirst : Returns (s.addDecl ⟨.record r, kind, r.id,
        if kind.isTypeDeclaration then some (Id.next s.types) else none⟩) :=
      (returns_addDecl_iff hs).mpr (hfree.2 _ List.mem_cons_self)
    obtain ⟨a, ha⟩ := hfirst
    have hrest := (free_addDecl ha _).mp hfree
    have hunfrozen := unfrozen_addDecl hs ha
    have hroot : Returns (a.settleRoot (s.claimsRoot true r) r (Id.next s.decls)) := by
      obtain ⟨-, reg, rfl⟩ := addDecl_eq_ok ha
      rw [returns_settleRoot_iff, hclaims]
      exact hroot
    obtain ⟨b, hb⟩ := hroot
    obtain ⟨root?, rfl, -⟩ := settleRoot_eq_ok hb
    refine ⟨a, ha, returns_bind hb ((returns_enumerators_iff ?_).mpr ?_)⟩
    · rw [hreg]
      exact hunfrozen
    · rw [hreg]
      exact hrest

theorem returns_placeType_iff : Returns (s.placeType r) ↔ s.registry.Free [r.id] := by
  have hadd (sources : List TypeSource) :
      Returns (s.addTypes r.id sources) ↔ s.registry.Free [r.id] := by
    have hregister : Returns (s.registry.register r.id (.type (Id.next s.types))) ↔
        s.registry.get? r.id = none := Registry.returns_register_iff hs
    rw [addTypes, returns_bind_iff, Registry.Free]
    simp only [List.nodup_singleton, List.forall_mem_singleton, true_and]
    rw [← hregister]
    exact ⟨fun ⟨reg, hreg, _⟩ ↦ ⟨reg, hreg⟩, fun ⟨reg, hreg⟩ ↦ ⟨reg, hreg, _, rfl⟩⟩
  unfold placeType
  split
  next => exact hadd _
  next => exact hadd _

omit hs in
theorem returns_placeFile_iff :
    Returns (s.placeFile r) ↔ (r.attrs.literal? Field.name).isSome := by
  unfold placeFile
  cases r.attrs.literal? Field.name with
  | none => exact ⟨fun ⟨_, h⟩ ↦ (nomatch h), nofun⟩
  | some path => exact ⟨fun _ ↦ rfl, fun _ ↦ ⟨_, rfl⟩⟩

theorem returns_place_iff : Returns (place true s r) ↔ s.Admits r := by
  unfold place
  cases hid : s.record? r.id with
  | some q =>
    constructor
    · rintro ⟨t, ht⟩
      cases ht
    · intro h
      rw [h.id] at hid
      cases hid
  | none =>
    simp only [Option.isSome_none, Bool.false_eq_true, if_false]
    by_cases hfile : r.tag = .file
    · have hk : r.tag.declKind? = none := by rw [hfile]; rfl
      rw [if_pos hfile, returns_placeFile_iff]
      refine ⟨fun hpath ↦ ⟨hid, fun _ ↦ hpath, ?_, fun hr ↦ absurd hr (Record.not_namesRoot hk)⟩,
        fun h ↦ h.path hfile⟩
      rw [Record.boundIds_of_file hfile]
      exact ⟨List.nodup_nil, nofun⟩
    · rw [if_neg hfile]
      have hpath : r.tag = .file → (r.attrs.literal? Field.name).isSome := fun h ↦ absurd h hfile
      cases hk : r.tag.declKind? with
      | some kind =>
        refine (returns_placeDecl_iff (s := { s with records := s.records ++ [r] }) hs hk).trans ?_
        rw [← Record.boundIds_of_declKind? hk]
        exact ⟨fun h ↦ ⟨hid, hpath, h.1, h.2⟩, fun h ↦ ⟨h.free, h.root⟩⟩
      | none =>
        refine (returns_placeType_iff (s := { s with records := s.records ++ [r] }) hs).trans ?_
        rw [← Record.boundIds_of_isType (isType_of_declKind? hk hfile)]
        exact ⟨fun h ↦ ⟨hid, hpath, h, fun hr ↦ absurd hr (Record.not_namesRoot hk)⟩,
          fun h ↦ h.free⟩

end Steps

theorem Bound.get?_eq_none_iff (hs : s.Bound) {id : ExternalId} : s.registry.get? id = none ↔
    id ∉ s.decls.map (·.externalId) ∧ some id ∉ s.types.map (·.boundId?) := by
  constructor
  · intro hnone
    constructor
    · intro hmem
      obtain ⟨slot, hslot, hid⟩ := List.mem_map.mp hmem
      obtain ⟨d, hd⟩ := Id.exists_get?_of_mem (k := .decl) hslot
      have hget := hs.decl.mpr ⟨slot, hd, hid⟩
      rw [hnone] at hget
      cases hget
    · intro hmem
      obtain ⟨source, hsource, hid⟩ := List.mem_map.mp hmem
      obtain ⟨a, ha⟩ := Id.exists_get?_of_mem (k := .type) hsource
      have hget := hs.type.mpr ⟨source, ha, hid⟩
      rw [hnone] at hget
      cases hget
  · rintro ⟨hdecls, htypes⟩
    cases hget : s.registry.get? id with
    | none => rfl
    | some node =>
      cases node with
      | decl d =>
        obtain ⟨slot, hd, hid⟩ := hs.decl.mp hget
        exact absurd (List.mem_map.mpr ⟨slot, Id.mem_of_get? hd, hid⟩) hdecls
      | type a =>
        obtain ⟨source, ha, hid⟩ := hs.type.mp hget
        exact absurd (List.mem_map.mpr ⟨source, Id.mem_of_get? ha, hid⟩) htypes

theorem mem_newIds_iff {id : ExternalId} : id ∈ r.boundIds ↔
    id ∈ (s.newDecls r).map (·.externalId) ∨ some id ∈ (s.newTypes r).map (·.boundId?) := by
  have hdecls : (s.newDecls r).map (·.externalId) = r.declSlots.map (·.externalId) := by
    rw [← plain_newDecls s, List.map_map]
    rfl
  rw [Record.boundIds, List.mem_append, hdecls]
  refine or_congr_right ?_
  by_cases ht : r.tag.isType
  · rw [if_pos ht, newTypes_of_isType ht, List.mem_singleton]
    split
    next => simp [TypeSource.boundId?, eq_comm]
    next => simp [TypeSource.boundId?]
  · rw [if_neg ht, newTypes]
    split
    next =>
      split
      next => simp [TypeSource.boundId?]
      next => simp
    next hk =>
      have hfile : r.tag = .file := Decidable.byContradiction fun hf ↦ ht (isType_of_declKind? hk hf)
      simp [hfile]

section Placed

variable (hs : s.Bound) (h : place true s q = .ok t)

include hs h

theorem get?_place {id : ExternalId} :
    t.registry.get? id = none ↔ s.registry.get? id = none ∧ id ∉ q.boundIds := by
  obtain ⟨-, hfills⟩ := place_eq_ok h
  have ht := hfills.bound (hs.withRecords _)
  rw [ht.get?_eq_none_iff, hs.get?_eq_none_iff, hfills.decls, hfills.types,
    mem_newIds_iff (s := { s with records := s.records ++ [q] })]
  simp only [List.map_append, List.mem_append, not_or]
  tauto

theorem free_place {ids : List ExternalId} :
    t.registry.Free ids ↔ s.registry.Free ids ∧ q.boundIds.Disjoint ids := by
  simp only [Registry.Free, get?_place hs h]
  constructor
  · rintro ⟨hnodup, hids⟩
    exact ⟨⟨hnodup, fun id hid ↦ (hids id hid).1⟩, fun id hq hid ↦ (hids id hid).2 hq⟩
  · rintro ⟨⟨hnodup, hids⟩, hdisjoint⟩
    exact ⟨hnodup, fun id hid ↦ ⟨hids id hid, fun hq ↦ hdisjoint hq hid⟩⟩

omit hs in
theorem record?_place {id : ExternalId} :
    t.record? id = none ↔ s.record? id = none ∧ q.id ≠ id := by
  obtain ⟨-, hfills⟩ := place_eq_ok h
  simp [record?, hfills.records, List.find?_append]

omit hs in
theorem root?_place : t.root? = none ↔ s.root? = none ∧ ¬q.namesRoot := by
  obtain ⟨-, hfills⟩ := place_eq_ok h
  have hroot := hfills.root
  rw [claimsRoot_true] at hroot
  split at hroot
  next hq => simp [hroot.2, hq]
  next hq => simp [hroot, hq]

theorem admits_place_iff : t.Admits r ↔ s.Admits r ∧ q.Compatible r := by
  constructor
  · intro ht
    obtain ⟨hid, hne⟩ := (record?_place h).mp ht.id
    obtain ⟨hfree, hdisjoint⟩ := (free_place hs h).mp ht.free
    have hroot (hr : r.namesRoot) := (root?_place h).mp (ht.root hr)
    exact ⟨⟨hid, ht.path, hfree, fun hr ↦ (hroot hr).1⟩,
      hne, hdisjoint, fun hboth ↦ (hroot hboth.2).2 hboth.1⟩
  · rintro ⟨hr, hqr⟩
    refine ⟨(record?_place h).mpr ⟨hr.id, hqr.id⟩, hr.path, (free_place hs h).mpr ⟨hr.free, hqr.bound⟩,
      fun hroot ↦ (root?_place h).mpr ⟨hr.root hroot, fun hq ↦ hqr.root ⟨hq, hroot⟩⟩⟩

end Placed

/-- A list of records is placed if each of them could come first and no two of them conflict. -/
theorem returns_foldlM_iff (hs : s.Bound) : Returns (records.foldlM (place true) s) ↔
    (∀ r ∈ records, s.Admits r) ∧ records.Pairwise Record.Compatible := by
  induction records generalizing s with
  | nil => exact ⟨fun _ ↦ ⟨nofun, .nil⟩, fun _ ↦ ⟨s, rfl⟩⟩
  | cons q records ih =>
    rw [List.foldlM_cons, returns_bind_iff, List.pairwise_cons, List.forall_mem_cons]
    have hbound {m : Slots} (hm : place true s q = .ok m) : m.Bound :=
      (place_eq_ok hm).2.bound (hs.withRecords _)
    constructor
    · rintro ⟨m, hm, hrest⟩
      obtain ⟨hadmits, hpairs⟩ := (ih (hbound hm)).mp hrest
      have hboth (r : Record) (hr : r ∈ records) := (admits_place_iff hs hm).mp (hadmits r hr)
      exact ⟨⟨(returns_place_iff hs.unfrozen).mp ⟨m, hm⟩, fun r hr ↦ (hboth r hr).1⟩,
        fun r hr ↦ (hboth r hr).2, hpairs⟩
    · rintro ⟨⟨hq, hadmits⟩, hcompatible, hpairs⟩
      obtain ⟨m, hm⟩ := (returns_place_iff hs.unfrozen).mpr hq
      refine ⟨m, hm, (ih (hbound hm)).mpr ⟨fun r hr ↦ ?_, hpairs⟩⟩
      exact (admits_place_iff hs hm).mpr ⟨hadmits r hr, hcompatible r hr⟩

end Slots

section Allocated

variable {unit : UnitId} {records records' : List Record}

theorem returns_allocate_iff (hroot : records.any Record.namesRoot) :
    Returns (allocate unit records) ↔
      (∀ r ∈ records, (Slots.empty unit).Admits r) ∧ records.Pairwise Record.Compatible := by
  rw [← Slots.returns_foldlM_iff (Slots.bound_empty unit), allocate, hroot, returns_bind_iff]
  constructor
  · rintro ⟨s, hs, -⟩
    exact ⟨s, hs⟩
  · rintro ⟨s, hs⟩
    refine ⟨s, hs, ?_⟩
    obtain ⟨hsound, hrecords, -⟩ := Slots.sound_foldlM (Slots.sound_empty true unit) hs
    cases hr : s.root? with
    | some root => exact ⟨⟨s, root⟩, rfl⟩
    | none =>
      -- a record that spells the root would have become the root
      obtain ⟨r, hmem, hr'⟩ := List.any_eq_true.mp hroot
      have hnot := List.find?_eq_none.mp (hsound.rooted.absent hr) r (by rwa [hrecords])
      simp_all [Record.mayBeRoot, Record.namesRoot]

theorem returns_allocate_of_perm (hp : records.Perm records')
    (hroot : records.any Record.namesRoot) (h : Returns (allocate unit records)) :
    Returns (allocate unit records') := by
  rw [returns_allocate_iff hroot] at h
  rw [returns_allocate_iff (hp.any_eq ▸ hroot)]
  exact ⟨fun r hr ↦ h.1 r (hp.mem_iff.mpr hr), hp.pairwise h.2 fun {x y} hxy ↦ symm hxy⟩

theorem eq_of_namesRoot {u : AllocatedUnit} {q r : Record} (h : allocate unit records = .ok u)
    (hq : q ∈ records) (hr : r ∈ records) (hqroot : q.namesRoot) (hrroot : r.namesRoot) : q = r := by
  have hroot : records.any Record.namesRoot := List.any_eq_true.mpr ⟨q, hq, hqroot⟩
  obtain ⟨-, hpairs⟩ := (returns_allocate_iff hroot).mp ⟨u, h⟩
  by_contra hne
  exact (hpairs.forall hq hr hne).root ⟨hqroot, hrroot⟩

end Allocated

end ScopeForest
