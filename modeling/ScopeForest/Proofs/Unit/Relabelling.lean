import ScopeForest.Proofs.Unit.Admission
import ScopeForest.Proofs.Unit.Matching

namespace ScopeForest

open Outcome

namespace Id

variable {k : IdKind} {κ : Type} [DecidableEq κ] {keys keys' : List κ} {i j : Id k} {a b : κ}

def carry (keys keys' : List κ) (i : Id k) : Id k :=
  match i.get? keys with
  | some a => ofIndex (keys'.idxOf a)
  | none => i

theorem get?_carry (hp : keys.Perm keys') (hi : i.get? keys = some a) :
    (i.carry keys keys').get? keys' = some a := by
  rw [carry, hi]
  exact List.getElem?_idxOf (hp.subset (mem_of_get? hi))

theorem carry_eq (hp : keys.Perm keys') (hn : keys'.Nodup) (hi : i.get? keys = some a)
    (hj : j.get? keys' = some a) : i.carry keys keys' = j :=
  eq_of_get? hn (get?_carry hp hi) hj

theorem exists_carry (hp : keys.Perm keys') (hn : keys'.Nodup) (hj : j.get? keys' = some a) :
    ∃ i : Id k, i.get? keys = some a ∧ i.carry keys keys' = j := by
  obtain ⟨i, hi⟩ := exists_get?_of_mem (k := k) (hp.symm.subset (mem_of_get? hj))
  exact ⟨i, hi, carry_eq hp hn hi hj⟩

theorem carry_inj (hp : keys.Perm keys') (hn : keys.Nodup) (hi : i.get? keys = some a)
    (hj : j.get? keys = some b) (h : i.carry keys keys' = j.carry keys keys') : i = j := by
  have hcarried := get?_carry hp hi
  rw [h, get?_carry hp hj] at hcarried
  cases hcarried
  exact eq_of_get? hn hi hj

end Id

namespace Slots

variable {s s' : Slots}

/-- What is for the same thing gets the same id. -/
def relabel (s s' : Slots) : Renaming where
  decl := Id.carry (s.decls.map DeclSlot.plain) (s'.decls.map DeclSlot.plain)
  type := Id.carry (s.types.map s.role) (s'.types.map s'.role)
  file := Id.carry s.files s'.files

/-- The slots hold the same records, which may have come in another order. -/
structure Reorders (s s' : Slots) : Prop where
  sound : s.Sound true
  sound' : s'.Sound true
  stocks : s.Stocks s.records
  stocks' : s'.Stocks s'.records
  records : s.records.Perm s'.records

theorem Backs.isSome_declared {d : DeclId} {slot : DeclSlot} (h : s.Backs d slot) :
    slot.declared.isSome = slot.kind.isTypeDeclaration := by
  cases h with
  | record hr hk hd =>
    split at hd
    next hkind =>
      obtain ⟨t, rfl, -⟩ := hd
      exact hkind.symm
    next hkind =>
      subst hd
      exact (Bool.eq_false_iff.mpr hkind).symm
  | enumerator hr ht hc => rfl

theorem Sound.record?_eq_some_iff {spelled : Bool} (hs : s.Sound spelled) {id : ExternalId}
    {r : Record} : s.record? id = some r ↔ r ∈ s.records ∧ r.id = id := by
  constructor
  · intro h
    exact ⟨List.mem_of_find?_eq_some h, by simpa using List.find?_some h⟩
  · rintro ⟨hr, rfl⟩
    cases hfound : s.record? r.id with
    | none => simpa using List.find?_eq_none.mp hfound r hr
    | some q =>
      have hq := List.mem_of_find?_eq_some hfound
      have hid : q.id = r.id := by simpa using List.find?_some hfound
      rw [List.inj_on_of_nodup_map hs.nodup hq hr hid]

theorem Stocks.nodup_files {records : List Record} (h : s.Stocks records)
    (hs : (records.map (·.id)).Nodup) : (s.files.map (·.1)).Nodup := by
  refine hs.sublist ?_
  rw [h.files]
  clear h hs
  induction records with
  | nil => exact .slnil
  | cons r records ih =>
    rw [List.flatMap_cons, List.map_append, List.map_cons]
    have hone : ((newFiles r).map (·.1)).Sublist [r.id] := by
      unfold newFiles
      split
      next => cases r.attrs.literal? Field.name <;> simp
      next => simp
    exact hone.append ih

namespace Reorders

variable (h : s.Reorders s')

include h

theorem decls_perm : (s.decls.map DeclSlot.plain).Perm (s'.decls.map DeclSlot.plain) := by
  rw [h.stocks.decls, h.stocks'.decls]
  exact h.records.flatMap_right _

theorem types_perm : (s.types.map s.role).Perm (s'.types.map s'.role) := by
  rw [h.stocks.types, h.stocks'.types]
  exact h.records.flatMap_right _

theorem files_perm : s.files.Perm s'.files := by
  rw [h.stocks.files, h.stocks'.files]
  exact h.records.flatMap_right _

theorem decl_eq {d e : DeclId} {slot slot' : DeclSlot} (hd : d.get? s.decls = some slot)
    (he : e.get? s'.decls = some slot') (hplain : slot'.plain = slot.plain) :
    (s.relabel s').decl d = e := by
  have he' := Id.get?_map_of_get? DeclSlot.plain he
  rw [hplain] at he'
  exact Id.carry_eq h.decls_perm h.sound'.bound.nodup_decls (Id.get?_map_of_get? _ hd) he'

theorem type_eq {t v : TypeId} {source source' : TypeSource} (ht : t.get? s.types = some source)
    (hv : v.get? s'.types = some source') (hrole : s'.role source' = s.role source) :
    (s.relabel s').type t = v := by
  have hnodup := h.stocks'.nodup_types h.sound'.nodup
  have hv' := Id.get?_map_of_get? s'.role hv
  rw [hrole] at hv'
  exact Id.carry_eq h.types_perm hnodup (Id.get?_map_of_get? _ ht) hv'

theorem exists_decl {d : DeclId} {slot : DeclSlot} (hd : d.get? s.decls = some slot) :
    ∃ slot', ((s.relabel s').decl d).get? s'.decls = some slot' ∧ slot'.plain = slot.plain := by
  have hcarried := Id.get?_carry h.decls_perm (Id.get?_map_of_get? DeclSlot.plain hd)
  rwa [Id.get?_map, Option.map_eq_some_iff] at hcarried

theorem exists_type {t : TypeId} {source : TypeSource} (ht : t.get? s.types = some source) :
    ∃ source', ((s.relabel s').type t).get? s'.types = some source' ∧
      s'.role source' = s.role source := by
  have hcarried := Id.get?_carry h.types_perm (Id.get?_map_of_get? s.role ht)
  rwa [Id.get?_map, Option.map_eq_some_iff] at hcarried

theorem decl {d : DeclId} {slot : DeclSlot} (hd : d.get? s.decls = some slot) :
    ((s.relabel s').decl d).get? s'.decls = some (slot.rename (s.relabel s')) := by
  obtain ⟨slot', hd', hplain⟩ := h.exists_decl hd
  have hbacks := h.sound.backs hd
  have hbacks' := h.sound'.backs hd'
  have hsome : slot'.declared.isSome = slot.declared.isSome := by
    have hkind : slot'.plain.kind = slot.plain.kind := by rw [hplain]
    rw [hbacks.isSome_declared, hbacks'.isSome_declared]
    exact congrArg _ hkind
  have hdeclared : slot'.declared = slot.declared.map (s.relabel s').type := by
    cases ht : slot.declared with
    | none => simpa [ht] using hsome
    | some t =>
      obtain ⟨t', ht'⟩ := Option.isSome_iff_exists.mp (hsome.trans (ht ▸ rfl))
      -- both types are declared by slots for the same thing
      have heq : (s.relabel s').type t = t' := by
        refine h.type_eq (hbacks.declared ht).2 (hbacks'.declared ht').2 ?_
        rw [role, role, hd, hd', Option.map_some, hplain]
        rfl
      rw [ht', Option.map_some, heq]
  rw [hd', DeclSlot.rename, ← hdeclared]
  have hslot : { slot.plain with declared := slot'.declared } = slot' := by rw [← hplain]; rfl
  exact congrArg some hslot.symm

theorem type {t : TypeId} {source : TypeSource} (ht : t.get? s.types = some source) :
    ((s.relabel s').type t).get? s'.types = some (source.rename (s.relabel s')) := by
  obtain ⟨source', ht', hrole⟩ := h.exists_type ht
  have hbacks := h.sound.backsType ht
  have hbacks' := h.sound'.backsType ht'
  rw [ht']
  cases hbacks with
  | record hr hk hq =>
    cases hbacks' with
    | record => cases hrole; rfl
    | _ => cases hrole
  | volatileHalf hr hq =>
    cases hbacks' with
    | volatileHalf => cases hrole; rfl
    | _ => cases hrole
  | constHalf hr hq hi =>
    cases hbacks' with
    | constHalf hr' hq' hi' =>
      cases hrole
      rw [TypeSource.rename, h.type_eq hi hi' rfl]
    | _ => cases hrole
  | declared hd hdeclared =>
    cases hbacks' with
    | declared hd' hdeclared' =>
      rw [role, role, hd, hd'] at hrole
      have hplain := Option.some_inj.mp (TypeRole.declared.inj hrole)
      rw [TypeSource.rename, h.decl_eq hd hd' hplain]
    | _ => cases hrole

theorem file {id : ExternalId} {i : Nat} (hi : s.files.findIdx? (·.1 == id) = some i) :
    ∃ j, s'.files.findIdx? (·.1 == id) = some j ∧
      (s.relabel s').file (Id.ofIndex i) = Id.ofIndex j := by
  obtain ⟨hlt, hid, -⟩ := List.findIdx?_eq_some_iff_getElem.mp hi
  have hget : (Id.ofIndex i : FileId).get? s.files = some s.files[i] := List.getElem?_eq_getElem hlt
  have hmem : s.files[i] ∈ s'.files := h.files_perm.subset (Id.mem_of_get? hget)
  cases hj : s'.files.findIdx? (·.1 == id) with
  | none =>
    have hnot := List.findIdx?_eq_none_iff.mp hj _ hmem
    rw [hid] at hnot
    cases hnot
  | some j =>
    obtain ⟨hlt', hid', -⟩ := List.findIdx?_eq_some_iff_getElem.mp hj
    have hget' : (Id.ofIndex j : FileId).get? s'.files = some s'.files[j] :=
      List.getElem?_eq_getElem hlt'
    -- no two files have one id
    have hnodup := h.stocks'.nodup_files h.sound'.nodup
    have hsame : s'.files[j] = s.files[i] := by
      refine List.inj_on_of_nodup_map hnodup (Id.mem_of_get? hget') hmem ?_
      rw [beq_iff_eq.mp hid, beq_iff_eq.mp hid']
    rw [hsame] at hget'
    exact ⟨j, rfl, Id.carry_eq h.files_perm hnodup.of_map hget hget'⟩

omit h in
theorem symm (h : s.Reorders s') : s'.Reorders s :=
  ⟨h.sound', h.sound, h.stocks', h.stocks, h.records.symm⟩

theorem node_of_get? {id : ExternalId} {node : Node} (hid : s.registry.get? id = some node) :
    s'.registry.get? id = some ((s.relabel s').node node) := by
  cases node with
  | decl d =>
    obtain ⟨slot, hd, rfl⟩ := h.sound.bound.decl.mp hid
    exact h.sound'.bound.decl.mpr ⟨_, h.decl hd, rfl⟩
  | type t =>
    obtain ⟨source, ht, hbound⟩ := h.sound.bound.type.mp hid
    refine h.sound'.bound.type.mpr ⟨_, h.type ht, ?_⟩
    cases source <;> exact hbound

theorem slots_matches : s.Matches (s.relabel s') s' where
  record id := by
    refine Option.ext fun r ↦ ?_
    rw [h.sound'.record?_eq_some_iff, h.sound.record?_eq_some_iff, h.records.mem_iff]
  node id := by
    cases hid : s.registry.get? id with
    | some node => exact h.node_of_get? hid
    | none =>
      cases hid' : s'.registry.get? id with
      | none => rfl
      | some node =>
        rw [h.symm.node_of_get? hid'] at hid
        cases hid
  decl := h.decl
  file := h.file

end Reorders

end Slots

namespace AllocatedUnit

variable {unit : UnitId} {records records' : List Record} {a a' : AllocatedUnit}

theorem reorders_of_perm (hp : records.Perm records') (hroot : records.any Record.namesRoot)
    (ha : allocate unit records = .ok a) (ha' : allocate unit records' = .ok a') :
    a.slots.Reorders a'.slots := by
  have hsound := allocate_eq_ok ha
  have hsound' := allocate_eq_ok ha'
  have hslots := hsound.slots
  have hslots' := hsound'.slots
  rw [hroot] at hslots
  rw [← hp.any_eq, hroot] at hslots'
  refine ⟨hslots, hslots', ?_, ?_, ?_⟩
  · rw [hsound.records]
    exact Slots.stocks_of_allocate ha
  · rw [hsound'.records]
    exact Slots.stocks_of_allocate ha'
  · rwa [hsound.records, hsound'.records]

theorem relabel_root (hp : records.Perm records') (hroot : records.any Record.namesRoot)
    (ha : allocate unit records = .ok a) (ha' : allocate unit records' = .ok a') :
    (a.slots.relabel a'.slots).decl a.root = a'.root := by
  obtain ⟨r, hr, hfound⟩ := (allocate_eq_ok ha).rootSlot
  obtain ⟨r', hr', hfound'⟩ := (allocate_eq_ok ha').rootSlot
  rw [rootRecord?, hroot] at hfound
  rw [rootRecord?, ← hp.any_eq, hroot] at hfound'
  have hspells {q : Record} (hq : q.mayBeRoot true) : q.namesRoot := (Bool.and_eq_true_iff.mp hq).2
  have heq : r = r' := eq_of_namesRoot ha (List.mem_of_find?_eq_some hfound)
    (hp.mem_iff.mpr (List.mem_of_find?_eq_some hfound')) (hspells (List.find?_some hfound))
    (hspells (List.find?_some hfound'))
  subst heq
  exact (reorders_of_perm hp hroot ha ha').decl_eq hr hr' rfl

/-- Under the renaming, the slots of one unit are those of the other. -/
structure Relabels (r : Renaming) (a a' : AllocatedUnit) : Prop extends a.Matches r a' where
  unit : a'.slots.unit = a.slots.unit
  type : ∀ {t : TypeId} {source : TypeSource}, t.get? a.slots.types = some source →
    (r.type t).get? a'.slots.types = some (source.rename r)
  filed : ∀ {i : FileId} {entry : ExternalId × String}, i.get? a.slots.files = some entry →
    (r.file i).get? a'.slots.files = some entry
  decl_inj : ∀ {d e : DeclId} {slot other : DeclSlot}, d.get? a.slots.decls = some slot →
    e.get? a.slots.decls = some other → r.decl d = r.decl e → d = e
  type_inj : ∀ {t v : TypeId} {source other : TypeSource}, t.get? a.slots.types = some source →
    v.get? a.slots.types = some other → r.type t = r.type v → t = v
  exists_decl : ∀ {e : DeclId} {slot : DeclSlot}, e.get? a'.slots.decls = some slot →
    ∃ d other, d.get? a.slots.decls = some other ∧ r.decl d = e
  exists_type : ∀ {v : TypeId} {source : TypeSource}, v.get? a'.slots.types = some source →
    ∃ t other, t.get? a.slots.types = some other ∧ r.type t = v
  records : a.slots.records.Perm a'.slots.records
  types : a'.slots.types.length = a.slots.types.length

theorem relabels_of_perm (hp : records.Perm records') (hroot : records.any Record.namesRoot)
    (ha : allocate unit records = .ok a) (ha' : allocate unit records' = .ok a') :
    a.Relabels (a.slots.relabel a'.slots) a' := by
  have hslots := reorders_of_perm hp hroot ha ha'
  have hnodup := hslots.sound.bound.nodup_decls
  have hnodup' := hslots.sound'.bound.nodup_decls
  have hrelabel := relabel_root hp hroot ha ha'
  have hplain {s : Slots} {d : DeclId} {slot : DeclSlot} (hd : d.get? s.decls = some slot) :
      d.get? (s.decls.map DeclSlot.plain) = some slot.plain := Id.get?_map_of_get? _ hd
  have hrole {s : Slots} {t : TypeId} {source : TypeSource} (ht : t.get? s.types = some source) :
      t.get? (s.types.map s.role) = some (s.role source) := Id.get?_map_of_get? _ ht
  constructor
  case toMatches =>
    refine ⟨hslots.slots_matches, ?_, hrelabel.symm, fun {d slot} hd he ↦ ?_⟩
    · simpa using hslots.decls_perm.length_eq.symm
    · obtain ⟨r, hr, -⟩ := (allocate_eq_ok ha).rootSlot
      exact Id.carry_inj hslots.decls_perm hnodup (hplain hd) (hplain hr) (he.trans hrelabel.symm)
  case unit => rw [(allocate_eq_ok ha).unit, (allocate_eq_ok ha').unit]
  case type => exact hslots.type
  case filed => exact Id.get?_carry hslots.files_perm
  case decl_inj =>
    intro d e slot other hd he heq
    exact Id.carry_inj hslots.decls_perm hnodup (hplain hd) (hplain he) heq
  case type_inj =>
    intro t v source other ht hv heq
    exact Id.carry_inj hslots.types_perm (hslots.stocks.nodup_types hslots.sound.nodup) (hrole ht)
      (hrole hv) heq
  case exists_decl =>
    intro e slot he
    obtain ⟨d, hd, heq⟩ := Id.exists_carry hslots.decls_perm hnodup' (hplain he)
    rw [Id.get?_map, Option.map_eq_some_iff] at hd
    obtain ⟨other, hd, -⟩ := hd
    exact ⟨d, other, hd, heq⟩
  case exists_type =>
    intro v source hv
    obtain ⟨t, ht, heq⟩ := Id.exists_carry hslots.types_perm
      (hslots.stocks'.nodup_types hslots.sound'.nodup) (hrole hv)
    rw [Id.get?_map, Option.map_eq_some_iff] at ht
    obtain ⟨other, ht, -⟩ := ht
    exact ⟨t, other, ht, heq⟩
  case records => exact hslots.records
  case types => simpa using hslots.types_perm.length_eq.symm

end AllocatedUnit

end ScopeForest
