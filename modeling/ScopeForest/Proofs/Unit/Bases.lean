import ScopeForest.Proofs.Unit.Building

namespace ScopeForest

theorem exists_count_of_map {α β : Type} [BEq α] [LawfulBEq α] [BEq β] [LawfulBEq β] {xs : List α}
    {g : α → β} (hinj : ∀ a ∈ xs, ∀ b ∈ xs, g a = g b → a = b) {b : β} {n : Nat}
    (h : n < (xs.map g).count b) : ∃ a ∈ xs, g a = b ∧ n < xs.count a := by
  have hmem : b ∈ xs.map g := List.count_pos_iff.mp (Nat.zero_lt_of_lt h)
  obtain ⟨a, ha, rfl⟩ := List.mem_map.mp hmem
  refine ⟨a, ha, rfl, Nat.lt_of_lt_of_le h ?_⟩
  rw [List.count, List.countP_map]
  refine List.countP_mono_left fun c hc heq ↦ ?_
  have heq : g c = g a := by simpa using heq
  simpa using hinj c hc a ha heq

def Record.baseIds (r : Record) : List ExternalId :=
  (r.childrenOf .base).filterMap (·.attrs.ref? Field.type)

namespace Declaration

def baseClasses (x : Declaration) : List DeclId := x.bases.map (·.cls)

theorem exists_class_of_base {x : Declaration} {d : DeclId} (h : d ∈ x.baseClasses) :
    ∃ c, x.details = .cls c ∧ x.bases = c.bases := by
  rcases x with ⟨_, _, _, _, _, _, _, _, _, details⟩
  cases details with
  | cls c => exact ⟨c, rfl, rfl⟩
  | _ => cases h

@[simp] theorem baseClasses_withMembers (x : Declaration) (members : List DeclId) :
    (x.withMembers members).baseClasses = x.baseClasses := by
  rcases x with ⟨_, _, _, _, _, _, _, _, _, details⟩
  cases details <;> rfl

end Declaration

namespace AllocatedUnit

variable {a : AllocatedUnit} {settings : BuilderSettings} {unit : UnitId} {records : List Record}
  {r : Record} {d : DeclId} {x : Declaration}

theorem baseOf_eq_ok {key : ClassKey} {child : ChildRecord} {b : BaseSpec}
    (h : a.baseOf r key child = .ok b) :
    ∃ id, child.attrs.ref? Field.type = some id ∧ a.slots.NamesDecl id b.cls := by
  obtain ⟨id, hid, h⟩ := Outcome.bind_eq_ok h
  obtain ⟨access, -, h⟩ := Outcome.bind_eq_ok h
  obtain ⟨cls, hcls, h⟩ := Outcome.bind_eq_ok h
  cases h
  exact ⟨id, Slots.childType_eq_ok hid, (Slots.classRef_eq_ok hcls).1⟩

theorem bases_eq_ok {key : ClassKey} {children : List ChildRecord} {bases : List BaseSpec}
    (h : children.mapM (a.baseOf r key) = .ok bases) :
    (children.filterMap (·.attrs.ref? Field.type)).map a.slots.registry.get? =
      bases.map fun b ↦ some (.decl b.cls) := by
  have hall := Outcome.mapM_eq_ok h
  clear h
  induction hall with
  | nil => rfl
  | cons hb _ ih =>
    obtain ⟨id, hid, hnames⟩ := baseOf_eq_ok hb
    rw [Slots.NamesDecl] at hnames
    simp [hid, hnames, ih]

theorem classDetails_of_details {kind : DeclKind} {c : ClassDetails}
    (h : a.details r kind = .ok (.cls c)) : ∃ key, a.classDetails r key = .ok c := by
  cases kind with
  | classDecl | unionDecl =>
    obtain ⟨k, hk, heq⟩ := Outcome.map_eq_ok h
    cases heq
    exact ⟨_, hk⟩
  | namespaceDecl | enumDecl | enumerator => cases h
  | _ =>
    obtain ⟨k, -, heq⟩ := Outcome.map_eq_ok h
    cases heq

theorem bases_of_declOf (ha : a.Sound unit records) {slot : DeclSlot}
    (hd : d.get? a.slots.decls = some slot) (h : a.declOf settings d slot = .ok x)
    {c : ClassDetails} (hc : x.details = .cls c) : ∃ r ∈ records, r.id = x.externalId ∧
      r.baseIds.map a.slots.registry.get? = c.bases.map fun b ↦ some (.decl b.cls) := by
  have hbacks := ha.slots.backs hd
  unfold declOf at h
  split at h
  next r hsource =>
    rcases slot with ⟨source, kind, externalId, declared⟩
    cases hsource
    cases hbacks with
    | record hr hk hdeclared =>
      obtain ⟨parent, -, h⟩ := Outcome.bind_eq_ok h
      obtain ⟨access, -, h⟩ := Outcome.bind_eq_ok h
      obtain ⟨location, -, h⟩ := Outcome.bind_eq_ok h
      obtain ⟨details, hdetails, h⟩ := Outcome.bind_eq_ok h
      cases h
      cases hc
      obtain ⟨key, hkey⟩ := classDetails_of_details hdetails
      obtain ⟨size, -, hkey⟩ := Outcome.bind_eq_ok hkey
      obtain ⟨instantiates, -, hkey⟩ := Outcome.bind_eq_ok hkey
      obtain ⟨bases, hbases, hkey⟩ := Outcome.bind_eq_ok hkey
      cases hkey
      exact ⟨r, ha.records ▸ hr, rfl, bases_eq_ok hbases⟩
  next owner child hsource =>
    obtain ⟨_, -, h⟩ := Outcome.bind_eq_ok h
    obtain ⟨_, -, h⟩ := Outcome.bind_eq_ok h
    cases h
    cases hc

end AllocatedUnit

section Built

variable {settings : BuilderSettings} {unit : UnitId} {records : List Record} {u : ResolvedUnit}
  {d l : DeclId} {x y : Declaration}

theorem externalId_of_buildUnit (h : buildUnit settings unit records = .ok u)
    (hx : d.get? u.store.decls = some x) {id : ExternalId} (hid : u.registry.NamesDecl id d) :
    x.externalId = id := by
  obtain ⟨a, decls, ha, hresolves⟩ := buildUnit_eq_ok_iff.mp h
  have hsound := allocate_eq_ok ha
  rw [hresolves.linked, get?_linkChildren] at hx
  obtain ⟨y, hy, rfl⟩ := Option.map_eq_some_iff.mp hx
  obtain ⟨slot, hslot, hdeclares⟩ :=
    AllocatedUnit.declares_of_get? hsound a.slots.heldBy_anything hresolves.declared hy
  rw [Registry.NamesDecl, hresolves.registry] at hid
  exact hdeclares.externalId.trans (hsound.slots.namesDecl_slot hid hslot)

/-- A class of a unit repeats a base only if its record does. -/
theorem repeated_of_buildUnit (h : buildUnit settings unit records = .ok u)
    (hx : d.get? u.store.decls = some x) (hl : 1 < x.baseClasses.count l) :
    ∃ r ∈ records, r.id = x.externalId ∧
      ∃ id, u.registry.NamesDecl id l ∧ 1 < r.baseIds.count id := by
  obtain ⟨a, decls, ha, hresolves⟩ := buildUnit_eq_ok_iff.mp h
  rw [hresolves.linked, get?_linkChildren] at hx
  obtain ⟨y, hy, rfl⟩ := Option.map_eq_some_iff.mp hx
  rw [Declaration.baseClasses_withMembers] at hl
  obtain ⟨slot, hslot, hok⟩ := AllocatedUnit.get?_slots hresolves.declared hy
  obtain ⟨c, hc, hbases⟩ :=
    Declaration.exists_class_of_base (List.count_pos_iff.mp (Nat.zero_lt_of_lt hl))
  obtain ⟨r, hr, hrid, hids⟩ := AllocatedUnit.bases_of_declOf (allocate_eq_ok ha) hslot hok hc
  rw [← hresolves.registry, ← hbases] at hids
  -- a declaration has just one id, so that equal bases have equal ids
  have hinj : ∀ i ∈ r.baseIds, ∀ j ∈ r.baseIds, u.registry.get? i = u.registry.get? j → i = j := by
    intro i hi j _ hij
    have hmem : u.registry.get? i ∈ r.baseIds.map u.registry.get? := List.mem_map_of_mem hi
    rw [hids] at hmem
    obtain ⟨b, -, hb⟩ := List.mem_map.mp hmem
    obtain ⟨z, hz⟩ := (buildUnit_eq_ok h).1.bound hb.symm
    exact (externalId_of_buildUnit h hz hb.symm).symm.trans
      (externalId_of_buildUnit h hz (hij.symm.trans hb.symm))
  have hcount : 1 < (r.baseIds.map u.registry.get?).count (some (.decl l)) := by
    have hnode : Function.Injective fun d ↦ some (Node.decl d) := fun d e heq ↦ by simpa using heq
    rw [hids]
    rwa [← List.count_map_of_injective _ _ hnode, Declaration.baseClasses, List.map_map] at hl
  obtain ⟨id, -, hid, hrepeated⟩ := exists_count_of_map hinj hcount
  exact ⟨r, hr, hrid, id, hid, hrepeated⟩

end Built

end ScopeForest
