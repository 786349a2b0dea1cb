import ScopeForest.Proofs.Types.Cycles
import ScopeForest.Proofs.Unit.Resolution

namespace ScopeForest

def Record.isUnnamedScope (r : Record) : Bool :=
  r.tag.declKind?.any (·.isScope) && (r.attrs.literal? Field.name).getD "" == ""

namespace AllocatedUnit

variable {a : AllocatedUnit} {settings : BuilderSettings} {unit : UnitId} {records : List Record}
  {decls : List Declaration} {u : ResolvedUnit} {d : DeclId} {x : Declaration}

/-- What the second pass checks and computes; `decls` are the declarations without members. -/
structure Resolves (a : AllocatedUnit) (settings : BuilderSettings) (decls : List Declaration)
    (u : ResolvedUnit) : Prop where
  references : a.slots.checkReferences = .ok ()
  types : a.slots.types.mapM a.slots.typeOf = .ok u.store.types
  declared : a.declarations settings = .ok decls
  linked : u.store.decls = linkChildren decls
  reachable : a.slots.checkReachable u.store.decls = .ok ()
  acyclic : a.slots.checkAcyclic u.store = .ok ()
  keys : (Id.all u.store.decls).mapM u.store.signatureKey = .ok u.signatureKeys
  unit : u.unit = a.slots.unit
  root : u.root = a.root
  registry : u.registry = a.slots.registry
  files : u.files = a.slots.files.map (·.2)

theorem resolve_eq_ok_iff (ha : a.Sound unit records) :
    a.resolve settings = .ok u ↔ ∃ decls, a.Resolves settings decls u := by
  constructor
  · intro h
    obtain ⟨_, hreferences, h⟩ := Outcome.bind_eq_ok h
    obtain ⟨types, htypes, h⟩ := Outcome.bind_eq_ok h
    obtain ⟨decls, hdecls, h⟩ := Outcome.bind_eq_ok h
    obtain ⟨linked, hlinked, h⟩ := Outcome.bind_eq_ok h
    rw [linkMembers_declarations ha hdecls] at hlinked
    cases hlinked
    obtain ⟨_, hreachable, h⟩ := Outcome.bind_eq_ok h
    obtain ⟨_, hacyclic, h⟩ := Outcome.bind_eq_ok h
    obtain ⟨keys, hkeys, h⟩ := Outcome.bind_eq_ok h
    cases h
    exact ⟨decls, hreferences, htypes, hdecls, rfl, hreachable, hacyclic, hkeys, rfl, rfl, rfl, rfl⟩
  · rintro ⟨decls, h⟩
    rcases u with ⟨unit, ⟨linked, types⟩, root, registry, files, keys⟩
    obtain ⟨hreferences, htypes, hdecls, hlinked, hreachable, hacyclic, hkeys, hunit, hroot,
      hregistry, hfiles⟩ := h
    simp only at htypes hlinked hreachable hacyclic hkeys hunit hroot hregistry hfiles
    subst hlinked hunit hroot hregistry hfiles
    simp only [resolve, hreferences, htypes, hdecls, linkMembers_declarations ha hdecls, hreachable,
      hacyclic, hkeys, bind, Except.bind]
    rfl

theorem Resolves.get?_signatureKeys (h : a.Resolves settings decls u)
    (hd : d.get? u.store.decls = some x) :
    ∃ key, d.get? u.signatureKeys = some key ∧ u.store.signatureKey d = .ok key := by
  obtain ⟨n, rfl, hn⟩ := Id.get?_eq_some_iff.mp hd
  have hall : (Id.all u.store.decls : List DeclId)[n]? = some (Id.ofIndex n) := by
    have hlt := (List.getElem?_eq_some_iff.mp hn).1
    simp [Id.all, hlt]
  exact getElem?_right (Outcome.mapM_eq_ok h.keys) hall

theorem anonymous_of_declOf (ha : a.Sound unit records) {slot : DeclSlot}
    (hd : d.get? a.slots.decls = some slot) (h : a.declOf settings d slot = .ok x) {name : String}
    (hname : x.anonymous = some name) : ∃ r ∈ records, r.isUnnamedScope = true ∧
      rootRecord? records ≠ some r ∧
        name = settings.anonymousPrefix ++ toString unit.val ++ "_" ++ r.id := by
  have hbacks := ha.slots.backs hd
  unfold declOf at h
  split at h
  next r hsource =>
    rcases slot with ⟨source, kind, externalId, declared⟩
    cases hsource
    cases hbacks with
    | record hr hk hdeclared =>
      obtain ⟨parent, -, h⟩ := Outcome.bind_eq_ok h
      obtain ⟨access, -, h⟩ := Outcome.bind_eq_ok h
      obtain ⟨location, -, h⟩ := Outcome.bind_eq_ok h
      obtain ⟨details, -, h⟩ := Outcome.bind_eq_ok h
      cases h
      rw [ha.records] at hr
      simp only [Option.ite_none_right_eq_some, Bool.and_eq_true, Bool.not_eq_true',
        beq_eq_false_iff_ne, beq_iff_eq, Option.some_inj] at hname
      obtain ⟨⟨⟨hroot, hempty⟩, hscope⟩, hname⟩ := hname
      refine ⟨r, hr, ?_, fun hrecord ↦ hroot ?_, ?_⟩
      · rw [if_neg (by simpa using hroot)] at hempty
        simp [Record.isUnnamedScope, hk, hscope, hempty]
      · -- the slot of the root comes from the same record
        obtain ⟨r', hslot, hrecord'⟩ := ha.rootSlot
        rw [hrecord] at hrecord'
        cases hrecord'
        have hd' := ha.slots.bound.decl.mpr ⟨_, hd, rfl⟩
        have hroot' := ha.slots.bound.decl.mpr ⟨_, hslot, rfl⟩
        rw [hd'] at hroot'
        cases hroot'
        rfl
      · rw [← hname, anonymousName, ha.unit]
  next owner child hsource =>
    obtain ⟨_, -, h⟩ := Outcome.bind_eq_ok h
    obtain ⟨_, -, h⟩ := Outcome.bind_eq_ok h
    cases h
    cases hname

theorem root_of_declOf (ha : a.Sound unit records) {slot : DeclSlot}
    (hd : a.root.get? a.slots.decls = some slot) (h : a.declOf settings a.root slot = .ok x) :
    x.name = "::" ∧ x.anonymous = none := by
  obtain ⟨r, hslot, -⟩ := ha.rootSlot
  rw [hslot] at hd
  cases hd
  obtain ⟨parent, -, h⟩ := Outcome.bind_eq_ok h
  obtain ⟨access, -, h⟩ := Outcome.bind_eq_ok h
  obtain ⟨location, -, h⟩ := Outcome.bind_eq_ok h
  obtain ⟨details, -, h⟩ := Outcome.bind_eq_ok h
  cases h
  simp

end AllocatedUnit

section Built

variable {settings : BuilderSettings} {unit : UnitId} {records : List Record} {u : ResolvedUnit}
  {d : DeclId} {x : Declaration}

theorem buildUnit_eq_ok_iff : buildUnit settings unit records = .ok u ↔
    ∃ a decls, allocate unit records = .ok a ∧ a.Resolves settings decls u := by
  constructor
  · intro h
    obtain ⟨a, ha, h⟩ := Outcome.bind_eq_ok h
    have ha := Outcome.ofExcept_eq_ok ha
    obtain ⟨decls, h⟩ := (AllocatedUnit.resolve_eq_ok_iff (allocate_eq_ok ha)).mp h
    exact ⟨a, decls, ha, h⟩
  · rintro ⟨a, decls, ha, h⟩
    unfold buildUnit
    rw [ha]
    exact (AllocatedUnit.resolve_eq_ok_iff (allocate_eq_ok ha)).mpr ⟨decls, h⟩

theorem get?_signatureKeys (h : buildUnit settings unit records = .ok u)
    (hd : d.get? u.store.decls = some x) :
    ∃ key, d.get? u.signatureKeys = some key ∧ u.store.signatureKey d = .ok key := by
  obtain ⟨a, decls, -, hresolves⟩ := buildUnit_eq_ok_iff.mp h
  exact hresolves.get?_signatureKeys hd

theorem anonymous_of_buildUnit (h : buildUnit settings unit records = .ok u)
    (hx : x ∈ u.store.decls) {name : String} (hname : x.anonymous = some name) :
    ∃ r ∈ records, r.isUnnamedScope = true ∧ rootRecord? records ≠ some r ∧
      name = settings.anonymousPrefix ++ toString unit.val ++ "_" ++ r.id := by
  obtain ⟨a, decls, ha, hresolves⟩ := buildUnit_eq_ok_iff.mp h
  rw [hresolves.linked] at hx
  obtain ⟨y, hy, rfl⟩ := List.mem_map.mp hx
  obtain ⟨d, hd⟩ := Id.exists_get?_of_mem (k := .decl) hy
  obtain ⟨slot, hslot, hok⟩ := AllocatedUnit.get?_slots hresolves.declared hd
  exact AllocatedUnit.anonymous_of_declOf (allocate_eq_ok ha) hslot hok hname

theorem root_of_buildUnit (h : buildUnit settings unit records = .ok u)
    (hx : u.root.get? u.store.decls = some x) : x.name = "::" ∧ x.anonymous = none := by
  obtain ⟨a, decls, ha, hresolves⟩ := buildUnit_eq_ok_iff.mp h
  rw [hresolves.root, hresolves.linked, get?_linkChildren] at hx
  obtain ⟨y, hy, rfl⟩ := Option.map_eq_some_iff.mp hx
  obtain ⟨slot, hslot, hok⟩ := AllocatedUnit.get?_slots hresolves.declared hy
  exact AllocatedUnit.root_of_declOf (x := y) (allocate_eq_ok ha) hslot hok

theorem ResolvedUnit.Sound.closed (hu : u.Sound) : u.store.Closed where
  child ht hv := (hu.typeRefers ht).children _ hv
  owner ht hd := by
    obtain ⟨kind, ⟨x, hx, -⟩, -⟩ := (hu.typeRefers ht).owner _ hd
    exact ⟨x, hx⟩
  type hd ht := (hu.refers hd).types _ ht
  base hd hb := by
    obtain ⟨kind, ⟨y, hy, -⟩, -⟩ := (hu.refers hd).bases _ hb
    exact ⟨y, hy⟩
  parent hx hp := by
    obtain ⟨y, hy, -⟩ := hu.tree.parent hx hp
    exact ⟨y, hy⟩
  nested := Store.exists_ranks_of_climb hu.climbs

theorem checkAcyclic_eq_ok_iff {s : Slots} {store : Store} :
    s.checkAcyclic store = .ok () ↔ store.findCycle = .ok none := by
  constructor
  · intro h
    obtain ⟨found, hfound, h⟩ := Outcome.bind_eq_ok h
    cases found with
    | none => exact hfound
    | some cycle => cases h
  · intro h
    rw [Slots.checkAcyclic, h]
    rfl

theorem acyclic_of_buildUnit (h : buildUnit settings unit records = .ok u) : u.store.Acyclic := by
  obtain ⟨a, decls, -, hresolves⟩ := buildUnit_eq_ok_iff.mp h
  exact Store.acyclic_of_findCycle (checkAcyclic_eq_ok_iff.mp hresolves.acyclic)

end Built

end ScopeForest
