import ScopeForest.Proofs.Unit.Building
import ScopeForest.Proofs.Unit.Relabelling

namespace ScopeForest

open Outcome

theorem Renaming.declaration_withMembers (r : Renaming) (d : DeclId) (x : Declaration)
    (members members' : List DeclId) :
    ((r.declaration d x).withMembers members).withMembers [] =
      r.declaration d (x.withMembers members') := by
  rcases x with ⟨_, _, _, _, _, _, _, _, _, details⟩
  cases details <;> rfl

namespace Store

variable {r : Renaming} {s s' : Store}

theorem Embeds.expands (h : s.Embeds r s') {t u : TypeId} (htu : s.Expands t u) :
    s'.Expands (r.type t) (r.type u) := by
  cases htu with
  | child ht hu =>
    apply Expands.child (h.type ht)
    rw [Renaming.ty, Ty.children_rename]
    exact List.mem_map_of_mem hu
  | named ht hd hu =>
    obtain ⟨y, hy, hxy⟩ := h.decl hd
    apply Expands.named (h.type ht) hy
    rw [hxy.expansion, hu]
    rfl

theorem Embeds.acyclic (h : s.Embeds r s') (hs : s'.Acyclic) : s.Acyclic :=
  fun t ht ↦ hs (r.type t) (ht.lift r.type fun _ _ ↦ h.expands)

theorem Embeds.climb (h : s.Embeds r s') {fuel : Nat} {p : Option DeclId} {q : DeclId}
    (hq : climb s.decls fuel p = some q) :
    climb s'.decls fuel (p.map r.decl) = some (r.decl q) := by
  induction fuel generalizing p with
  | zero =>
    cases p with
    | none => cases hq
    | some d =>
      cases hq
      rfl
  | succ fuel ih =>
    cases p with
    | none => cases hq
    | some d =>
      rw [ScopeForest.climb] at hq
      cases hd : d.get? s.decls with
      | none =>
        rw [hd] at hq
        cases fuel <;> cases hq
      | some x =>
        obtain ⟨y, hy, hxy⟩ := h.decl hd
        rw [hd] at hq
        rw [Option.map_some, ScopeForest.climb, hy, Option.bind_some, hxy.parent]
        exact ih hq

theorem Scoped.nodup_members {root : Option DeclId} (hs : s.Scoped root) {d : DeclId}
    {x : Declaration} (hd : d.get? s.decls = some x) : x.members.Nodup := by
  refine (hs.ordered hd).imp fun hlt heq ↦ ?_
  rw [heq] at hlt
  omega

theorem Embeds.members_perm (h : s.Embeds r s') {root root' : Option DeclId} (hs : s.Scoped root)
    (hs' : s'.Scoped root')
    (honto : ∀ {e : DeclId}, s'.HoldsDecl e → ∃ d, s.HoldsDecl d ∧ r.decl d = e) {d : DeclId}
    {x y : Declaration} (hx : d.get? s.decls = some x) (hy : (r.decl d).get? s'.decls = some y) :
    y.members.Perm (x.members.map r.decl) := by
  have hnodup : (x.members.map r.decl).Nodup := by
    apply List.Nodup.map_on _ (hs.nodup_members hx)
    intro m hm n hn heq
    obtain ⟨z, hz, -⟩ := hs.member hx hm
    obtain ⟨w, hw, -⟩ := hs.member hx hn
    exact h.injective ⟨z, hz⟩ ⟨w, hw⟩ heq
  rw [List.perm_ext_iff_of_nodup (hs'.nodup_members hy) hnodup]
  intro m
  rw [List.mem_map]
  constructor
  · intro hm
    obtain ⟨z', hz', hp'⟩ := hs'.member hy hm
    obtain ⟨n, ⟨z, hz⟩, rfl⟩ := honto ⟨z', hz'⟩
    obtain ⟨w, hw, hzw⟩ := h.decl hz
    rw [hz'] at hw
    cases hw
    rw [hzw.parent] at hp'
    obtain ⟨p, hp, heq⟩ := Option.map_eq_some_iff.mp hp'
    obtain ⟨scope, hscope, -, hmem⟩ := hs.parent hz hp
    have hpd : p = d := h.injective ⟨scope, hscope⟩ ⟨x, hx⟩ heq
    subst hpd
    rw [hx] at hscope
    cases hscope
    exact ⟨n, hmem, rfl⟩
  · rintro ⟨n, hn, rfl⟩
    obtain ⟨z, hz, hp⟩ := hs.member hx hn
    obtain ⟨w, hw, hzw⟩ := h.decl hz
    have hp' : w.parent = some (r.decl d) := by
      rw [hzw.parent, hp]
      rfl
    obtain ⟨scope, hscope, -, hmem⟩ := hs'.parent hw hp'
    rw [hy] at hscope
    cases hscope
    exact hmem

end Store

/-- The unit `v` is the unit `u` under the ids that `r` gives. -/
structure ResolvedUnit.Renamed (r : Renaming) (u v : ResolvedUnit) : Prop where
  unit : v.unit = u.unit
  root : v.root = r.decl u.root
  node : ∀ id, v.registry.get? id = (u.registry.get? id).map r.node
  /-- The declaration is the same but for the ids, and has the same members in some order. -/
  decl : ∀ {d : DeclId} {x : Declaration}, d.get? u.store.decls = some x →
    ∃ y, (r.decl d).get? v.store.decls = some y ∧
      y.withMembers [] = r.declaration (r.decl d) x ∧ y.members.Perm (x.members.map r.decl)
  type : ∀ {t : TypeId} {node : Ty}, t.get? u.store.types = some node →
    (r.type t).get? v.store.types = some (r.ty node)
  file : ∀ {i : FileId} {path : String}, i.get? u.files = some path →
    (r.file i).get? v.files = some path
  key : ∀ {d : DeclId} {x : Declaration}, d.get? u.store.decls = some x →
    (r.decl d).get? v.signatureKeys = d.get? u.signatureKeys
  decl_inj : ∀ {d e : DeclId}, u.store.HoldsDecl d → u.store.HoldsDecl e →
    r.decl d = r.decl e → d = e
  type_inj : ∀ {t t' : TypeId}, u.store.HoldsType t → u.store.HoldsType t' →
    r.type t = r.type t' → t = t'
  decls : v.store.decls.length = u.store.decls.length
  types : v.store.types.length = u.store.types.length

namespace AllocatedUnit

section Linked

variable {a : AllocatedUnit} {settings : BuilderSettings} {decls : List Declaration}

theorem length_linked (h : a.declarations settings = .ok decls) :
    (linkChildren decls).length = a.slots.decls.length := by
  have hlength := (mapM_eq_ok h).length_eq
  simpa [linkChildren] using hlength.symm

theorem held_linked_iff (h : a.declarations settings = .ok decls) {d : DeclId} :
    (∃ x, d.get? (linkChildren decls) = some x) ↔ ∃ slot, d.get? a.slots.decls = some slot := by
  rw [Id.exists_get?_iff, Id.exists_get?_iff, length_linked h]

theorem unit_of_declOf {d : DeclId} {slot : DeclSlot} {x : Declaration}
    (h : a.declOf settings d slot = .ok x) : x.unit = a.slots.unit := by
  unfold declOf at h
  split at h
  next =>
    obtain ⟨parent, -, h⟩ := bind_eq_ok h
    obtain ⟨access, -, h⟩ := bind_eq_ok h
    obtain ⟨location, -, h⟩ := bind_eq_ok h
    obtain ⟨details, -, h⟩ := bind_eq_ok h
    cases h
    rfl
  next =>
    obtain ⟨name, -, h⟩ := bind_eq_ok h
    obtain ⟨parent, -, h⟩ := bind_eq_ok h
    cases h
    rfl

theorem Resolves.store_eq {u : ResolvedUnit} (h : a.Resolves settings decls u) :
    u.store = ⟨linkChildren decls, u.store.types⟩ := by
  rw [← h.linked]

end Linked

namespace Relabels

variable {settings : BuilderSettings} {r r' : Renaming} {a a' : AllocatedUnit}
  {decls decls' : List Declaration} {types types' : List Ty} (h : a.Relabels r a')

include h

theorem returns_types (htypes : a.slots.types.mapM a.slots.typeOf = .ok types) :
    Returns (a'.slots.types.mapM a'.slots.typeOf) := by
  apply returns_mapM
  intro source' hsource'
  obtain ⟨v, hv⟩ := Id.exists_get?_of_mem (k := .type) hsource'
  obtain ⟨t, source, ht, rfl⟩ := h.exists_type hv
  rw [h.type ht] at hv
  cases hv
  obtain ⟨node, -, hnode⟩ := Id.get?_right (mapM_eq_ok htypes) ht
  exact ⟨_, h.slots.typeOf source node hnode⟩

theorem returns_declarations (hdecls : a.declarations settings = .ok decls) :
    Returns (a'.declarations settings) := by
  apply AllocatedUnit.returns_declarations
  intro e slot' he
  obtain ⟨d, slot, hd, rfl⟩ := h.exists_decl he
  rw [h.slots.decl hd] at he
  cases he
  obtain ⟨x, -, hx⟩ := get?_declarations hdecls hd
  exact ⟨_, h.declOf settings hd hx (.inl h.unit)⟩

section Stores

variable (htypes : a.slots.types.mapM a.slots.typeOf = .ok types)
  (htypes' : a'.slots.types.mapM a'.slots.typeOf = .ok types')
  (hdecls : a.declarations settings = .ok decls) (hdecls' : a'.declarations settings = .ok decls')

include htypes htypes' in
theorem get?_types {t : TypeId} {node : Ty} (ht : t.get? types = some node) :
    (r.type t).get? types' = some (r.ty node) := by
  obtain ⟨source, hsource, hok⟩ := Id.get?_left (mapM_eq_ok htypes) ht
  obtain ⟨node', hnode', hok'⟩ := Id.get?_right (mapM_eq_ok htypes') (h.type hsource)
  rw [h.slots.typeOf source node hok] at hok'
  cases hok'
  exact hnode'

include hdecls hdecls' in
theorem get?_decls {d : DeclId} {x : Declaration} (hd : d.get? decls = some x) :
    (r.decl d).get? decls' = some (r.declaration (r.decl d) x) := by
  obtain ⟨slot, hslot, hok⟩ := get?_slots hdecls hd
  obtain ⟨y, hy, hok'⟩ := get?_declarations hdecls' (h.slots.decl hslot)
  rw [h.declOf settings hslot hok (.inl h.unit), h.unit, ← unit_of_declOf hok] at hok'
  cases hok'
  exact hy

include hdecls hdecls' in
theorem get?_linked {d : DeclId} {x : Declaration} (hd : d.get? (linkChildren decls) = some x) :
    ∃ y, (r.decl d).get? (linkChildren decls') = some y ∧ r.Alike x y ∧
      y.withMembers [] = r.declaration (r.decl d) x := by
  rw [get?_linkChildren] at hd
  obtain ⟨x, hx, rfl⟩ := Option.map_eq_some_iff.mp hd
  have hy : (r.decl d).get? (linkChildren decls') =
      some ((r.declaration (r.decl d) x).withMembers (childrenIn decls' (r.decl d))) := by
    rw [get?_linkChildren, h.get?_decls hdecls hdecls' hx]
    rfl
  exact ⟨_, hy, (r.alike_declaration (r.decl d) x).withMembers _ _,
    r.declaration_withMembers (r.decl d) x _ _⟩

include htypes htypes' hdecls hdecls' in
theorem embeds :
    (⟨linkChildren decls, types⟩ : Store).Embeds r ⟨linkChildren decls', types'⟩ where
  type := h.get?_types htypes htypes'
  decl hd := by
    obtain ⟨y, hy, hxy, -⟩ := h.get?_linked hdecls hdecls' hd
    exact ⟨y, hy, hxy⟩
  injective hd he heq := by
    obtain ⟨slot, hslot⟩ := (held_linked_iff hdecls).mp hd
    obtain ⟨other, hother⟩ := (held_linked_iff hdecls).mp he
    exact h.decl_inj hslot hother heq
  types := by
    have hlength := (mapM_eq_ok htypes).length_eq
    have hlength' := (mapM_eq_ok htypes').length_eq
    have := h.types
    simp only
    omega
  decls := by
    have := h.length
    simp only [length_linked hdecls, length_linked hdecls']
    omega

end Stores

omit h in
theorem returns_resolve (h : a.Relabels r a') (h' : a'.Relabels r' a) {unit : UnitId}
    {records' : List Record} (ha' : a'.Sound unit records') {u : ResolvedUnit}
    (hu : a.Resolves settings decls u) : Returns (a'.resolve settings) := by
  obtain ⟨types', htypes'⟩ := h.returns_types hu.types
  obtain ⟨decls', hdecls'⟩ := h.returns_declarations hu.declared
  have hstore := hu.store_eq
  have hforth := h.embeds hu.types htypes' hu.declared hdecls'
  have hback := h'.embeds htypes' hu.types hdecls' hu.declared
  rw [← hstore] at hforth hback
  have hreferences := h.slots.checkReferences h.records.symm.subset hu.references
  have hreachable : a'.slots.checkReachable (linkChildren decls') = .ok () := by
    apply checkReachable_of_climb
    intro e y he
    cases hclimb : climb (linkChildren decls') (linkChildren decls').length y.parent with
    | none => rfl
    | some q =>
      -- the same way up is there in the other unit, where it was found to end
      obtain ⟨x, hx, hxy⟩ := hback.decl he
      have hend := climb_of_checkReachable hu.reachable hx
      have hlength : (linkChildren decls').length = u.store.decls.length := by
        rw [hu.linked, length_linked hdecls', length_linked hu.declared, h.length]
      have hsame := hback.climb hclimb
      rw [hlength, ← hxy.parent, hend] at hsame
      cases hsame
  have hsound := sound_declarations ha' hdecls' htypes' hreachable []
  have hacyclic : a'.slots.checkAcyclic ⟨linkChildren decls', types'⟩ = .ok () := by
    rw [checkAcyclic_eq_ok_iff, Store.findCycle_eq_none_iff hsound.closed.linked]
    exact hback.acyclic (Store.acyclic_of_findCycle (checkAcyclic_eq_ok_iff.mp hu.acyclic))
  have hkeys : Returns ((Id.all (linkChildren decls')).mapM
      (Store.signatureKey ⟨linkChildren decls', types'⟩)) := by
    apply returns_mapM
    intro e he
    obtain ⟨slot', he⟩ := (held_linked_iff hdecls').mp (Id.exists_get?_of_mem_all he)
    obtain ⟨d, slot, hd, rfl⟩ := h.exists_decl he
    obtain ⟨x, hx⟩ := (held_linked_iff hu.declared).mpr ⟨slot, hd⟩
    rw [← hu.linked] at hx
    obtain ⟨key, -, hkey⟩ := hu.get?_signatureKeys hx
    exact ⟨key, hforth.signatureKey d key hkey⟩
  obtain ⟨keys, hkeys⟩ := hkeys
  let v : ResolvedUnit := ⟨a'.slots.unit, ⟨linkChildren decls', types'⟩, a'.root,
    a'.slots.registry, a'.slots.files.map (·.2), keys⟩
  exact ⟨v, (resolve_eq_ok_iff ha').mpr ⟨decls', hreferences, htypes', hdecls', rfl, hreachable,
    hacyclic, hkeys, rfl, rfl, rfl, rfl⟩⟩

theorem renamed {u v : ResolvedUnit} (hu : a.Resolves settings decls u)
    (hv : a'.Resolves settings decls' v) (hus : u.Sound) (hvs : v.Sound) : u.Renamed r v := by
  have hembeds := h.embeds hu.types hv.types hu.declared hv.declared
  rw [← hu.store_eq, ← hv.store_eq] at hembeds
  have hdecl {d : DeclId} {x : Declaration} (hd : d.get? u.store.decls = some x) :
      ∃ y, (r.decl d).get? v.store.decls = some y ∧ r.Alike x y ∧
        y.withMembers [] = r.declaration (r.decl d) x := by
    rw [hu.linked] at hd
    rw [hv.linked]
    exact h.get?_linked hu.declared hv.declared hd
  constructor
  case unit => rw [hv.unit, hu.unit, h.unit]
  case root => rw [hv.root, hu.root, h.root]
  case node =>
    intro id
    rw [hv.registry, hu.registry]
    exact h.slots.node id
  case decl =>
    intro d x hd
    obtain ⟨y, hy, -, heq⟩ := hdecl hd
    refine ⟨y, hy, heq, hembeds.members_perm hus.tree hvs.tree (fun {e} he ↦ ?_) hd hy⟩
    have he' : ∃ z, e.get? (linkChildren decls') = some z := by
      rw [← hv.linked]
      exact he
    obtain ⟨slot', hslot'⟩ := (held_linked_iff hv.declared).mp he'
    obtain ⟨n, slot, hslot, heq⟩ := h.exists_decl hslot'
    refine ⟨n, ?_, heq⟩
    rw [Store.HoldsDecl, hu.linked]
    exact (held_linked_iff hu.declared).mpr ⟨slot, hslot⟩
  case type => exact h.get?_types hu.types hv.types
  case file =>
    intro i path hi
    rw [hu.files, Id.get?_map, Option.map_eq_some_iff] at hi
    obtain ⟨entry, hentry, rfl⟩ := hi
    rw [hv.files, Id.get?_map, h.filed hentry]
    rfl
  case key =>
    intro d x hd
    obtain ⟨y, hy, -, -⟩ := hdecl hd
    obtain ⟨key, hkey, hok⟩ := hu.get?_signatureKeys hd
    obtain ⟨key', hkey', hok'⟩ := hv.get?_signatureKeys hy
    rw [hembeds.signatureKey d key hok] at hok'
    cases hok'
    rw [hkey, hkey']
    rfl
  case decl_inj => exact hembeds.injective
  case type_inj =>
    intro t t' ht ht' heq
    obtain ⟨node, hnode⟩ := ht
    obtain ⟨node', hnode'⟩ := ht'
    obtain ⟨source, hsource, -⟩ := Id.get?_left (mapM_eq_ok hu.types) hnode
    obtain ⟨other, hother, -⟩ := Id.get?_left (mapM_eq_ok hu.types) hnode'
    exact h.type_inj hsource hother heq
  case decls => rw [hu.linked, hv.linked, length_linked hu.declared, length_linked hv.declared, h.length]
  case types =>
    rw [← (mapM_eq_ok hu.types).length_eq, ← (mapM_eq_ok hv.types).length_eq, h.types]

end Relabels

end AllocatedUnit

theorem returns_buildUnit_of_perm {settings : BuilderSettings} {unit : UnitId}
    {records records' : List Record} (hp : records.Perm records')
    (hroot : records.any Record.namesRoot) (h : Returns (buildUnit settings unit records)) :
    Returns (buildUnit settings unit records') := by
  obtain ⟨u, hu⟩ := h
  obtain ⟨a, decls, ha, hu⟩ := buildUnit_eq_ok_iff.mp hu
  obtain ⟨a', ha'⟩ := returns_allocate_of_perm hp hroot ⟨a, ha⟩
  have hback := AllocatedUnit.relabels_of_perm hp.symm (hp.any_eq ▸ hroot) ha' ha
  obtain ⟨v, hv⟩ := (AllocatedUnit.relabels_of_perm hp hroot ha ha').returns_resolve hback
    (allocate_eq_ok ha') hu
  refine ⟨v, ?_⟩
  rw [buildUnit, ha']
  exact hv

/-- Where some record spells the root, the order of the records changes neither whether the unit is
accepted nor, up to the ids, what it is. -/
theorem buildUnit_perm (settings : BuilderSettings) (unit : UnitId)
    {records records' : List Record} (hp : records.Perm records')
    (hroot : ∃ x ∈ records, x.namesRoot) :
    (Returns (buildUnit settings unit records) ↔ Returns (buildUnit settings unit records')) ∧
      ∀ u v, buildUnit settings unit records = .ok u → buildUnit settings unit records' = .ok v →
        ∃ r : Renaming, u.Renamed r v := by
  have hany : records.any Record.namesRoot := List.any_eq_true.mpr hroot
  refine ⟨⟨returns_buildUnit_of_perm hp hany,
    returns_buildUnit_of_perm hp.symm (hp.any_eq ▸ hany)⟩, ?_⟩
  intro u v hu hv
  have husound := (buildUnit_eq_ok hu).1
  have hvsound := (buildUnit_eq_ok hv).1
  obtain ⟨a, decls, ha, hu⟩ := buildUnit_eq_ok_iff.mp hu
  obtain ⟨a', decls', ha', hv⟩ := buildUnit_eq_ok_iff.mp hv
  exact ⟨_, (AllocatedUnit.relabels_of_perm hp hany ha ha').renamed hu hv husound hvsound⟩

/-- A class in a file, a variable of the class with both qualifiers, and an enumeration. -/
def Sample.located : List Record :=
  [({ tag := .namespaceTag, id := "n" } : Record).withLiteral Field.name "::",
    ({ tag := .file, id := "f" } : Record).withLiteral Field.name "s.h",
    (((({ tag := .structTag, id := "s" } : Record).withLiteral Field.name "s").withRef
      Field.context "n").withRef Field.file "f").withLiteral Field.line "3",
    ((({ tag := .cvQualifiedType, id := "q" } : Record).withRef Field.type "s").withFlag
      Field.const).withFlag Field.volatile,
    ((({ tag := .variableTag, id := "v" } : Record).withLiteral Field.name "v").withRef
      Field.context "n").withRef Field.type "q",
    ((({ tag := .enumeration, id := "e" } : Record).withLiteral Field.name "e").withRef
      Field.context "s").withChild
        { kind := .enumerator, attrs := NameMap.ofList [(Field.name, .literal "one")] }]

/-- The unit is accepted in reverse too, with other ids: the class is no longer the second
declaration. -/
theorem buildUnit_perm_sample : ∃ u v, buildUnit {} ⟨1⟩ Sample.located = .ok u ∧
    buildUnit {} ⟨1⟩ Sample.located.reverse = .ok v ∧ u.registry.get? "s" = some (.decl ⟨2⟩) ∧
      v.registry.get? "s" ≠ some (.decl ⟨2⟩) ∧ ∃ r : Renaming, u.Renamed r v := by
  have hok : (·.registry.get? "s") <$> buildUnit {} ⟨1⟩ Sample.located =
      .ok (some (.decl ⟨2⟩)) := by
    cbv
  have hok' : (·.registry.get? "s") <$> buildUnit {} ⟨1⟩ Sample.located.reverse =
      .ok (some (.decl ⟨4⟩)) := by
    cbv
  obtain ⟨u, hu, hs⟩ := map_eq_ok hok
  obtain ⟨v, hv, hs'⟩ := map_eq_ok hok'
  obtain ⟨-, hrenamed⟩ := buildUnit_perm {} ⟨1⟩ (List.reverse_perm Sample.located).symm
    ⟨_, List.mem_cons_self, by cbv⟩
  exact ⟨u, v, hu, hv, hs, by simp [hs'], hrenamed u v hu hv⟩

end ScopeForest
