import ScopeForest.Proofs.Scoped
import ScopeForest.Proofs.Unit.Faithful

namespace ScopeForest

/-- The declarations, types and bindings of a unit belong together. -/
structure ResolvedUnit.Sound (u : ResolvedUnit) : Prop where
  tree : u.store.Scoped (some u.root)
  climbs : ∀ {d : DeclId} {x : Declaration}, d.get? u.store.decls = some x →
    climb u.store.decls u.store.decls.length x.parent = none
  unit : ∀ {d : DeclId} {x : Declaration}, d.get? u.store.decls = some x → x.unit = u.unit
  named : ∀ {d : DeclId} {x : Declaration}, d.get? u.store.decls = some x →
    u.registry.NamesDecl x.externalId d
  bound : ∀ {id : ExternalId} {d : DeclId}, u.registry.get? id = some (.decl d) →
    ∃ x, d.get? u.store.decls = some x
  boundType : ∀ {id : ExternalId} {t : TypeId}, u.registry.get? id = some (.type t) →
    ∃ node, t.get? u.store.types = some node
  refers : ∀ {d : DeclId} {x : Declaration}, d.get? u.store.decls = some x →
    x.Refers (u.store.holding u.files)
  typeRefers : ∀ {t : TypeId} {node : Ty}, t.get? u.store.types = some node →
    node.Refers (u.store.holding u.files)

def Renaming.refl : Renaming := ⟨id, id, id⟩

theorem Renaming.ty_refl (node : Ty) : Renaming.refl.ty node = node := by
  have hargs (args : List TemplateArg) : args.map (TemplateArg.map id) = args := by
    refine (List.map_congr_left fun arg _ ↦ ?_).trans args.map_id
    cases arg <;> rfl
  cases node with
  | instantiation template args => simp [Renaming.ty, Ty.rename, refl, hargs]
  | function sig => simp [Renaming.ty, Ty.rename, refl, Signature.map]
  | memberFunctionPointer cls sig => simp [Renaming.ty, Ty.rename, refl, Signature.map]
  | _ => rfl

def Holding.anything : Holding := ⟨fun _ ↦ True, fun _ _ ↦ True, fun _ ↦ True⟩

theorem Slots.heldBy_anything (s : Slots) : s.HeldBy .anything :=
  ⟨fun _ ↦ trivial, fun _ ↦ trivial, fun _ ↦ trivial⟩

namespace AllocatedUnit

variable {u : AllocatedUnit} {unit : UnitId} {records : List Record} {settings : BuilderSettings}
  {decls : List Declaration} {types : List Ty}

theorem get?_declarations (h : u.declarations settings = .ok decls) {d : DeclId}
    {slot : DeclSlot} (hd : d.get? u.slots.decls = some slot) :
    ∃ x, d.get? decls = some x ∧ u.declOf settings d slot = .ok x := by
  obtain ⟨n, rfl, hn⟩ := Id.get?_eq_some_iff.mp hd
  have hpair : u.slots.decls.zipIdx[n]? = some (slot, n) := by
    rw [List.getElem?_zipIdx, hn, Option.map_some, Nat.zero_add]
  exact getElem?_right (Outcome.mapM_eq_ok h) hpair

theorem get?_slots (h : u.declarations settings = .ok decls) {d : DeclId} {x : Declaration}
    (hd : d.get? decls = some x) :
    ∃ slot, d.get? u.slots.decls = some slot ∧ u.declOf settings d slot = .ok x := by
  have hlength : u.slots.decls.length = decls.length := by
    simpa using (Outcome.mapM_eq_ok h).length_eq
  have hheld : ∃ slot, d.get? u.slots.decls = some slot := by
    rw [Id.exists_get?_iff, hlength]
    exact Id.val_pos_of_get? hd
  obtain ⟨slot, hslot⟩ := hheld
  obtain ⟨y, hy, hok⟩ := get?_declarations h hslot
  rw [hd] at hy
  cases hy
  exact ⟨slot, hslot, hok⟩

theorem returns_declarations (h : ∀ {d : DeclId} {slot : DeclSlot},
    d.get? u.slots.decls = some slot → Outcome.Returns (u.declOf settings d slot)) :
    Outcome.Returns (u.declarations settings) := by
  refine Outcome.returns_mapM fun (slot, i) hmem ↦ ?_
  have hi : u.slots.decls[i]? = some slot := List.mk_mem_zipIdx_iff_getElem?.mp hmem
  exact h (d := Id.ofIndex i) hi

def holding (u : AllocatedUnit) (decls : List Declaration) (types : List Ty) : Holding :=
  (Store.mk (linkChildren decls) types).holding (u.slots.files.map (·.2))

theorem heldBy_holding (hu : u.Sound unit records) (hdecls : u.declarations settings = .ok decls)
    (htypes : u.slots.types.mapM u.slots.typeOf = .ok types) :
    u.slots.HeldBy (u.holding decls types) where
  type h := by
    obtain ⟨node, hnode, -⟩ := Id.get?_right (Outcome.mapM_eq_ok htypes) h
    exact ⟨node, hnode⟩
  decl h := by
    obtain ⟨x, hx, hok⟩ := get?_declarations hdecls h
    have hdeclares := declOf_eq_ok hu u.slots.heldBy_anything h hok
    refine ⟨x.withMembers (childrenIn decls x.id), ?_, hdeclares.kind⟩
    rw [get?_linkChildren, hx]
    rfl
  file {i entry} h := by
    refine ⟨entry.2, ?_⟩
    rw [Id.get?_map, h]
    rfl

theorem declares (hu : u.Sound unit records) (hdecls : u.declarations settings = .ok decls)
    (htypes : u.slots.types.mapM u.slots.typeOf = .ok types) {d : DeclId} {slot : DeclSlot}
    (h : d.get? u.slots.decls = some slot) :
    ∃ x, d.get? decls = some x ∧ u.Declares records (u.holding decls types) d slot x ∧
      d.get? (linkChildren decls) = some (x.withMembers (childrenIn decls x.id)) := by
  obtain ⟨x, hx, hok⟩ := get?_declarations hdecls h
  refine ⟨x, hx, declOf_eq_ok hu (heldBy_holding hu hdecls htypes) h hok, ?_⟩
  rw [get?_linkChildren, hx]
  rfl

theorem declares_of_get? {H : Holding} (hu : u.Sound unit records) (hH : u.slots.HeldBy H)
    (hdecls : u.declarations settings = .ok decls) {d : DeclId} {x : Declaration}
    (h : d.get? decls = some x) :
    ∃ slot, d.get? u.slots.decls = some slot ∧ u.Declares records H d slot x := by
  obtain ⟨slot, hslot, hok⟩ := get?_slots hdecls h
  exact ⟨slot, hslot, declOf_eq_ok hu hH hslot hok⟩

section Linked

variable (hu : u.Sound unit records) (hdecls : u.declarations settings = .ok decls)

include hu hdecls

theorem id_declarations {d : DeclId} {x : Declaration} (h : d.get? decls = some x) : x.id = d := by
  obtain ⟨slot, -, hx⟩ := declares_of_get? hu u.slots.heldBy_anything hdecls h
  exact hx.id

theorem fitting_declarations {d : DeclId} {x : Declaration} (h : d.get? decls = some x) :
    x.Fitting := by
  obtain ⟨slot, -, hx⟩ := declares_of_get? hu u.slots.heldBy_anything hdecls h
  exact hx.fitting

theorem scope_declarations {d p : DeclId} {x : Declaration} (h : d.get? decls = some x)
    (hp : x.parent = some p) : ∃ y, p.get? decls = some y ∧ y.kind.isScope := by
  obtain ⟨slot, -, hx⟩ := declares_of_get? hu u.slots.heldBy_anything hdecls h
  have hne : d ≠ u.root := fun he ↦ by
    rw [hx.root he] at hp
    cases hp
  obtain ⟨q, -, found, hparent, -, -, hq, hs⟩ := hx.owner hne
  rw [hp] at hparent
  cases hparent
  obtain ⟨y, hy, hok⟩ := get?_declarations hdecls hq
  exact ⟨y, hy, (declOf_eq_ok hu u.slots.heldBy_anything hq hok).kind ▸ hs⟩

/-- The scopes of declarations are scopes, so that linking members is never refused. -/
theorem linkMembers_declarations : u.slots.linkMembers decls = .ok (linkChildren decls) := by
  refine linkMembers_eq u.slots (id_declarations hu hdecls) (fitting_declarations hu hdecls) ?_
    (scope_declarations hu hdecls)
  intro d x h
  obtain ⟨slot, -, hx⟩ := declares_of_get? hu u.slots.heldBy_anything hdecls h
  exact hx.members

theorem scoped_declarations (types : List Ty) :
    (⟨linkChildren decls, types⟩ : Store).Scoped (some u.root) := by
  refine scoped_linkChildren (id_declarations hu hdecls) (fitting_declarations hu hdecls) ?_ ?_
    (scope_declarations hu hdecls)
  · obtain ⟨r, hr, -⟩ := hu.rootSlot
    obtain ⟨x, hx, hok⟩ := get?_declarations hdecls hr
    have hdeclares := declOf_eq_ok hu u.slots.heldBy_anything hr hok
    exact ⟨x, hx, hdeclares.root rfl, hdeclares.kind⟩
  · intro d x h hp
    obtain ⟨slot, -, hx⟩ := declares_of_get? hu u.slots.heldBy_anything hdecls h
    refine Decidable.byContradiction fun hne ↦ ?_
    obtain ⟨p, -, -, hparent, -⟩ := hx.owner hne
    rw [hp] at hparent
    cases hparent

end Linked

theorem typeOf_refers (hu : u.Sound unit records) {H : Holding} (hH : u.slots.HeldBy H)
    {t : TypeId} {source : TypeSource} {node : Ty} (ht : t.get? u.slots.types = some source)
    (h : u.slots.typeOf source = .ok node) : node.Refers H := by
  cases hu.slots.backsType ht with
  | record hr hk hq =>
    have hnode := Slots.typeOfRecord_eq_ok (N := fun _ _ ↦ False) hu.slots hq h
    exact hnode.refers (hH.namesType hu.slots) hH.namesClass (hH.namesDecl hu.slots) False.elim
  | constHalf hr hq hi =>
    cases h
    refine ⟨fun a ha ↦ ?_, nofun⟩
    rw [List.mem_singleton.mp ha]
    exact hH.type hi
  | volatileHalf hr hq =>
    obtain ⟨a, ha, rfl⟩ := Outcome.map_eq_ok h
    obtain ⟨x, -, hx⟩ := Slots.typeField_eq_ok hu.slots ha
    refine ⟨fun b hb ↦ ?_, nofun⟩
    rw [List.mem_singleton.mp hb]
    exact hH.namesType hu.slots hx
  | declared hd hdeclared =>
    cases h
    have hkind := ((hu.slots.backs hd).declared hdeclared).1
    exact ⟨nofun, fun e he ↦ Option.some_inj.mp he ▸ ⟨_, hH.decl hd, hkind⟩⟩

theorem namesType_of_slots (htypes : u.slots.types.mapM u.slots.typeOf = .ok types)
    {x : ExternalId} {t : TypeId} (h : u.slots.NamesType x t) :
    u.slots.registry.NamesType ⟨linkChildren decls, types⟩ x t := by
  refine h.imp_right fun ⟨d, hx, ht⟩ ↦ ?_
  obtain ⟨node, hnode, hok⟩ := Id.get?_right (Outcome.mapM_eq_ok htypes) ht
  cases hok
  exact ⟨d, hx, hnode⟩

theorem namesClass_of_slots (hu : u.Sound unit records)
    (hdecls : u.declarations settings = .ok decls)
    (htypes : u.slots.types.mapM u.slots.typeOf = .ok types) {x : ExternalId} {d : DeclId}
    (h : u.slots.NamesClass x d) :
    u.slots.registry.NamesClass ⟨linkChildren decls, types⟩ x d := by
  obtain ⟨hx, slot, hslot, hk⟩ := h
  obtain ⟨y, -, hdeclares, hlinked⟩ := declares hu hdecls htypes hslot
  refine ⟨hx, _, hlinked, ?_⟩
  rw [← hdeclares.kind] at hk
  exact hk

theorem describesNode (hu : u.Sound unit records) (hdecls : u.declarations settings = .ok decls)
    (htypes : u.slots.types.mapM u.slots.typeOf = .ok types) {r : Record} {t : TypeId}
    {source : TypeSource} {node : Ty} (ht : t.get? u.slots.types = some source)
    (hsource : source = .record r ∨ ∃ inner, source = .constHalf r inner)
    (h : u.slots.typeOf source = .ok node) :
    u.slots.registry.DescribesNode ⟨linkChildren decls, types⟩ records r node := by
  have hrecord : u.slots.record? = fun x ↦ records.find? (·.id == x) := by
    funext x
    rw [Slots.record?, hu.records]
  have hslots : u.slots.DescribesNode (fun a node ↦ a.get? types = some node) r node := by
    have hbacks := hu.slots.backsType ht
    rcases hsource with rfl | ⟨inner, rfl⟩
    · cases hbacks with
      | record hr hk hq => exact Slots.typeOfRecord_eq_ok hu.slots hq h
    · cases hbacks with
      | constHalf hr hq hi =>
        cases h
        obtain ⟨half, hhalf, hok⟩ := Id.get?_right (Outcome.mapM_eq_ok htypes) hi
        obtain ⟨a, ha, rfl⟩ := Outcome.map_eq_ok hok
        obtain ⟨x, hx, ha⟩ := Slots.typeField_eq_ok hu.slots ha
        exact .constVolatile hq hx ha hhalf
  rw [Slots.DescribesNode, hrecord] at hslots
  rw [← Renaming.ty_refl node]
  refine hslots.rename (namesType_of_slots htypes) (namesClass_of_slots hu hdecls htypes)
    (fun hd ↦ hd) fun {a node} ha ↦ ?_
  rw [← Renaming.ty, Renaming.ty_refl]
  exact ha

theorem faithful_declarations (hu : u.Sound unit records)
    (hdecls : u.declarations settings = .ok decls)
    (htypes : u.slots.types.mapM u.slots.typeOf = .ok types) :
    Faithful records u.slots.registry ⟨linkChildren decls, types⟩ := by
  obtain ⟨rootRecord, hrootSlot, hrootRecord⟩ := hu.rootSlot
  have hcovers {r : Record} (hr : r ∈ records) : u.slots.Covers r :=
    hu.slots.covers (hu.records ▸ hr)
  have hnames {d : DeclId} {slot : DeclSlot} (hd : d.get? u.slots.decls = some slot) :
      u.slots.registry.NamesDecl slot.externalId d :=
    hu.slots.bound.decl.mpr ⟨slot, hd, rfl⟩
  have hne {d : DeclId} {slot : DeclSlot} (hd : d.get? u.slots.decls = some slot)
      (hs : slot.source ≠ .record rootRecord) : d ≠ u.root := by
    rintro rfl
    rw [hrootSlot] at hd
    cases hd
    exact hs rfl
  refine ⟨?_, ?_, ?_, ?_⟩
  · intro r hr
    rw [hrootRecord] at hr
    cases hr
    obtain ⟨x, -, hdeclares, hlinked⟩ := declares hu hdecls htypes hrootSlot
    exact ⟨u.root, _, hnames hrootSlot, hlinked, hdeclares.kind, hdeclares.root rfl⟩
  · intro r kind hr hk
    obtain ⟨d, declared, hd⟩ := (hcovers hr).decl hk
    obtain ⟨x, -, hdeclares, hlinked⟩ := declares hu hdecls htypes hd
    refine ⟨d, _, hnames hd, hlinked, hdeclares.kind, fun hroot ↦ ?_⟩
    have hnot : d ≠ u.root := hne hd fun he ↦ hroot (by
      cases he
      exact hrootRecord)
    obtain ⟨p, scope, -, hparent, howned, hscope, -, -⟩ := hdeclares.owner hnot
    cases howned with
    | record ho => exact ⟨scope, p, ho, hscope, hparent⟩
  · intro r i child hr ht hc
    obtain ⟨d, hd⟩ := (hcovers hr).enumerator ht hc
    obtain ⟨x, -, hdeclares, hlinked⟩ := declares hu hdecls htypes hd
    obtain ⟨p, scope, -, hparent, howned, hscope, -, -⟩ := hdeclares.owner (hne hd nofun)
    cases howned with
    | enumerator => exact ⟨d, _, p, hnames hd, hlinked, hdeclares.kind, hscope, hparent⟩
  · intro r hr ht
    obtain ⟨t, source, hget, hsource⟩ := (hcovers hr).type ht
    obtain ⟨node, hnode, hok⟩ := Id.get?_right (Outcome.mapM_eq_ok htypes) hget
    have hid : source.boundId? = some r.id := by
      rcases hsource with rfl | ⟨inner, rfl⟩ <;> rfl
    exact ⟨t, node, hu.slots.bound.type.mpr ⟨source, hget, hid⟩, hnode,
      describesNode hu hdecls htypes hget hsource hok⟩

theorem climb_of_checkReachable {s : Slots} (h : s.checkReachable decls = .ok ()) {d : DeclId}
    {x : Declaration} (hd : d.get? decls = some x) :
    climb decls decls.length x.parent = none := by
  have hx := Outcome.forM_eq_ok h x (Id.mem_of_get? hd)
  split at hx
  next hnone => exact hnone
  next => cases hx

theorem checkReachable_of_climb {s : Slots} (h : ∀ {d : DeclId} {x : Declaration},
    d.get? decls = some x → climb decls decls.length x.parent = none) :
    s.checkReachable decls = .ok () := by
  refine Outcome.forM_of_forall fun x hx ↦ ?_
  obtain ⟨d, hd⟩ := Id.exists_get?_of_mem (k := .decl) hx
  rw [h hd]
  rfl

theorem sound_declarations (hu : u.Sound unit records)
    (hdecls : u.declarations settings = .ok decls)
    (htypes : u.slots.types.mapM u.slots.typeOf = .ok types)
    (hreach : u.slots.checkReachable (linkChildren decls) = .ok ()) (keys : List (Option String)) :
    (⟨u.slots.unit, ⟨linkChildren decls, types⟩, u.root, u.slots.registry,
      u.slots.files.map (·.2), keys⟩ : ResolvedUnit).Sound := by
  have hH := heldBy_holding hu hdecls htypes
  have hslot {d : DeclId} {x : Declaration} (hd : d.get? (linkChildren decls) = some x) :
      ∃ slot y, d.get? u.slots.decls = some slot ∧
        u.Declares records (u.holding decls types) d slot y ∧
          x = y.withMembers (childrenIn decls y.id) := by
    rw [get?_linkChildren] at hd
    obtain ⟨y, hy, rfl⟩ := Option.map_eq_some_iff.mp hd
    obtain ⟨slot, hslot, hdeclares⟩ :=
      declares_of_get? hu (heldBy_holding hu hdecls htypes) hdecls hy
    exact ⟨slot, y, hslot, hdeclares, rfl⟩
  refine ⟨scoped_declarations hu hdecls types, climb_of_checkReachable hreach, ?_, ?_, ?_, ?_,
    ?_, ?_⟩
  · intro d x hd
    obtain ⟨slot, y, -, hdeclares, rfl⟩ := hslot hd
    exact hdeclares.unit
  · intro d x hd
    obtain ⟨slot, y, hs, hdeclares, rfl⟩ := hslot hd
    exact hu.slots.bound.decl.mpr ⟨slot, hs, hdeclares.externalId.symm⟩
  · intro id d hget
    obtain ⟨slot, hs, -⟩ := hu.slots.bound.decl.mp hget
    obtain ⟨x, -, -, hlinked⟩ := declares hu hdecls htypes hs
    exact ⟨_, hlinked⟩
  · intro id t hget
    obtain ⟨source, hs, -⟩ := hu.slots.bound.type.mp hget
    exact hH.type hs
  · intro d x hd
    obtain ⟨slot, y, -, hdeclares, rfl⟩ := hslot hd
    exact hdeclares.refers.withMembers _
  · intro t node ht
    obtain ⟨source, hs, hok⟩ := Id.get?_left (Outcome.mapM_eq_ok htypes) ht
    exact typeOf_refers hu hH hs hok

theorem resolve_eq_ok (hu : u.Sound unit records) {v : ResolvedUnit}
    (h : u.resolve settings = .ok v) :
    v.Sound ∧ v.unit = unit ∧ Faithful records v.registry v.store := by
  obtain ⟨-, -, h⟩ := Outcome.bind_eq_ok h
  obtain ⟨types, htypes, h⟩ := Outcome.bind_eq_ok h
  obtain ⟨decls, hdecls, h⟩ := Outcome.bind_eq_ok h
  obtain ⟨linked, hlinked, h⟩ := Outcome.bind_eq_ok h
  rw [linkMembers_declarations hu hdecls] at hlinked
  cases hlinked
  obtain ⟨_, hreach, h⟩ := Outcome.bind_eq_ok h
  obtain ⟨-, -, h⟩ := Outcome.bind_eq_ok h
  obtain ⟨signatureKeys, -, h⟩ := Outcome.bind_eq_ok h
  cases h
  exact ⟨sound_declarations hu hdecls htypes hreach signatureKeys, hu.unit,
    faithful_declarations hu hdecls htypes⟩

end AllocatedUnit

theorem unfrozen_of_buildUnit {settings : BuilderSettings} {unit : UnitId}
    {records : List Record} {u : ResolvedUnit} (h : buildUnit settings unit records = .ok u) :
    u.registry.frozen = false := by
  obtain ⟨a, ha, h⟩ := Outcome.bind_eq_ok h
  obtain ⟨-, -, h⟩ := Outcome.bind_eq_ok h
  obtain ⟨types, -, h⟩ := Outcome.bind_eq_ok h
  obtain ⟨decls, -, h⟩ := Outcome.bind_eq_ok h
  obtain ⟨linked, -, h⟩ := Outcome.bind_eq_ok h
  obtain ⟨-, -, h⟩ := Outcome.bind_eq_ok h
  obtain ⟨-, -, h⟩ := Outcome.bind_eq_ok h
  obtain ⟨signatureKeys, -, h⟩ := Outcome.bind_eq_ok h
  cases h
  exact (allocate_eq_ok (Outcome.ofExcept_eq_ok ha)).slots.bound.unfrozen

/-- A unit that was built is sound and a faithful view of its records. -/
theorem buildUnit_eq_ok {settings : BuilderSettings} {unit : UnitId} {records : List Record}
    {u : ResolvedUnit} (h : buildUnit settings unit records = .ok u) :
    u.Sound ∧ u.unit = unit ∧ Faithful records u.registry u.store := by
  obtain ⟨a, ha, h⟩ := Outcome.bind_eq_ok h
  exact AllocatedUnit.resolve_eq_ok (allocate_eq_ok (Outcome.ofExcept_eq_ok ha)) h

end ScopeForest
