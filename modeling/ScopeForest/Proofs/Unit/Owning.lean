import ScopeForest.Proofs.Unit.Reading
import ScopeForest.Unit.Declarations

namespace ScopeForest

/-- The id of the scope that owns a record: the first scope on the way from context to context
through functions, and the root where there is no context. -/
inductive OwnedBy (records : List Record) : Record → ExternalId → Prop
  | scope {r q : Record} {kind : DeclKind} (hq : q ∈ records)
      (hx : r.attrs.ref? Field.context = some q.id) (hk : q.tag.declKind? = some kind)
      (hs : kind.isScope) : OwnedBy records r q.id
  | callable {r q : Record} {kind : DeclKind} {x : ExternalId} (hq : q ∈ records)
      (hx : r.attrs.ref? Field.context = some q.id) (hk : q.tag.declKind? = some kind)
      (hc : kind.isCallable) (h : OwnedBy records q x) : OwnedBy records r x
  | root {r q : Record} (hx : r.attrs.ref? Field.context = none)
      (hq : rootRecord? records = some q) : OwnedBy records r q.id

/-- The id of the scope that owns the declaration of a slot; an enumerator belongs to its
enumeration. -/
inductive DeclSource.OwnedBy (records : List Record) : DeclSource → ExternalId → Prop
  | record {r : Record} {x : ExternalId} (h : ScopeForest.OwnedBy records r x) :
      OwnedBy records (.record r) x
  | enumerator {r : Record} {child : ChildRecord} : OwnedBy records (.enumerator r child) r.id

/-- All slots of a unit are held. -/
structure Slots.HeldBy (s : Slots) (H : Holding) : Prop where
  type : ∀ {t : TypeId} {source : TypeSource}, t.get? s.types = some source → H.type t
  decl : ∀ {d : DeclId} {slot : DeclSlot}, d.get? s.decls = some slot → H.decl d slot.kind
  file : ∀ {i : FileId} {entry : ExternalId × String}, i.get? s.files = some entry → H.file i

namespace Slots

variable {s : Slots} {spelled : Bool} {H : Holding} {x : ExternalId}

theorem HeldBy.namesType {t : TypeId} (hH : s.HeldBy H) (hs : s.Sound spelled)
    (h : s.NamesType x t) : H.type t := by
  rcases h with h | ⟨d, -, h⟩
  · obtain ⟨source, hget, -⟩ := hs.bound.type.mp h
    exact hH.type hget
  · exact hH.type h

theorem HeldBy.namesClass {d : DeclId} (hH : s.HeldBy H) (h : s.NamesClass x d) :
    ∃ kind, H.decl d kind ∧ kind.IsClass := by
  obtain ⟨-, slot, hd, hk⟩ := h
  exact ⟨slot.kind, hH.decl hd, hk⟩

theorem HeldBy.namesDecl {d : DeclId} (hH : s.HeldBy H) (hs : s.Sound spelled)
    (h : s.NamesDecl x d) : ∃ kind, H.decl d kind := by
  obtain ⟨slot, hd, -⟩ := hs.bound.decl.mp h
  exact ⟨slot.kind, hH.decl hd⟩

theorem typeField?_eq_ok {r : Record} {field : String} {t? : Option TypeId} (hH : s.HeldBy H)
    (hs : s.Sound spelled) (h : s.typeField? r field = .ok t?) : ∀ t ∈ t?, H.type t := by
  unfold typeField? at h
  split at h
  · cases h
    nofun
  · obtain ⟨t, ht, rfl⟩ := Outcome.map_eq_ok h
    intro u hu
    cases hu
    exact hH.namesType hs (typeRef_eq_ok hs ht)

theorem fileRef_eq_ok {r : Record} {i : FileId} (hH : s.HeldBy H) (h : s.fileRef r x = .ok i) :
    H.file i := by
  unfold fileRef at h
  split at h
  next n hn =>
    cases h
    obtain ⟨hlt, -, -⟩ := List.findIdx?_eq_some_iff_getElem.mp hn
    have hget : (Id.ofIndex n : FileId).get? s.files = some s.files[n] :=
      List.getElem?_eq_getElem hlt
    exact hH.file hget
  next => cases h

theorem Sound.namesDecl_slot {d : DeclId} {slot : DeclSlot} (hs : s.Sound spelled)
    (h : s.NamesDecl x d) (hd : d.get? s.decls = some slot) : slot.externalId = x := by
  obtain ⟨found, hf, hx⟩ := hs.bound.decl.mp h
  rw [hd] at hf
  cases hf
  exact hx

end Slots

namespace AllocatedUnit

variable {u : AllocatedUnit} {unit : UnitId} {records : List Record} {settings : BuilderSettings}
  {r : Record} {d : DeclId} {slot : DeclSlot} {H : Holding}

theorem scopeFrom_eq_ok (hu : u.Sound unit records) {fuel : Nat} {current : Record}
    (h : u.scopeFrom settings r fuel current = .ok d) :
    ∃ x slot, OwnedBy records current x ∧ u.slots.NamesDecl x d ∧
      d.get? u.slots.decls = some slot ∧ slot.kind.isScope := by
  induction fuel generalizing current with
  | zero => cases h
  | succ fuel ih =>
    rw [scopeFrom] at h
    split at h
    next hnone =>
      split at h
      · cases h
        obtain ⟨q, hq, hroot⟩ := hu.rootSlot
        exact ⟨q.id, _, .root hnone hroot, hu.slots.bound.decl.mpr ⟨_, hq, rfl⟩, hq, rfl⟩
      · cases h
    next context hcontext =>
      obtain ⟨scope, hscope, h⟩ := Outcome.bind_eq_ok h
      obtain ⟨slot, hslot, h⟩ := Outcome.bind_eq_ok h
      have hscope := Slots.declRef_eq_ok hscope
      have hslot := Slots.declSlot_eq_ok hslot
      have hx := hu.slots.namesDecl_slot hscope hslot
      have hbacks := hu.slots.backs hslot
      -- an enumerator is neither a scope nor a function
      split at h
      next hs =>
        cases h
        cases hbacks with
        | record hq hk hd =>
          rw [hu.records] at hq
          rw [← hx] at hcontext hscope
          exact ⟨_, _, .scope hq hcontext hk hs, hscope, hslot, hs⟩
        | enumerator => cases hs
      next =>
        split at h
        next hc =>
          cases hbacks with
          | record hq hk hd =>
            rw [hu.records] at hq
            rw [← hx] at hcontext
            obtain ⟨x, found, ho, hfound⟩ := ih h
            exact ⟨x, found, .callable hq hcontext hk hc ho, hfound⟩
          | enumerator => cases hc
        next => cases h

theorem location_eq_ok {l? : Option Location} (hH : u.slots.HeldBy H)
    (h : u.location r = .ok l?) : ∀ l ∈ l?, H.file l.file := by
  unfold location at h
  split at h
  · cases h
    nofun
  · obtain ⟨i, hi, h⟩ := Outcome.bind_eq_ok h
    obtain ⟨line, -, h⟩ := Outcome.bind_eq_ok h
    cases h
    intro l hl
    cases hl
    exact Slots.fileRef_eq_ok hH hi

theorem classDetails_eq_ok (hu : u.Sound unit records) (hH : u.slots.HeldBy H) {key : ClassKey}
    {c : ClassDetails} (h : u.classDetails r key = .ok c) :
    (∀ t ∈ c.instantiates, H.type t) ∧
      (∀ b ∈ c.bases, ∃ kind, H.decl b.cls kind ∧ kind.IsClass) ∧ c.aliases = [] := by
  obtain ⟨size, -, h⟩ := Outcome.bind_eq_ok h
  obtain ⟨instantiates, hi, h⟩ := Outcome.bind_eq_ok h
  obtain ⟨bases, hb, h⟩ := Outcome.bind_eq_ok h
  cases h
  refine ⟨Slots.typeField?_eq_ok hH hu.slots hi, fun b hmem ↦ ?_, rfl⟩
  obtain ⟨child, -, hchild⟩ := exists_of_mem_right (Outcome.mapM_eq_ok hb) hmem
  obtain ⟨x, -, hchild⟩ := Outcome.bind_eq_ok hchild
  obtain ⟨access, -, hchild⟩ := Outcome.bind_eq_ok hchild
  obtain ⟨cls, hcls, hchild⟩ := Outcome.bind_eq_ok hchild
  cases hchild
  exact hH.namesClass (Slots.classRef_eq_ok hcls)

theorem callableDetails_eq_ok (hu : u.Sound unit records) (hH : u.slots.HeldBy H)
    {c : CallableDetails} (h : u.callableDetails r = .ok c) :
    ∀ t ∈ (Details.callable c).types, H.type t := by
  obtain ⟨parameters, hp, h⟩ := Outcome.bind_eq_ok h
  obtain ⟨returnType, hr, h⟩ := Outcome.bind_eq_ok h
  cases h
  intro t ht
  rcases List.mem_append.mp ht with ht | ht
  · exact Slots.typeField?_eq_ok hH hu.slots hr t (Option.mem_toList.mp ht)
  · obtain ⟨p, hmem, rfl⟩ := List.mem_map.mp ht
    obtain ⟨child, -, hchild⟩ := exists_of_mem_right (Outcome.mapM_eq_ok hp) hmem
    obtain ⟨x, -, hchild⟩ := Outcome.bind_eq_ok hchild
    obtain ⟨type, htype, hchild⟩ := Outcome.bind_eq_ok hchild
    cases hchild
    exact hH.namesType hu.slots (Slots.typeRef_eq_ok hu.slots htype)

theorem details_eq_ok (hu : u.Sound unit records) (hH : u.slots.HeldBy H) {kind : DeclKind}
    {details : Details} (h : u.details r kind = .ok details) :
    details.Fits kind ∧ (∀ t ∈ details.types, H.type t) ∧
      ∀ c, details = .cls c →
        (∀ b ∈ c.bases, ∃ kind, H.decl b.cls kind ∧ kind.IsClass) ∧ c.aliases = [] := by
  cases kind with
  | namespaceDecl | enumDecl | enumerator =>
    cases h
    exact ⟨rfl, fun t ht ↦ absurd ht List.not_mem_nil, fun c hc ↦ by cases hc⟩
  | classDecl | unionDecl =>
    obtain ⟨c, hc, rfl⟩ := Outcome.map_eq_ok h
    obtain ⟨hi, hb, ha⟩ := classDetails_eq_ok hu hH hc
    refine ⟨by simp [Details.Fits], fun t ht ↦ hi t (Option.mem_toList.mp ht), ?_⟩
    rintro _ ⟨⟩
    exact ⟨hb, ha⟩
  | variableDecl =>
    obtain ⟨v, hv, rfl⟩ := Outcome.map_eq_ok h
    obtain ⟨t, ht, hv⟩ := Outcome.bind_eq_ok hv
    obtain ⟨bits, -, hv⟩ := Outcome.bind_eq_ok hv
    cases hv
    obtain ⟨x, -, ht⟩ := Slots.typeField_eq_ok hu.slots ht
    refine ⟨rfl, fun a ha ↦ ?_, fun c hc ↦ by cases hc⟩
    rw [List.mem_singleton.mp ha]
    exact hH.namesType hu.slots ht
  | typedef =>
    obtain ⟨t, ht, rfl⟩ := Outcome.map_eq_ok h
    obtain ⟨x, -, ht⟩ := Slots.typeField_eq_ok hu.slots ht
    refine ⟨rfl, fun a ha ↦ ?_, fun c hc ↦ by cases hc⟩
    rw [List.mem_singleton.mp ha]
    exact hH.namesType hu.slots ht
  | function | memberFunction | constructor | destructor | operator =>
    obtain ⟨c, hc, rfl⟩ := Outcome.map_eq_ok h
    exact ⟨rfl, callableDetails_eq_ok hu hH hc, fun c hc ↦ by cases hc⟩

theorem members_of_details {kind : DeclKind} {x : Declaration}
    (h : u.details r kind = .ok x.details) : x.members = [] := by
  unfold Declaration.members
  generalize x.details = details at h
  cases kind with
  | namespaceDecl | enumDecl | enumerator =>
    cases h
    rfl
  | classDecl | unionDecl =>
    obtain ⟨c, hc, rfl⟩ := Outcome.map_eq_ok h
    obtain ⟨size, -, hc⟩ := Outcome.bind_eq_ok hc
    obtain ⟨instantiates, -, hc⟩ := Outcome.bind_eq_ok hc
    obtain ⟨bases, -, hc⟩ := Outcome.bind_eq_ok hc
    cases hc
    rfl
  | _ =>
    obtain ⟨_, -, rfl⟩ := Outcome.map_eq_ok h
    rfl

/-- What the declaration in the slot of `d` is like. -/
structure Declares (u : AllocatedUnit) (records : List Record) (H : Holding) (d : DeclId)
    (slot : DeclSlot) (x : Declaration) : Prop where
  id : x.id = d
  kind : x.kind = slot.kind
  unit : x.unit = u.slots.unit
  externalId : x.externalId = slot.externalId
  fitting : x.Fitting
  /-- Members are linked later. -/
  members : x.members = []
  refers : x.Refers H
  root : d = u.root → x.parent = none
  owner : d ≠ u.root → ∃ p scope found, x.parent = some p ∧ slot.source.OwnedBy records scope ∧
    u.slots.NamesDecl scope p ∧ p.get? u.slots.decls = some found ∧ found.kind.isScope

theorem enumeratorOf_eq_ok (hu : u.Sound unit records) {owner : Record} {child : ChildRecord}
    {x : Declaration} (hd : d.get? u.slots.decls = some slot)
    (hsource : slot.source = .enumerator owner child)
    (h : u.enumeratorOf d slot owner child = .ok x) : u.Declares records H d slot x := by
  have hbacks := hu.slots.backs hd
  rcases slot with ⟨source, kind, externalId, declared⟩
  cases hsource
  cases hbacks with
  | enumerator hr ht hc =>
    obtain ⟨name, -, h⟩ := Outcome.bind_eq_ok h
    obtain ⟨p, hp, h⟩ := Outcome.bind_eq_ok h
    have hp : u.slots.NamesDecl owner.id p := Slots.resolveDecl_eq_ok (Outcome.ofExcept_eq_ok hp)
    have hk : owner.tag.declKind? = some .enumDecl := by rw [ht]; rfl
    obtain ⟨e, declared, he⟩ := (hu.slots.covers hr).decl hk
    have hpe : p = e := by
      have he' := hu.slots.bound.decl.mpr ⟨_, he, rfl⟩
      rw [hp] at he'
      cases he'
      rfl
    cases h
    refine ⟨rfl, rfl, rfl, rfl, rfl, rfl, ⟨nofun, nofun, nofun, nofun⟩, ?_, fun _ ↦ ?_⟩
    · rintro rfl
      obtain ⟨q, hq, -⟩ := hu.rootSlot
      rw [hd] at hq
      cases hq
    · exact ⟨p, owner.id, _, rfl, .enumerator, hp, hpe ▸ he, rfl⟩

theorem parentOf_eq_ok (hu : u.Sound unit records) {p? : Option DeclId}
    (h : u.parentOf settings d r = .ok p?) :
    (d = u.root → p? = none) ∧ (d ≠ u.root → ∃ p scope found, p? = some p ∧
      OwnedBy records r scope ∧ u.slots.NamesDecl scope p ∧
        p.get? u.slots.decls = some found ∧ found.kind.isScope) := by
  unfold parentOf at h
  split at h
  next hroot =>
    cases h
    exact ⟨fun _ ↦ rfl, fun hne ↦ absurd hroot hne⟩
  next hne =>
    obtain ⟨p, hp, rfl⟩ := Outcome.map_eq_ok h
    obtain ⟨x, found, ho, hfound⟩ := scopeFrom_eq_ok hu hp
    exact ⟨fun hroot ↦ absurd hroot hne, fun _ ↦ ⟨p, x, found, rfl, ho, hfound⟩⟩

theorem declarationOf_eq_ok (hu : u.Sound unit records) (hH : u.slots.HeldBy H)
    {x : Declaration} (hsource : slot.source = .record r)
    (h : u.declarationOf settings d slot r = .ok x) : u.Declares records H d slot x := by
  obtain ⟨p?, hp, h⟩ := Outcome.bind_eq_ok h
  obtain ⟨access, -, h⟩ := Outcome.bind_eq_ok h
  obtain ⟨location, hl, h⟩ := Outcome.bind_eq_ok h
  obtain ⟨details, hdetails, h⟩ := Outcome.bind_eq_ok h
  obtain ⟨hroot, howner⟩ := parentOf_eq_ok hu hp
  obtain ⟨hfits, htypes, hclass⟩ := details_eq_ok hu hH hdetails
  cases h
  refine ⟨rfl, rfl, rfl, rfl, hfits, members_of_details hdetails, ?_, hroot, fun hne ↦ ?_⟩
  · refine Declaration.refers_of_details htypes (fun c hc ↦ ?_) (location_eq_ok hH hl)
    obtain ⟨hb, ha⟩ := hclass c hc
    exact ⟨hb, by simp [ha]⟩
  · obtain ⟨p, scope, found, rfl, ho, hfound⟩ := howner hne
    exact ⟨p, scope, found, rfl, hsource ▸ .record ho, hfound⟩

theorem declOf_eq_ok (hu : u.Sound unit records) (hH : u.slots.HeldBy H) {x : Declaration}
    (hd : d.get? u.slots.decls = some slot) (h : u.declOf settings d slot = .ok x) :
    u.Declares records H d slot x := by
  unfold declOf at h
  split at h
  next r hsource => exact declarationOf_eq_ok hu hH hsource h
  next owner child hsource => exact enumeratorOf_eq_ok hu hd hsource h

end AllocatedUnit

end ScopeForest
