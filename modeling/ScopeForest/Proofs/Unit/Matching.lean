import ScopeForest.Proofs.Types.Embedding
import ScopeForest.Proofs.Unit.Reading
import ScopeForest.Unit.Resolve

namespace ScopeForest

open Outcome

def DeclSlot.rename (r : Renaming) (slot : DeclSlot) : DeclSlot :=
  { slot with declared := slot.declared.map r.type }

def TypeSource.rename (r : Renaming) : TypeSource → TypeSource
  | .record x => .record x
  | .constHalf x inner => .constHalf x (r.type inner)
  | .volatileHalf x => .volatileHalf x
  | .declared d => .declared (r.decl d)

namespace Slots

/-- The same records and ids, with nodes that `r` renames. -/
structure Matches (r : Renaming) (s s' : Slots) : Prop where
  record : ∀ id, s'.record? id = s.record? id
  node : ∀ id, s'.registry.get? id = (s.registry.get? id).map r.node
  decl : ∀ {d : DeclId} {slot : DeclSlot}, d.get? s.decls = some slot →
    (r.decl d).get? s'.decls = some (slot.rename r)
  file : ∀ {id : ExternalId} {i : Nat}, s.files.findIdx? (·.1 == id) = some i →
    ∃ j, s'.files.findIdx? (·.1 == id) = some j ∧ r.file (Id.ofIndex i) = Id.ofIndex j

namespace Matches

variable {r : Renaming} {s s' : Slots} (h : s.Matches r s') (x : Record)

theorem requiredRef (s s' : Slots) (field : String) :
    Maps id (s.requiredRef x field) (s'.requiredRef x field) := by
  unfold Slots.requiredRef
  cases x.attrs.ref? field with
  | none => exact .error _ _ _
  | some id => exact .ok _ _

theorem requiredLiteral (s s' : Slots) (field : String) :
    Maps id (s.requiredLiteral x field) (s'.requiredLiteral x field) := by
  unfold Slots.requiredLiteral
  cases x.attrs.literal? field with
  | none => exact .error _ _ _
  | some text => exact .ok _ _

theorem childType (s s' : Slots) (child : ChildRecord) :
    Maps id (s.childType x child) (s'.childType x child) := by
  unfold Slots.childType
  cases child.attrs.ref? Field.type with
  | none => exact .error _ _ _
  | some id => exact .ok _ _

theorem number? (s s' : Slots) (bound : Nat) (field : String) :
    Maps id (s.number? x bound field) (s'.number? x bound field) := by
  unfold Slots.number?
  cases x.attrs.literal? field with
  | none => exact .ok _ _
  | some text =>
    by_cases hempty : text = ""
    · simp only [if_pos hempty]
      exact .ok _ _
    · simp only [if_neg hempty]
      cases Text.decimal? bound text with
      | none => exact .error _ _ _
      | some n => exact .ok _ _

theorem accessOr (s s' : Slots) (default : Access) (attrs : Attrs) :
    Maps id (s.accessOr x default attrs) (s'.accessOr x default attrs) := by
  unfold Slots.accessOr
  cases attrs.literal? Field.access with
  | none => exact .ok _ _
  | some text =>
    simp only
    cases Access.ofKeyword? text with
    | none => exact .error _ _ _
    | some access => exact .ok _ _

include h

theorem declSlot (d : DeclId) :
    Maps (·.rename r) (s.declSlot d) (s'.declSlot (r.decl d)) := by
  intro slot hslot
  have hd := h.decl (declSlot_eq_ok hslot)
  rw [Slots.declSlot, hd]

theorem resolveDecl (id user : ExternalId) :
    Maps r.decl (s.registry.resolveDecl id user) (s'.registry.resolveDecl id user) := by
  intro d hd
  have hget := h.node id
  rw [resolveDecl_eq_ok hd] at hget
  simp only [Registry.resolveDecl, Registry.resolveFrom, hget, Option.map_some, Renaming.node]

theorem declRef (id : ExternalId) : Maps r.decl (s.declRef x id) (s'.declRef x id) := by
  intro d hd
  rw [Slots.declRef, h.resolveDecl id x.id d (ofExcept_eq_ok hd)]
  rfl

theorem typeRef (id : ExternalId) : Maps r.type (s.typeRef x id) (s'.typeRef x id) := by
  refine Maps.bind (φ := r.node) ?_ fun node _ ↦ ?_
  · intro node hnode
    have hget := h.node id
    rw [resolveFrom_eq_ok (ofExcept_eq_ok hnode)] at hget
    rw [Registry.resolveFrom, hget]
    rfl
  · cases node with
    | type t => exact .ok _ _
    | decl d =>
      refine (h.declSlot d).bind fun slot _ ↦ ?_
      simp only [DeclSlot.rename]
      cases slot.declared with
      | none => exact .error _ _ _
      | some t => exact .ok _ _

theorem typeField (field : String) : Maps r.type (s.typeField x field) (s'.typeField x field) :=
  (requiredRef x s s' field).bind fun id _ ↦ h.typeRef x id

theorem typeField? (field : String) :
    Maps (Option.map r.type) (s.typeField? x field) (s'.typeField? x field) := by
  unfold Slots.typeField?
  cases x.attrs.ref? field with
  | none => exact .ok _ _
  | some id => exact (h.typeRef x id).map fun _ ↦ rfl

theorem classRef (id : ExternalId) : Maps r.decl (s.classRef x id) (s'.classRef x id) := by
  refine (h.declRef x id).bind fun d _ ↦ (h.declSlot d).bind fun slot _ ↦ ?_
  simp only [DeclSlot.rename]
  cases slot.kind with
  | classDecl | unionDecl => exact .ok _ _
  | _ => exact .error _ _ _

theorem fileRef (id : ExternalId) : Maps r.file (s.fileRef x id) (s'.fileRef x id) := by
  unfold Slots.fileRef
  cases hi : s.files.findIdx? (·.1 == id) with
  | none => exact .error _ _ _
  | some i =>
    obtain ⟨j, hj, hij⟩ := h.file hi
    rw [hj]
    simp only [← hij]
    exact .ok _ _

theorem signature : Maps (·.map r.type) (s.signature x) (s'.signature x) := by
  refine (h.typeField x _).bind fun returnType _ ↦ ?_
  refine (Maps.mapM_same fun child _ ↦ ?_).bind fun parameters _ ↦ .ok _ _
  exact (childType x s s' child).bind fun id _ ↦ h.typeRef x id

theorem methodType : Maps r.ty (s.methodType x) (s'.methodType x) := by
  refine (requiredRef x s s' _).bind fun id _ ↦ (h.classRef x id).bind fun cls _ ↦ ?_
  exact (h.signature x).bind fun sig _ ↦ .ok _ _

theorem pointerType : Maps r.ty (s.pointerType x) (s'.pointerType x) := by
  refine (requiredRef x s s' _).bind fun target _ ↦ ?_
  simp only [id, h.record target]
  cases (s.record? target).filter (·.tag == .methodType) with
  | some method => exact h.methodType method
  | none => exact (h.typeRef x target).bind fun t _ ↦ .ok _ _

theorem qualifiedType : Maps r.ty (s.qualifiedType x) (s'.qualifiedType x) := by
  refine (h.typeField x _).bind fun inner _ ↦ ?_
  split
  next => exact .ok _ _
  next =>
    split
    next => exact .ok _ _
    next => exact .error _ _ _

theorem templateArg (child : ChildRecord) :
    Maps (TemplateArg.map r.type) (s.templateArg x child) (s'.templateArg x child) := by
  unfold Slots.templateArg
  cases child.attrs.ref? Field.type with
  | some id => exact (h.typeRef x id).map fun _ ↦ rfl
  | none =>
    cases child.attrs.literal? Field.value with
    | some text => exact .ok _ _
    | none => exact .error _ _ _

theorem typeOfRecord : Maps r.ty (s.typeOfRecord x) (s'.typeOfRecord x) := by
  unfold Slots.typeOfRecord
  cases x.tag with
  | fundamentalType => exact (requiredLiteral x s s' _).map fun _ ↦ rfl
  | pointerType => exact h.pointerType x
  | referenceType => exact (h.typeField x _).map fun _ ↦ rfl
  | arrayType => exact (h.typeField x _).bind fun t _ ↦ .ok _ _
  | cvQualifiedType => exact h.qualifiedType x
  | functionType => exact (h.signature x).map fun _ ↦ rfl
  | methodType => exact h.methodType x
  | offsetType =>
    refine (requiredRef x s s' _).bind fun id _ ↦ (h.classRef x id).bind fun cls _ ↦ ?_
    exact (h.typeField x _).bind fun t _ ↦ .ok _ _
  | templateInstantiation =>
    refine (requiredRef x s s' _).bind fun id _ ↦ (h.declRef x id).bind fun template _ ↦ ?_
    exact (Maps.mapM_same fun child _ ↦ h.templateArg x child).bind fun args _ ↦ .ok _ _
  | _ => exact .error _ _ _

theorem typeOf (source : TypeSource) :
    Maps r.ty (s.typeOf source) (s'.typeOf (source.rename r)) := by
  cases source with
  | record x => exact h.typeOfRecord x
  | constHalf x inner => exact .ok _ _
  | volatileHalf x => exact (h.typeField x _).map fun _ ↦ rfl
  | declared d => exact .ok _ _

theorem checkReferences (hrecords : s'.records ⊆ s.records) (hok : s.checkReferences = .ok ()) :
    s'.checkReferences = .ok () := by
  have hcontains (id : ExternalId) : s'.registry.contains id = s.registry.contains id := by
    have hget := h.node id
    simp only [Registry.contains, NameMap.contains]
    unfold Registry.get? at hget
    rw [hget, Option.isSome_map]
  refine forM_of_forall fun x hx ↦ ?_
  have hdangling : s'.danglingRef? x = s.danglingRef? x := by
    simp only [Slots.danglingRef?, h.record, hcontains]
  have hclean := forM_eq_ok hok x (hrecords hx)
  rw [hdangling]
  cases hd : s.danglingRef? x with
  | none => rfl
  | some id =>
    rw [hd] at hclean
    cases hclean

end Matches

end Slots

def Declaration.inUnit (j : UnitId) (x : Declaration) : Declaration := { x with unit := j }

namespace AllocatedUnit

/-- The slots match, and so does the root; no other declaration becomes the root. -/
structure Matches (r : Renaming) (a a' : AllocatedUnit) : Prop where
  slots : a.slots.Matches r a'.slots
  length : a'.slots.decls.length = a.slots.decls.length
  root : a'.root = r.decl a.root
  eq_root : ∀ {d : DeclId} {slot : DeclSlot}, d.get? a.slots.decls = some slot →
    r.decl d = a'.root → d = a.root

namespace Matches

variable {r : Renaming} {a a' : AllocatedUnit} (h : a.Matches r a') (settings : BuilderSettings)
  (x : Record)

include h

theorem scopeFrom (fuel : Nat) (current : Record) :
    Maps r.decl (a.scopeFrom settings x fuel current) (a'.scopeFrom settings x fuel current) := by
  induction fuel generalizing current with
  | zero => exact .error _ _ _
  | succ fuel ih =>
    unfold AllocatedUnit.scopeFrom
    cases current.attrs.ref? Field.context with
    | none =>
      simp only [h.root]
      split
      next => exact .ok _ _
      next => exact .error _ _ _
    | some context =>
      refine (h.slots.declRef current context).bind fun scope _ ↦ ?_
      refine (h.slots.declSlot scope).bind fun slot _ ↦ ?_
      have hkind : (slot.rename r).kind = slot.kind := rfl
      have hrecord : (slot.rename r).record = slot.record := rfl
      simp only [hkind, hrecord]
      cases slot.kind.isScope with
      | true => exact .ok _ _
      | false =>
        cases slot.kind.isCallable with
        | true => exact ih slot.record
        | false => exact .error _ _ _

theorem parentOf {d : DeclId} {slot : DeclSlot} (hd : d.get? a.slots.decls = some slot) :
    Maps (Option.map r.decl) (a.parentOf settings d x) (a'.parentOf settings (r.decl d) x) := by
  unfold AllocatedUnit.parentOf
  by_cases hroot : d = a.root
  · rw [if_pos hroot, if_pos (hroot ▸ h.root.symm)]
    exact .ok _ _
  · rw [if_neg hroot, if_neg fun hd' ↦ hroot (h.eq_root hd hd')]
    unfold AllocatedUnit.scopeOf
    rw [h.length]
    exact (h.scopeFrom settings x _ x).map fun _ ↦ rfl

theorem accessIn (parent : Option DeclId) :
    Maps id (a.accessIn x parent) (a'.accessIn x (parent.map r.decl)) := by
  cases parent with
  | none => exact .ok _ _
  | some parent =>
    refine (h.slots.declSlot parent).bind fun slot _ ↦ ?_
    have hkey : (slot.rename r).classKey? = slot.classKey? := rfl
    rw [hkey]
    cases slot.classKey? with
    | none => exact .ok _ _
    | some key => exact (Slots.Matches.accessOr x _ _ _ _).map fun _ ↦ rfl

theorem location : Maps (Option.map r.location) (a.location x) (a'.location x) := by
  unfold AllocatedUnit.location
  cases x.attrs.ref? Field.file with
  | none => exact .ok _ _
  | some id =>
    refine (h.slots.fileRef x id).bind fun file _ ↦ ?_
    exact (Slots.Matches.number? x _ _ _ _).bind fun line _ ↦ .ok _ _

theorem baseOf (key : ClassKey) (child : ChildRecord) :
    Maps r.base (a.baseOf x key child) (a'.baseOf x key child) := by
  refine (Slots.Matches.childType x _ _ child).bind fun id _ ↦ ?_
  refine (Slots.Matches.accessOr x _ _ _ _).bind fun access _ ↦ ?_
  exact (h.slots.classRef x id).bind fun cls _ ↦ .ok _ _

theorem classDetails (key : ClassKey) :
    Maps r.classDetails (a.classDetails x key) (a'.classDetails x key) := by
  refine (Slots.Matches.number? x _ _ _ _).bind fun size _ ↦ ?_
  refine (h.slots.typeField? x _).bind fun instantiates _ ↦ ?_
  exact (Maps.mapM_same fun child _ ↦ h.baseOf x key child).bind fun bases _ ↦ .ok _ _

theorem variableDetails : Maps (fun v ↦ { v with type := r.type v.type }) (a.variableDetails x)
    (a'.variableDetails x) := by
  refine (h.slots.typeField x _).bind fun type _ ↦ ?_
  exact (Slots.Matches.number? x _ _ _ _).bind fun bits _ ↦ .ok _ _

theorem callableDetails :
    Maps r.callableDetails (a.callableDetails x) (a'.callableDetails x) := by
  have hparameter (child : ChildRecord) : Maps (fun p ↦ { p with type := r.type p.type })
      (a.parameter x child) (a'.parameter x child) := by
    refine (Slots.Matches.childType x _ _ child).bind fun id _ ↦ ?_
    exact (h.slots.typeRef x id).bind fun type _ ↦ .ok _ _
  refine (Maps.mapM_same fun child _ ↦ hparameter child).bind fun parameters _ ↦ ?_
  exact (h.slots.typeField? x _).bind fun returnType _ ↦ .ok _ _

theorem details (kind : DeclKind) : Maps r.details (a.details x kind) (a'.details x kind) := by
  cases kind with
  | namespaceDecl | enumDecl | enumerator => exact .ok _ _
  | classDecl | unionDecl => exact (h.classDetails x _).map fun _ ↦ rfl
  | variableDecl => exact (h.variableDetails x).map fun _ ↦ rfl
  | typedef => exact (h.slots.typeField x _).map fun _ ↦ rfl
  | function | memberFunction | constructor | destructor | operator =>
    exact (h.callableDetails x).map fun _ ↦ rfl

theorem enumeratorOf (d : DeclId) (slot : DeclSlot) (child : ChildRecord) :
    Maps (fun y ↦ (r.declaration (r.decl d) y).inUnit a'.slots.unit) (a.enumeratorOf d slot x child)
      (a'.enumeratorOf (r.decl d) (slot.rename r) x child) := by
  refine Maps.bind (φ := id) ?_ fun name _ ↦ ?_
  · unfold AllocatedUnit.enumeratorName
    cases child.attrs.literal? Field.name with
    | none => exact .error _ _ _
    | some name => exact .ok _ _
  · refine Maps.bind (φ := r.decl) ?_ fun parent _ ↦ .ok _ _
    intro p hp
    have hresolved := h.slots.resolveDecl x.id slot.externalId p (ofExcept_eq_ok hp)
    simp only [DeclSlot.rename, hresolved]
    rfl

omit h in
theorem anonymous_eq {unnamed : Bool} (hunit : a'.slots.unit = a.slots.unit ∨
      (if unnamed then some (a.anonymousName settings x.id) else none) = none) :
    (if unnamed then some (a'.anonymousName settings x.id) else none) =
      if unnamed then some (a.anonymousName settings x.id) else none := by
  rcases hunit with hunit | hnone
  · rw [AllocatedUnit.anonymousName, hunit]
    rfl
  · cases unnamed with
    | true => cases hnone
    | false => rfl

/-- Only the name made up for an unnamed scope depends on the number of the unit. -/
theorem declarationOf {d : DeclId} {slot : DeclSlot} {y : Declaration}
    (hd : d.get? a.slots.decls = some slot) (hy : a.declarationOf settings d slot x = .ok y)
    (hunit : a'.slots.unit = a.slots.unit ∨ y.anonymous = none) :
    a'.declarationOf settings (r.decl d) (slot.rename r) x =
      .ok ((r.declaration (r.decl d) y).inUnit a'.slots.unit) := by
  obtain ⟨parent, hparent, hy⟩ := bind_eq_ok hy
  obtain ⟨access, haccess, hy⟩ := bind_eq_ok hy
  obtain ⟨location, hlocation, hy⟩ := bind_eq_ok hy
  obtain ⟨details, hdetails, hy⟩ := bind_eq_ok hy
  cases hy
  have hroot : (r.decl d == a'.root) = (d == a.root) := by
    rw [Bool.eq_iff_iff, beq_iff_eq, beq_iff_eq]
    exact ⟨h.eq_root hd, fun hd' ↦ hd' ▸ h.root.symm⟩
  have hparent' := h.parentOf settings x hd parent hparent
  have haccess' := h.accessIn x parent access haccess
  have hlocation' := h.location x location hlocation
  have hdetails' := h.details x slot.kind details hdetails
  have hkind : (slot.rename r).kind = slot.kind := rfl
  have hanonymous := anonymous_eq settings x hunit
  unfold AllocatedUnit.declarationOf
  simp only [hroot, hkind, hparent', haccess', hlocation', hdetails', hanonymous, id, bind,
    Except.bind]
  rfl

theorem declOf {d : DeclId} {slot : DeclSlot} {y : Declaration}
    (hd : d.get? a.slots.decls = some slot) (hy : a.declOf settings d slot = .ok y)
    (hunit : a'.slots.unit = a.slots.unit ∨ y.anonymous = none) :
    a'.declOf settings (r.decl d) (slot.rename r) =
      .ok ((r.declaration (r.decl d) y).inUnit a'.slots.unit) := by
  have hsource : (slot.rename r).source = slot.source := rfl
  unfold AllocatedUnit.declOf at hy ⊢
  rw [hsource]
  cases hs : slot.source with
  | record x =>
    rw [hs] at hy
    exact h.declarationOf settings x hd hy hunit
  | enumerator owner child =>
    rw [hs] at hy
    exact h.enumeratorOf owner d slot child y hy

end Matches

end AllocatedUnit

end ScopeForest
