import ScopeForest.Proofs.Unit.Allocation
import ScopeForest.Proofs.Unit.Describing
import ScopeForest.Unit.Types

namespace ScopeForest

namespace Slots

variable {s : Slots} {r : Record}

/-- The type that an id stands for; a type declaration stands for the type that it declares. -/
def NamesType (s : Slots) (x : ExternalId) (t : TypeId) : Prop :=
  s.registry.get? x = some (.type t) ∨
    ∃ d, s.registry.get? x = some (.decl d) ∧ t.get? s.types = some (.declared d)

def NamesDecl (s : Slots) (x : ExternalId) (d : DeclId) : Prop :=
  s.registry.get? x = some (.decl d)

def NamesClass (s : Slots) (x : ExternalId) (d : DeclId) : Prop :=
  s.NamesDecl x d ∧
    ∃ slot, d.get? s.decls = some slot ∧ (slot.kind = .classDecl ∨ slot.kind = .unionDecl)

abbrev DescribesNode (s : Slots) (N : TypeId → Ty → Prop) (r : Record) (node : Ty) : Prop :=
  Describes s.record? s.NamesType s.NamesClass s.NamesDecl N r node

theorem resolveFrom_eq_ok {registry : Registry} {x user : ExternalId} {node : Node}
    (h : registry.resolveFrom x user = .ok node) : registry.get? x = some node := by
  unfold Registry.resolveFrom at h
  split at h
  next found hf =>
    cases h
    exact hf
  next => cases h

theorem resolveDecl_eq_ok {registry : Registry} {x user : ExternalId} {d : DeclId}
    (h : registry.resolveDecl x user = .ok d) : registry.get? x = some (.decl d) := by
  unfold Registry.resolveDecl at h
  split at h
  next found hf =>
    cases h
    exact resolveFrom_eq_ok hf
  next => cases h
  next => cases h

theorem declRef_eq_ok {x : ExternalId} {d : DeclId} (h : s.declRef r x = .ok d) :
    s.NamesDecl x d :=
  resolveDecl_eq_ok (Outcome.ofExcept_eq_ok h)

theorem declSlot_eq_ok {d : DeclId} {slot : DeclSlot} (h : s.declSlot d = .ok slot) :
    d.get? s.decls = some slot := by
  unfold declSlot at h
  split at h
  next found hf =>
    cases h
    exact hf
  next => cases h

theorem classRef_eq_ok {x : ExternalId} {d : DeclId} (h : s.classRef r x = .ok d) :
    s.NamesClass x d := by
  obtain ⟨e, he, h⟩ := Outcome.bind_eq_ok h
  obtain ⟨slot, hslot, h⟩ := Outcome.bind_eq_ok h
  have hslot := declSlot_eq_ok hslot
  split at h
  next hk =>
    cases h
    exact ⟨declRef_eq_ok he, slot, hslot, .inl hk⟩
  next hk =>
    cases h
    exact ⟨declRef_eq_ok he, slot, hslot, .inr hk⟩
  next => cases h

theorem Backs.declared {d : DeclId} {slot : DeclSlot} {t : TypeId} (h : s.Backs d slot)
    (ht : slot.declared = some t) :
    slot.kind.isTypeDeclaration ∧ t.get? s.types = some (.declared d) := by
  cases h with
  | record hr hk hd =>
    cases ht
    split at hd
    next hkind =>
      obtain ⟨u, hu, hget⟩ := hd
      cases hu
      exact ⟨hkind, hget⟩
    next => cases hd
  | enumerator hr he hc => cases ht

variable {spelled : Bool}

theorem typeRef_eq_ok (hs : s.Sound spelled) {x : ExternalId} {t : TypeId}
    (h : s.typeRef r x = .ok t) : s.NamesType x t := by
  obtain ⟨node, hnode, h⟩ := Outcome.bind_eq_ok h
  have hnode := resolveFrom_eq_ok (Outcome.ofExcept_eq_ok hnode)
  cases node with
  | type u =>
    cases h
    exact .inl hnode
  | decl d =>
    obtain ⟨slot, hslot, h⟩ := Outcome.bind_eq_ok h
    have hslot := declSlot_eq_ok hslot
    split at h
    next ht =>
      cases h
      exact .inr ⟨d, hnode, ((hs.backs hslot).declared ht).2⟩
    next => cases h

theorem requiredRef_eq_ok {field : String} {x : ExternalId} (h : s.requiredRef r field = .ok x) :
    r.attrs.ref? field = some x := by
  unfold requiredRef at h
  split at h
  next found hf =>
    cases h
    exact hf
  next => cases h

theorem requiredLiteral_eq_ok {field text : String} (h : s.requiredLiteral r field = .ok text) :
    r.attrs.literal? field = some text := by
  unfold requiredLiteral at h
  split at h
  next found hf =>
    cases h
    exact hf
  next => cases h

theorem childType_eq_ok {child : ChildRecord} {x : ExternalId} (h : s.childType r child = .ok x) :
    child.attrs.ref? Field.type = some x := by
  unfold childType at h
  split at h
  next found hf =>
    cases h
    exact hf
  next => cases h

theorem typeField_eq_ok (hs : s.Sound spelled) {field : String} {t : TypeId}
    (h : s.typeField r field = .ok t) : ∃ x, r.attrs.ref? field = some x ∧ s.NamesType x t := by
  obtain ⟨x, hx, h⟩ := Outcome.bind_eq_ok h
  exact ⟨x, requiredRef_eq_ok hx, typeRef_eq_ok hs h⟩

theorem signature_eq_ok (hs : s.Sound spelled) {sig : Signature} (h : s.signature r = .ok sig) :
    DescribesSignature s.NamesType r sig := by
  obtain ⟨returnType, hr, h⟩ := Outcome.bind_eq_ok h
  obtain ⟨parameters, hp, h⟩ := Outcome.bind_eq_ok h
  cases h
  refine ⟨typeField_eq_ok hs hr, (Outcome.mapM_eq_ok hp).imp ?_, rfl, rfl, rfl⟩
  intro child t h
  obtain ⟨x, hx, h⟩ := Outcome.bind_eq_ok h
  exact ⟨x, childType_eq_ok hx, typeRef_eq_ok hs h⟩

theorem methodType_eq_ok (hs : s.Sound spelled) {node : Ty} (h : s.methodType r = .ok node) :
    ∃ cls sig, node = .memberFunctionPointer cls sig ∧
      DescribesMethod s.NamesType s.NamesClass r cls sig := by
  obtain ⟨x, hx, h⟩ := Outcome.bind_eq_ok h
  obtain ⟨cls, hc, h⟩ := Outcome.bind_eq_ok h
  obtain ⟨sig, hsig, h⟩ := Outcome.bind_eq_ok h
  cases h
  exact ⟨cls, sig, rfl, ⟨x, requiredRef_eq_ok hx, classRef_eq_ok hc⟩, signature_eq_ok hs hsig⟩

theorem templateArg_eq_ok (hs : s.Sound spelled) {child : ChildRecord} {arg : TemplateArg}
    (h : s.templateArg r child = .ok arg) : DescribesArg s.NamesType child arg := by
  unfold templateArg at h
  split at h
  next x _ hx =>
    obtain ⟨t, ht, rfl⟩ := Outcome.map_eq_ok h
    exact .type hx (typeRef_eq_ok hs ht)
  next hx hv =>
    cases h
    exact .value hx hv
  next => cases h

section Nodes

variable {N : TypeId → Ty → Prop} {node : Ty}

theorem pointerType_eq_ok (hs : s.Sound spelled) (hr : r.tag = .pointerType)
    (h : s.pointerType r = .ok node) : s.DescribesNode N r node := by
  obtain ⟨x, hx, h⟩ := Outcome.bind_eq_ok h
  have hx := requiredRef_eq_ok hx
  split at h
  next m hm =>
    obtain ⟨hm, hk⟩ := Option.filter_eq_some_iff.mp hm
    obtain ⟨cls, sig, rfl, hd⟩ := methodType_eq_ok hs h
    exact .methodPointer hr hx hm (beq_iff_eq.mp hk) hd
  next hm =>
    obtain ⟨t, ht, h⟩ := Outcome.bind_eq_ok h
    cases h
    refine .pointer hr hx (fun m hx hk ↦ ?_) (typeRef_eq_ok hs ht)
    simp [hx, hk] at hm

theorem qualifiedType_eq_ok (hs : s.Sound spelled) (hr : r.tag = .cvQualifiedType)
    (hq : ¬r.TwiceQualified) (h : s.qualifiedType r = .ok node) : s.DescribesNode N r node := by
  obtain ⟨t, ht, h⟩ := Outcome.bind_eq_ok h
  obtain ⟨x, hx, ht⟩ := typeField_eq_ok hs ht
  split at h
  next hc =>
    cases h
    have hv : r.attrs.flag Field.volatile = false := by
      simpa [Record.TwiceQualified, hr, hc] using hq
    exact .const hr hc hv hx ht
  next hc =>
    split at h
    next hv =>
      cases h
      exact .volatile hr (by simpa using hc) hv hx ht
    next => cases h

theorem typeOfRecord_eq_ok (hs : s.Sound spelled) (hq : ¬r.TwiceQualified)
    (h : s.typeOfRecord r = .ok node) : s.DescribesNode N r node := by
  unfold typeOfRecord at h
  split at h
  next hr =>
    obtain ⟨name, hn, rfl⟩ := Outcome.map_eq_ok h
    exact .fundamental hr (requiredLiteral_eq_ok hn)
  next hr => exact pointerType_eq_ok hs hr h
  next hr =>
    obtain ⟨t, ht, rfl⟩ := Outcome.map_eq_ok h
    obtain ⟨x, hx, ht⟩ := typeField_eq_ok hs ht
    exact .reference hr hx ht
  next hr =>
    obtain ⟨t, ht, h⟩ := Outcome.bind_eq_ok h
    obtain ⟨x, hx, ht⟩ := typeField_eq_ok hs ht
    cases h
    exact .array hr hx ht
  next hr => exact qualifiedType_eq_ok hs hr hq h
  next hr =>
    obtain ⟨sig, hsig, rfl⟩ := Outcome.map_eq_ok h
    exact .function hr (signature_eq_ok hs hsig)
  next hr =>
    obtain ⟨cls, sig, rfl, hd⟩ := methodType_eq_ok hs h
    exact .method hr hd
  next hr =>
    obtain ⟨y, hy, h⟩ := Outcome.bind_eq_ok h
    obtain ⟨cls, hc, h⟩ := Outcome.bind_eq_ok h
    obtain ⟨t, ht, h⟩ := Outcome.bind_eq_ok h
    obtain ⟨x, hx, ht⟩ := typeField_eq_ok hs ht
    cases h
    exact .offset hr (requiredRef_eq_ok hy) (classRef_eq_ok hc) hx ht
  next hr =>
    obtain ⟨y, hy, h⟩ := Outcome.bind_eq_ok h
    obtain ⟨template, hd, h⟩ := Outcome.bind_eq_ok h
    obtain ⟨args, ha, h⟩ := Outcome.bind_eq_ok h
    cases h
    exact .instantiation hr (requiredRef_eq_ok hy) (declRef_eq_ok hd)
      ((Outcome.mapM_eq_ok ha).imp fun _ _ h ↦ templateArg_eq_ok hs h)
  next => cases h

end Nodes

end Slots

end ScopeForest
