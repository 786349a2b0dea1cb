import ScopeForest.Proofs.Unit.Binding
import ScopeForest.Proofs.Unit.Building

namespace ScopeForest

open Outcome Relation

theorem Outcome.forM_cases {ε α : Type} (f : α → Except ε Unit) (xs : List α) :
    xs.forM f = .ok () ∨ ∃ x ∈ xs, f x ≠ .ok () ∧ xs.forM f = f x := by
  induction xs with
  | nil => exact .inl rfl
  | cons x xs ih =>
    change (f x >>= fun _ ↦ xs.forM f) = .ok () ∨
      ∃ y ∈ x :: xs, f y ≠ .ok () ∧ (f x >>= fun _ ↦ xs.forM f) = f y
    cases hx : f x with
    | error e => exact .inr ⟨x, List.mem_cons_self, by simp [hx], hx.symm⟩
    | ok r =>
      rcases ih with ih | ⟨y, hy, hne, ih⟩
      · exact .inl ih
      · exact .inr ⟨y, List.mem_cons_of_mem x hy, hne, ih⟩

theorem Attrs.mem_references {attrs : Attrs} {field : String} {x : ExternalId}
    (h : attrs.ref? field = some x) : x ∈ attrs.references := by
  unfold ref? at h
  split at h
  next id hid =>
    cases h
    obtain ⟨before, after, hentries, -⟩ := List.lookup_eq_some_iff.mp hid
    have hmem : AttrValue.ref x ∈ attrs.values := by
      rw [NameMap.values, hentries]
      simp
    exact List.mem_flatMap.mpr ⟨_, hmem, List.mem_singleton_self x⟩
  next => cases h

/-- The record `r` stands in the body of the function `q`. -/
structure InBody (records : List Record) (r q : Record) : Prop where
  mem : q ∈ records
  context : r.attrs.ref? Field.context = some q.id
  callable : ∃ kind, q.tag.declKind? = some kind ∧ kind.isCallable

/-- The way from function to function never ends. -/
def Endless (records : List Record) (r : Record) : Prop :=
  ∃ way : Nat → Record, way 0 = r ∧ ∀ n, InBody records (way n) (way (n + 1))

theorem Endless.step {records : List Record} {r : Record} (h : Endless records r) :
    ∃ q, InBody records r q ∧ Endless records q := by
  obtain ⟨way, rfl, hway⟩ := h
  exact ⟨way 1, hway 0, fun n ↦ way (n + 1), rfl, fun n ↦ hway (n + 1)⟩

theorem acc_of_not_endless {records : List Record} {r : Record} (h : ¬Endless records r) :
    Acc (fun q r ↦ InBody records r q) r := by
  rw [acc_iff_isEmpty_descending_chain]
  exact ⟨fun ⟨way, hway⟩ ↦ h ⟨way, hway⟩⟩

namespace AllocatedUnit

/-- What the search gives where its way ends, at the record `r`. -/
inductive Stops (a : AllocatedUnit) (settings : BuilderSettings) (records : List Record)
    (r : Record) : Outcome DeclId → Prop
  | scope {q : Record} {d : DeclId} {slot : DeclSlot} (hq : q ∈ records)
      (hx : r.attrs.ref? Field.context = some q.id) (hd : d.get? a.slots.decls = some slot)
      (hs : slot.source = .record q) (hk : slot.kind.isScope) : Stops a settings records r (.ok d)
  | root (hx : r.attrs.ref? Field.context = none) (hl : settings.lenientContext = true) :
      Stops a settings records r (.ok a.root)
  | missing (hx : r.attrs.ref? Field.context = none) (hl : settings.lenientContext = false) :
      Stops a settings records r (refuse (.missingField a.slots.unit r.id Field.context))
  /-- The context is a variable or a typedef. -/
  | declaration {q : Record} {kind : DeclKind} (hq : q ∈ records)
      (hx : r.attrs.ref? Field.context = some q.id) (hk : q.tag.declKind? = some kind)
      (hs : ¬kind.isScope) (hc : ¬kind.isCallable) :
      Stops a settings records r (refuse (.unexpectedNode a.slots.unit q.id .scope))
  | enumerator {q : Record} {x : ExternalId} (hq : q ∈ records) (hi : x ∈ q.enumeratorIds)
      (hx : r.attrs.ref? Field.context = some x) :
      Stops a settings records r (refuse (.unexpectedNode a.slots.unit x .scope))
  | type {q : Record} (hq : q ∈ records) (hx : r.attrs.ref? Field.context = some q.id)
      (ht : q.tag.isType) :
      Stops a settings records r (refuse (.unexpectedNode a.slots.unit q.id .declaration))
  /-- A file has no binding, unless an enumerator has the same id. -/
  | file {q : Record} (hq : q ∈ records) (hx : r.attrs.ref? Field.context = some q.id)
      (ht : q.tag = .file) (hnot : ∀ e ∈ records, q.id ∉ e.enumeratorIds) :
      Stops a settings records r (refuse (.unresolvedReference a.slots.unit q.id r.id))

/-- What the search for the scope of a record gives. -/
inductive Finds (a : AllocatedUnit) (settings : BuilderSettings) (records : List Record)
    (r : Record) : Outcome DeclId → Prop
  | stops {q : Record} {o : Outcome DeclId} (h : ReflTransGen (InBody records) r q)
      (ho : a.Stops settings records q o) : Finds a settings records r o
  | endless (h : Endless records r) : Finds a settings records r
      (refuse (.invalidField a.slots.unit r.id Field.context r.id))

variable {a : AllocatedUnit} {settings : BuilderSettings} {unit : UnitId} {records : List Record}
  {r q start : Record} {d : DeclId} {o : Outcome DeclId} {fuel : Nat}
  {decls : List Declaration} {u : ResolvedUnit}

section Search

variable (ha : a.Sound unit records)

include ha

theorem Sound.get?_decl {kind : DeclKind} (hq : q ∈ records) (hk : q.tag.declKind? = some kind) :
    ∃ d slot, a.slots.registry.get? q.id = some (.decl d) ∧ d.get? a.slots.decls = some slot ∧
      slot.source = .record q ∧ slot.kind = kind := by
  obtain ⟨d, declared, hd⟩ := (ha.slots.covers (ha.records ▸ hq)).decl hk
  exact ⟨d, _, ha.slots.bound.decl.mpr ⟨_, hd, rfl⟩, hd, rfl, rfl⟩

theorem Sound.eq_of_id (hr : r ∈ records) (hq : q ∈ records) (h : r.id = q.id) : r = q := by
  have hnodup := ha.slots.nodup
  rw [ha.records] at hnodup
  exact List.inj_on_of_nodup_map hnodup hr hq h

theorem Sound.exists_record {x : ExternalId} (hrefs : a.slots.checkReferences = .ok ())
    (hr : r ∈ records) (hx : x ∈ r.attrs.references) (hfree : a.slots.registry.get? x = none) :
    ∃ q ∈ records, q.id = x := by
  have hnone := forM_eq_ok hrefs r (ha.records ▸ hr)
  split at hnone
  next hdangling =>
    have hheld := List.find?_eq_none.mp hdangling x (List.mem_append_left _ hx)
    have hunbound : a.slots.registry.contains x = false := by
      rw [Registry.contains, NameMap.contains, ← Registry.get?, hfree]
      rfl
    have hfound : (a.slots.record? x).isSome := by
      simpa [hunbound, Option.isSome_iff_ne_none] using hheld
    obtain ⟨q, hq⟩ := Option.isSome_iff_exists.mp hfound
    exact ⟨q, ha.records ▸ List.mem_of_find?_eq_some hq, by simpa using List.find?_some hq⟩
  next => cases hnone

omit ha in
theorem scopeFrom_of_decl {x : ExternalId} {slot : DeclSlot}
    (hx : r.attrs.ref? Field.context = some x) (hd : a.slots.registry.get? x = some (.decl d))
    (hslot : d.get? a.slots.decls = some slot) :
    a.scopeFrom settings start (fuel + 1) r =
      if slot.kind.isScope then .ok d
      else if slot.kind.isCallable then a.scopeFrom settings start fuel slot.record
      else refuse (.unexpectedNode a.slots.unit x .scope) := by
  have hdecl : a.slots.declRef r x = .ok d := by
    rw [Slots.declRef, Registry.resolveDecl, Registry.resolveFrom, hd]
    rfl
  rw [scopeFrom]
  simp only [hx, hdecl, Slots.declSlot, hslot, bind, Except.bind]
  rfl

theorem scopeFrom_step (h : InBody records r q) :
    a.scopeFrom settings start (fuel + 1) r = a.scopeFrom settings start fuel q := by
  obtain ⟨kind, hk, hc⟩ := h.callable
  obtain ⟨d, slot, hd, hslot, hsource, rfl⟩ := ha.get?_decl h.mem hk
  have hscope : ¬slot.kind.isScope := by
    cases hkind : slot.kind <;> simp_all [DeclKind.isScope, DeclKind.isCallable]
  rw [scopeFrom_of_decl h.context hd hslot, if_neg hscope, if_pos hc, DeclSlot.record, hsource]

theorem Stops.scopeFrom (h : a.Stops settings records r o) :
    a.scopeFrom settings start (fuel + 1) r = o := by
  have hrefuse {x : ExternalId} {e : GraphError} (hx : r.attrs.ref? Field.context = some x)
      (he : a.slots.registry.resolveDecl x r.id = .error e) :
      a.scopeFrom settings start (fuel + 1) r = refuse e := by
    rw [AllocatedUnit.scopeFrom]
    simp only [hx, Slots.declRef, he]
    rfl
  have hunit := ha.slots.bound.unit
  cases h with
  | @scope q d slot hq hx hd hs hk =>
    have hid : slot.externalId = q.id := by
      cases ha.slots.backs hd <;> simp_all
    rw [scopeFrom_of_decl hx (ha.slots.bound.decl.mpr ⟨slot, hd, hid⟩) hd, if_pos hk]
  | root hx hl =>
    rw [AllocatedUnit.scopeFrom, hx]
    simp [hl]
  | missing hx hl =>
    rw [AllocatedUnit.scopeFrom, hx]
    simp [hl, Slots.missing]
  | declaration hq hx hk hs hc =>
    obtain ⟨d, slot, hd, hslot, -, rfl⟩ := ha.get?_decl hq hk
    rw [scopeFrom_of_decl hx hd hslot, if_neg hs, if_neg hc]
  | @enumerator q x hq hi hx =>
    obtain ⟨ht, i, child, hc, rfl⟩ := Record.mem_enumeratorIds_iff.mp hi
    obtain ⟨d, hd⟩ := (ha.slots.covers (ha.records ▸ hq)).enumerator ht hc
    rw [scopeFrom_of_decl hx (ha.slots.bound.decl.mpr ⟨_, hd, rfl⟩) hd]
    rfl
  | type hq hx ht =>
    obtain ⟨t, hbound⟩ := ha.slots.bound_of_isType (ha.records ▸ hq) ht
    refine hrefuse hx ?_
    rw [Registry.resolveDecl, Registry.resolveFrom, hbound, hunit]
  | @file q hq hx ht hnot =>
    have hfree : a.slots.registry.get? q.id = none := by
      rw [Option.eq_none_iff_forall_ne_some]
      intro node hnode
      have hcarries := ha.slots.carries hnode
      rw [ha.records] at hcarries
      -- the record with the id is the file, which carries nothing
      have hsame {p : Record} (hp : p ∈ records) (hid : p.id = q.id) : p.tag = .file := by
        rw [ha.eq_of_id hp hq hid]
        exact ht
      cases hcarries with
      | decl hp hid hd hs hk =>
        rw [hsame hp hid] at hk
        cases hk
      | enumerator hp htag hc hid hd hs =>
        exact hnot _ hp (Record.mem_enumeratorIds_iff.mpr ⟨htag, _, _, hc, hid⟩)
      | type hp hid htype hq hs =>
        rw [hsame hp hid] at htype
        cases htype
      | constHalf hp hid hq hs =>
        have htag := hsame hp hid
        rw [hq.1] at htag
        cases htag
    refine hrefuse hx ?_
    rw [Registry.resolveDecl, Registry.resolveFrom, hfree, hunit]

theorem Stops.not_inBody (h : a.Stops settings records r o) : ¬InBody records r q := by
  intro hq
  have hstep : o = refuse (.invalidField a.slots.unit r.id Field.context r.id) := by
    have hend : a.scopeFrom settings r 1 r = o := h.scopeFrom ha
    rw [← hend, scopeFrom_step ha hq]
    rfl
  subst hstep
  cases h

theorem inBody_unique (hq : InBody records r q) {p : Record} (hp : InBody records r p) : q = p := by
  refine ha.eq_of_id hq.mem hp.mem (Option.some_inj.mp ?_)
  rw [← hq.context, ← hp.context]

theorem inBody_or_stops (hrefs : a.slots.checkReferences = .ok ()) (hr : r ∈ records) :
    (∃ q, InBody records r q) ∨ ∃ o, a.Stops settings records r o := by
  cases hx : r.attrs.ref? Field.context with
  | none =>
    cases hl : settings.lenientContext with
    | true => exact .inr ⟨_, .root hx hl⟩
    | false => exact .inr ⟨_, .missing hx hl⟩
  | some x =>
    cases hget : a.slots.registry.get? x with
    | some node =>
      have hcarries := ha.slots.carries hget
      rw [ha.records] at hcarries
      cases hcarries with
      | @decl q d slot hq hid hd hs hk =>
        rw [← hid] at hx
        by_cases hscope : slot.kind.isScope
        · exact .inr ⟨_, .scope hq hx hd hs hscope⟩
        · by_cases hcallable : slot.kind.isCallable
          · exact .inl ⟨q, hq, hx, _, hk, hcallable⟩
          · exact .inr ⟨_, .declaration hq hx hk hscope hcallable⟩
      | enumerator hq ht hc hid hd hs =>
        exact .inr ⟨_, .enumerator hq (Record.mem_enumeratorIds_iff.mpr ⟨ht, _, _, hc, hid⟩) hx⟩
      | type hq hid ht hqual hs => exact .inr ⟨_, .type hq (hid ▸ hx) ht⟩
      | constHalf hq hid hqual hs =>
        exact .inr ⟨_, .type hq (hid ▸ hx) (by rw [hqual.1]; rfl)⟩
    | none =>
      obtain ⟨q, hq, rfl⟩ := ha.exists_record hrefs hr (Attrs.mem_references hx) hget
      have hfree (e : Record) (he : e ∈ records) : q.id ∉ e.ids := fun hmem ↦ by
        obtain ⟨node, hnode⟩ := ha.slots.bound_of_mem (ha.records ▸ he) hmem
        rw [hget] at hnode
        cases hnode
      have hfile : q.tag = .file := by
        by_contra hf
        exact hfree q hq (Record.id_mem_ids hf)
      refine .inr ⟨_, .file hq hx hfile fun e he hmem ↦ hfree e he ?_⟩
      exact Record.mem_ids_of_mem_enumeratorIds hmem

theorem exists_stops (hrefs : a.slots.checkReferences = .ok ()) (hr : r ∈ records)
    (h : Acc (fun q r ↦ InBody records r q) r) :
    ∃ q o, ReflTransGen (InBody records) r q ∧ a.Stops settings records q o := by
  induction h with
  | intro r _ ih =>
    rcases inBody_or_stops ha hrefs hr with ⟨q, hq⟩ | ⟨o, ho⟩
    · obtain ⟨p, o, hp, ho⟩ := ih q hq hq.mem
      exact ⟨p, o, .head hq hp, ho⟩
    · exact ⟨r, o, .refl, ho⟩

theorem acc_of_stops (h : ReflTransGen (InBody records) r q) (ho : a.Stops settings records q o) :
    Acc (fun q r ↦ InBody records r q) r := by
  induction h using ReflTransGen.head_induction_on with
  | refl => exact ⟨_, fun p hp ↦ absurd hp (ho.not_inBody ha)⟩
  | head hstep _ ih => exact ⟨_, fun p hp ↦ inBody_unique ha hstep hp ▸ ih⟩

/-- Functions that are left for good can be counted down, and there are no more of them than slots. -/
theorem exists_countdown : ∃ depth : Record → Nat, (∀ r, depth r ≤ a.slots.decls.length) ∧
    ∀ {r q}, InBody records r q → Acc (fun q r ↦ InBody records r q) q → depth q < depth r := by
  obtain ⟨depth, hle, hlt⟩ :=
    Store.exists_depth (InBody records) (a.slots.decls.map DeclSlot.record)
  refine ⟨depth, fun r ↦ by simpa using hle r, fun {r q} hq hacc ↦ ?_⟩
  refine hlt (.single hq) ?_ (Store.not_transGen_of_acc hacc)
  obtain ⟨kind, hk, -⟩ := hq.callable
  obtain ⟨d, slot, -, hslot, hsource, -⟩ := ha.get?_decl hq.mem hk
  exact List.mem_map.mpr ⟨slot, Id.mem_of_get? hslot, by rw [DeclSlot.record, hsource]⟩

theorem scopeOf_of_stops (h : ReflTransGen (InBody records) r q)
    (ho : a.Stops settings records q o) : a.scopeOf settings r = o := by
  obtain ⟨depth, hle, hlt⟩ := exists_countdown ha
  have hwalk {fuel : Nat} {start current : Record} (h : ReflTransGen (InBody records) current q)
      (hfuel : depth current < fuel) : a.scopeFrom settings start fuel current = o := by
    induction h using ReflTransGen.head_induction_on generalizing fuel with
    | refl =>
      obtain ⟨n, rfl⟩ : ∃ n, fuel = n + 1 := ⟨fuel - 1, by omega⟩
      exact ho.scopeFrom ha
    | head hstep hrest ih =>
      obtain ⟨n, rfl⟩ : ∃ n, fuel = n + 1 := ⟨fuel - 1, by omega⟩
      have hless := hlt hstep (acc_of_stops ha hrest ho)
      rw [scopeFrom_step ha hstep]
      exact ih (by omega)
  exact hwalk h (Nat.lt_succ_of_le (hle r))

theorem scopeFrom_of_endless (h : Endless records r) : a.scopeFrom settings start fuel r =
    refuse (.invalidField a.slots.unit start.id Field.context start.id) := by
  induction fuel generalizing r with
  | zero => rfl
  | succ fuel ih =>
    obtain ⟨q, hq, hrest⟩ := h.step
    rw [scopeFrom_step ha hq]
    exact ih hrest

theorem scopeOf_eq_iff (hrefs : a.slots.checkReferences = .ok ()) (hr : r ∈ records) :
    a.scopeOf settings r = o ↔ a.Finds settings records r o := by
  constructor
  · rintro rfl
    by_cases hend : Endless records r
    · rw [scopeOf, scopeFrom_of_endless ha hend]
      exact .endless hend
    · obtain ⟨q, o, hq, ho⟩ := exists_stops ha hrefs hr (acc_of_not_endless hend)
      rw [scopeOf_of_stops ha hq ho]
      exact .stops hq ho
  · intro h
    cases h with
    | stops hq ho => exact scopeOf_of_stops ha hq ho
    | endless hend => exact scopeFrom_of_endless ha hend

theorem invalidField_iff (hrefs : a.slots.checkReferences = .ok ()) (hr : r ∈ records) :
    (∃ id value, a.scopeOf settings r =
      refuse (.invalidField a.slots.unit id Field.context value)) ↔ Endless records r := by
  constructor
  · rintro ⟨id, value, h⟩
    cases (scopeOf_eq_iff ha hrefs hr).mp h with
    | stops _ ho => cases ho
    | endless hend => exact hend
  · exact fun hend ↦ ⟨r.id, r.id, scopeFrom_of_endless ha hend⟩

theorem Finds.held (h : a.Finds settings records r (.ok d)) :
    ∃ slot, d.get? a.slots.decls = some slot := by
  cases h with
  | stops _ ho =>
    cases ho with
    | scope _ _ hd _ _ => exact ⟨_, hd⟩
    | root =>
      obtain ⟨r, hr, -⟩ := ha.rootSlot
      exact ⟨_, hr⟩

end Search

inductive Encloses (a : AllocatedUnit) (settings : BuilderSettings) (records : List Record)
    (p d : DeclId) : Prop
  | record {r : Record} {slot : DeclSlot} (hd : d.get? a.slots.decls = some slot)
      (hs : slot.source = .record r) (hne : d ≠ a.root)
      (h : a.Finds settings records r (.ok p))
  | enumerator {r : Record} {child : ChildRecord} {slot : DeclSlot}
      (hd : d.get? a.slots.decls = some slot) (hs : slot.source = .enumerator r child)
      (hp : a.slots.NamesDecl r.id p)

section Parents

variable {p : DeclId} {slot : DeclSlot} {x : Declaration} (ha : a.Sound unit records)

include ha

theorem Sound.source_mem (hd : d.get? a.slots.decls = some slot) (hs : slot.source = .record r) :
    r ∈ records := by
  cases ha.slots.backs hd with
  | record hr _ _ =>
    cases hs
    exact ha.records ▸ hr
  | enumerator => cases hs

theorem Encloses.held (h : a.Encloses settings records p d) :
    (∃ slot, d.get? a.slots.decls = some slot) ∧ ∃ slot, p.get? a.slots.decls = some slot := by
  cases h with
  | record hd _ _ hfinds => exact ⟨⟨_, hd⟩, hfinds.held ha⟩
  | enumerator hd _ hp =>
    obtain ⟨slot, hslot, -⟩ := ha.slots.bound.decl.mp hp
    exact ⟨⟨_, hd⟩, slot, hslot⟩

omit ha in
theorem encloses_iff_of_record (hd : d.get? a.slots.decls = some slot)
    (hs : slot.source = .record r) : a.Encloses settings records p d ↔
      d ≠ a.root ∧ a.Finds settings records r (.ok p) := by
  constructor
  · intro h
    cases h with
    | record hd' hs' hne hfinds =>
      rw [hd] at hd'
      cases hd'
      rw [hs] at hs'
      cases hs'
      exact ⟨hne, hfinds⟩
    | enumerator hd' hs' _ =>
      rw [hd] at hd'
      cases hd'
      rw [hs] at hs'
      cases hs'
  · exact fun ⟨hne, hfinds⟩ ↦ .record hd hs hne hfinds

omit ha in
theorem encloses_iff_of_enumerator {child : ChildRecord} (hd : d.get? a.slots.decls = some slot)
    (hs : slot.source = .enumerator r child) :
    a.Encloses settings records p d ↔ a.slots.NamesDecl r.id p := by
  constructor
  · intro h
    cases h with
    | record hd' hs' _ _ =>
      rw [hd] at hd'
      cases hd'
      rw [hs] at hs'
      cases hs'
    | enumerator hd' hs' hp =>
      rw [hd] at hd'
      cases hd'
      rw [hs] at hs'
      cases hs'
      exact hp
  · exact .enumerator hd hs

theorem parent_iff_encloses (hrefs : a.slots.checkReferences = .ok ())
    (hd : d.get? a.slots.decls = some slot) (h : a.declOf settings d slot = .ok x) :
    x.parent = some p ↔ a.Encloses settings records p d := by
  unfold declOf at h
  split at h
  next r hsource =>
    obtain ⟨parent, hparent, h⟩ := bind_eq_ok h
    obtain ⟨access, -, h⟩ := bind_eq_ok h
    obtain ⟨location, -, h⟩ := bind_eq_ok h
    obtain ⟨details, -, h⟩ := bind_eq_ok h
    cases h
    rw [encloses_iff_of_record hd hsource,
      ← scopeOf_eq_iff ha hrefs (ha.source_mem hd hsource)]
    unfold parentOf at hparent
    split at hparent
    next hroot =>
      cases hparent
      simp [hroot]
    next hne =>
      obtain ⟨q, hq, rfl⟩ := map_eq_ok hparent
      simp [hne, hq]
  next owner child hsource =>
    obtain ⟨name, -, h⟩ := bind_eq_ok h
    obtain ⟨q, hq, h⟩ := bind_eq_ok h
    cases h
    have hq : a.slots.NamesDecl owner.id q := Slots.resolveDecl_eq_ok (ofExcept_eq_ok hq)
    rw [encloses_iff_of_enumerator hd hsource]
    constructor
    · intro hparent
      cases hparent
      exact hq
    · intro hp
      have hsame := hq.symm.trans hp
      cases hsame
      rfl

variable (hrefs : a.slots.checkReferences = .ok ()) (hdecls : a.declarations settings = .ok decls)

include hrefs hdecls

theorem parent_linked_iff (hd : d.get? (linkChildren decls) = some x) :
    x.parent = some p ↔ a.Encloses settings records p d := by
  rw [get?_linkChildren] at hd
  obtain ⟨y, hy, rfl⟩ := Option.map_eq_some_iff.mp hd
  obtain ⟨slot, hslot, hok⟩ := get?_slots hdecls hy
  exact parent_iff_encloses (x := y) ha hrefs hslot hok

omit hrefs in
theorem Encloses.get?_linked (h : a.Encloses settings records p d) :
    (∃ x, d.get? (linkChildren decls) = some x) ∧ ∃ y, p.get? (linkChildren decls) = some y := by
  have hlinked {e : DeclId} {slot : DeclSlot} (he : e.get? a.slots.decls = some slot) :
      ∃ x, e.get? (linkChildren decls) = some x := by
    obtain ⟨x, hx, -⟩ := get?_declarations hdecls he
    rw [get?_linkChildren, hx]
    exact ⟨_, rfl⟩
  obtain ⟨⟨slot, hd⟩, found, hp⟩ := h.held ha
  exact ⟨hlinked hd, hlinked hp⟩

theorem not_transGen_of_climb (h : ∀ {d : DeclId} {x : Declaration},
      d.get? (linkChildren decls) = some x →
        climb (linkChildren decls) (linkChildren decls).length x.parent = none) (d : DeclId) :
    ¬TransGen (a.Encloses settings records) d d := by
  obtain ⟨rank, hrank, -⟩ :=
    Store.exists_ranks_of_climb (s := ⟨linkChildren decls, []⟩) (fun {d x} hd ↦ h hd)
  have hlt {p d : DeclId} (hp : a.Encloses settings records p d) : rank p < rank d := by
    obtain ⟨⟨x, hx⟩, -⟩ := hp.get?_linked ha hdecls
    exact hrank hx ((parent_linked_iff ha hrefs hdecls hx).mpr hp)
  have hall {p d : DeclId} (hp : TransGen (a.Encloses settings records) p d) :
      rank p < rank d := by
    induction hp with
    | single hp => exact hlt hp
    | tail _ hp ih => exact Nat.lt_trans ih (hlt hp)
  exact fun hd ↦ Nat.lt_irrefl _ (hall hd)

/-- Where no scope encloses itself, the way up has no more steps than there are declarations. -/
theorem climb_of_not_transGen (h : ∀ d, ¬TransGen (a.Encloses settings records) d d)
    (hd : d.get? (linkChildren decls) = some x) :
    climb (linkChildren decls) (linkChildren decls).length x.parent = none := by
  obtain ⟨depth, hle, hlt⟩ := Store.exists_depth (fun d p ↦ a.Encloses settings records p d)
    (Id.all (linkChildren decls))
  have hless {p d : DeclId} (hp : a.Encloses settings records p d) : depth p < depth d := by
    obtain ⟨-, y, hy⟩ := hp.get?_linked ha hdecls
    refine hlt (.single hp) (Id.mem_all_of_get? hy) fun hcircle ↦ h p ?_
    exact transGen_swap.mp hcircle
  have hclimb {fuel : Nat} {e : DeclId} (he : depth e < fuel) :
      climb (linkChildren decls) fuel (some e) = none := by
    induction fuel generalizing e with
    | zero => omega
    | succ fuel ih =>
      rw [climb]
      cases hget : e.get? (linkChildren decls) with
      | none => simp [climb]
      | some y =>
        rw [Option.bind_some]
        cases hp : y.parent with
        | none => simp [climb]
        | some p =>
          have hstep := hless ((parent_linked_iff ha hrefs hdecls hget).mp hp)
          exact ih (by omega)
  cases hp : x.parent with
  | none => simp [climb]
  | some p =>
    have hstep := hless ((parent_linked_iff ha hrefs hdecls hd).mp hp)
    have hbound := hle d
    rw [Id.length_all] at hbound
    exact hclimb (by omega)

theorem checkReachable_iff : a.slots.checkReachable (linkChildren decls) = .ok () ↔
    ∀ d, ¬TransGen (a.Encloses settings records) d d := by
  constructor
  · intro h
    exact not_transGen_of_climb ha hrefs hdecls (climb_of_checkReachable h)
  · intro h
    exact checkReachable_of_climb (climb_of_not_transGen ha hrefs hdecls h)

end Parents

theorem checkReachable_cases {s : Slots} : s.checkReachable decls = .ok () ∨ ∃ x ∈ decls, ∃ value,
    s.checkReachable decls = refuse (.invalidField s.unit x.externalId Field.context value) := by
  rcases forM_cases _ decls with h | ⟨x, hx, hne, h⟩
  · exact .inl h
  · refine .inr ⟨x, hx, ?_⟩
    simp only at hne h
    split at hne
    next => exact absurd rfl hne
    next p hp =>
      rw [hp] at h
      exact ⟨_, h⟩

/-- The scopes of a unit are found where the ways to them end, and make a tree if it is accepted. -/
structure FindsScopes (a : AllocatedUnit) (settings : BuilderSettings) (records : List Record) :
    Prop where
  scopeOf : ∀ {r : Record}, r ∈ records → ∀ o,
    a.scopeOf settings r = o ↔ a.Finds settings records r o
  invalidField : ∀ {r : Record}, r ∈ records → ((∃ id value, a.scopeOf settings r =
    refuse (.invalidField a.slots.unit id Field.context value)) ↔ Endless records r)
  parent : ∀ {u : ResolvedUnit}, a.resolve settings = .ok u → ∀ {d : DeclId} {x : Declaration},
    d.get? u.store.decls = some x → ∀ p, x.parent = some p ↔ a.Encloses settings records p d
  reaches : ∀ {u : ResolvedUnit}, a.resolve settings = .ok u → ∀ {d : DeclId} {x : Declaration},
    d.get? u.store.decls = some x → u.store.Below a.root d
  accepts : ∀ {decls : List Declaration}, a.declarations settings = .ok decls →
    ∃ linked, a.slots.linkMembers decls = .ok linked ∧
      (a.slots.checkReachable linked = .ok () ↔ ∀ d, ¬TransGen (a.Encloses settings records) d d)
  /-- Scopes that enclose each other are the fault of the context of some declaration. -/
  refuses : ∀ {d : DeclId}, TransGen (a.Encloses settings records) d d →
    (∀ u, a.resolve settings ≠ .ok u) ∧ ∀ {decls : List Declaration},
      a.declarations settings = .ok decls → ∃ linked, a.slots.linkMembers decls = .ok linked ∧
        ∃ x ∈ linked, ∃ value, a.slots.checkReachable linked =
          refuse (.invalidField a.slots.unit x.externalId Field.context value)

end AllocatedUnit

/-- In a unit whose references all name something, the scopes of records are found exactly. -/
theorem findsScopes_of_allocate {settings : BuilderSettings} {unit : UnitId}
    {records : List Record} {a : AllocatedUnit} (h : allocate unit records = .ok a)
    (hrefs : a.slots.checkReferences = .ok ()) : a.FindsScopes settings records := by
  have ha := allocate_eq_ok h
  refine ⟨fun hr o ↦ AllocatedUnit.scopeOf_eq_iff ha hrefs hr,
    AllocatedUnit.invalidField_iff ha hrefs, ?_, ?_, ?_, ?_⟩
  · intro u hu d x hd p
    obtain ⟨decls, hresolves⟩ := (AllocatedUnit.resolve_eq_ok_iff ha).mp hu
    rw [hresolves.linked] at hd
    exact AllocatedUnit.parent_linked_iff ha hrefs hresolves.declared hd
  · intro u hu d x hd
    obtain ⟨decls, hresolves⟩ := (AllocatedUnit.resolve_eq_ok_iff ha).mp hu
    have hsound := (AllocatedUnit.resolve_eq_ok ha hu).1
    obtain ⟨rank, hrank, -⟩ := Store.exists_ranks_of_climb hsound.climbs
    rw [← hresolves.root]
    exact Store.below_root hsound.tree hrank hd
  · intro decls hdecls
    exact ⟨_, AllocatedUnit.linkMembers_declarations ha hdecls,
      AllocatedUnit.checkReachable_iff ha hrefs hdecls⟩
  · intro d hd
    refine ⟨fun u hu ↦ ?_, fun {decls} hdecls ↦ ?_⟩
    · obtain ⟨decls, hresolves⟩ := (AllocatedUnit.resolve_eq_ok_iff ha).mp hu
      have hreachable := hresolves.reachable
      rw [hresolves.linked] at hreachable
      exact (AllocatedUnit.checkReachable_iff ha hrefs hresolves.declared).mp hreachable d hd
    · rcases AllocatedUnit.checkReachable_cases with hok | hrefused
      · exact absurd hd ((AllocatedUnit.checkReachable_iff ha hrefs hdecls).mp hok d)
      · exact ⟨_, AllocatedUnit.linkMembers_declarations ha hdecls, hrefused⟩

namespace Sample

def placed (tag : Tag) (id context : ExternalId) : Record :=
  (({ tag, id } : Record).withLiteral Field.name id).withRef Field.context context

/-- A class in the body of a function in the body of another one. -/
def rehomed : List Record :=
  [({ tag := .namespaceTag, id := "n" } : Record).withLiteral Field.name "::",
    placed .function "f" "n", placed .function "g" "f", placed .structTag "s" "g"]

/-- Besides, a class in the bodies of two functions that stand in each other, and a class and a
namespace that enclose each other. -/
def tangled : List Record :=
  rehomed ++ [placed .function "p" "q", placed .function "q" "p", placed .structTag "v" "p",
    placed .classTag "c" "k", placed .namespaceTag "k" "c"]

end Sample

open Sample

/-- The class is moved out of the functions. Two functions that stand in each other are told by the
class inside them, and two scopes that enclose each other are refused. -/
theorem findsScopes_sample :
    (∃ a u, allocate ⟨1⟩ rehomed = .ok a ∧ a.FindsScopes {} rehomed ∧ a.resolve {} = .ok u ∧
      u.store.Below ⟨1⟩ ⟨4⟩ ∧ a.scopeOf {} (placed .structTag "s" "g") = .ok ⟨1⟩) ∧
    ∃ a, allocate ⟨1⟩ tangled = .ok a ∧ a.slots.checkReferences = .ok () ∧
      a.FindsScopes {} tangled ∧ Endless tangled (placed .structTag "v" "p") ∧
        TransGen (a.Encloses {} tangled) ⟨8⟩ ⟨8⟩ ∧ ∀ u, a.resolve {} ≠ .ok u := by
  constructor
  · have h : (fun a ↦ (a.slots.checkReferences, a.scopeOf {} (placed .structTag "s" "g"),
          (fun u ↦ u.store.decls.length) <$> a.resolve {}, a.root)) <$> allocate ⟨1⟩ rehomed =
        .ok (.ok (), .ok ⟨1⟩, .ok 4, ⟨1⟩) := by
      cbv
    obtain ⟨a, ha, hdata⟩ := map_eq_ok h
    simp only [Prod.mk.injEq] at hdata
    obtain ⟨hrefs, hscope, hbuilt, hroot⟩ := hdata
    obtain ⟨u, hu, hlength⟩ := map_eq_ok hbuilt
    have hfinds : a.FindsScopes {} rehomed := findsScopes_of_allocate ha hrefs
    obtain ⟨x, hx⟩ : ∃ x, (⟨4⟩ : DeclId).get? u.store.decls = some x :=
      Id.exists_get?_iff.mpr ⟨by decide, by rw [hlength]⟩
    exact ⟨a, u, ha, hfinds, hu, hroot ▸ hfinds.reaches hu hx, hscope⟩
  · have h : (fun a ↦ (a.slots.checkReferences, a.scopeOf {} (placed .structTag "v" "p"),
          a.scopeOf {} (placed .classTag "c" "k"), a.scopeOf {} (placed .namespaceTag "k" "c"),
          a.slots.decls.map (·.source), a.root)) <$> allocate ⟨1⟩ tangled =
        .ok (.ok (), refuse (.invalidField ⟨1⟩ "v" Field.context "v"), .ok ⟨9⟩, .ok ⟨8⟩,
          tangled.map .record, ⟨1⟩) := by
      cbv
    obtain ⟨a, ha, hdata⟩ := map_eq_ok h
    simp only [Prod.mk.injEq] at hdata
    obtain ⟨hrefs, hinvalid, hclass, hspace, hsources, hroot⟩ := hdata
    have hfinds : a.FindsScopes {} tangled := findsScopes_of_allocate ha hrefs
    have hunit : a.slots.unit = ⟨1⟩ := (allocate_eq_ok ha).unit
    have hencloses {r : Record} {d p : DeclId} (hd : d.get? tangled = some r) (hne : d ≠ ⟨1⟩)
        (hp : a.scopeOf {} r = .ok p) : a.Encloses {} tangled p d := by
      have hget : d.get? (a.slots.decls.map (·.source)) = some (.record r) := by
        rw [hsources, Id.get?_map, hd]
        rfl
      rw [Id.get?_map] at hget
      obtain ⟨slot, hslot, hsource⟩ := Option.map_eq_some_iff.mp hget
      exact .record hslot hsource (hroot ▸ hne) ((hfinds.scopeOf (Id.mem_of_get? hd) _).mp hp)
    have hcircle : TransGen (a.Encloses {} tangled) ⟨8⟩ ⟨8⟩ :=
      .head (hencloses (d := ⟨9⟩) rfl (by decide) hspace)
        (.single (hencloses (d := ⟨8⟩) rfl (by decide) hclass))
    have hendless : Endless tangled (placed .structTag "v" "p") :=
      (hfinds.invalidField (by simp [tangled])).mp ⟨_, _, hunit ▸ hinvalid⟩
    exact ⟨a, ha, hrefs, hfinds, hendless, hcircle, (hfinds.refuses hcircle).1⟩

end ScopeForest
