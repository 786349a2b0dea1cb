import ScopeForest.Proofs.Arena
import ScopeForest.Unit.Slots

namespace ScopeForest

theorem Registry.register_eq_ok {r s : Registry} {id : ExternalId} {node : Node}
    (h : r.register id node = .ok s) :
    r.get? id = none ∧ s = { r with bindings := r.bindings.insert id node } := by
  unfold register at h
  split at h
  · cases h
  · split at h
    · cases h
    next hc =>
      cases h
      refine ⟨?_, rfl⟩
      simpa [contains, NameMap.contains, get?] using hc

def TypeSource.boundId? : TypeSource → Option ExternalId
  | .record r => some r.id
  | .constHalf r _ => some r.id
  | .volatileHalf _ => none
  | .declared _ => none

def Record.TwiceQualified (r : Record) : Prop :=
  r.tag = .cvQualifiedType ∧ r.attrs.flag Field.const ∧ r.attrs.flag Field.volatile

instance (r : Record) : Decidable r.TwiceQualified := inferInstanceAs (Decidable (_ ∧ _))

namespace Slots

variable {s t : Slots}

/-- The registry binds an id to a slot just if the slot carries the id. -/
structure Bound (s : Slots) : Prop where
  unit : s.registry.unit = s.unit
  unfrozen : s.registry.frozen = false
  decl : ∀ {id : ExternalId} {d : DeclId}, s.registry.get? id = some (.decl d) ↔
    ∃ slot, d.get? s.decls = some slot ∧ slot.externalId = id
  type : ∀ {id : ExternalId} {d : TypeId}, s.registry.get? id = some (.type d) ↔
    ∃ source, d.get? s.types = some source ∧ source.boundId? = some id

theorem bound_empty (unit : UnitId) : (empty unit).Bound := by
  refine ⟨rfl, rfl, ?_, ?_⟩
  · intro id d
    constructor
    · intro h
      cases h
    · rintro ⟨slot, h, -⟩
      exact absurd (Id.mem_of_get? h) List.not_mem_nil
  · intro id d
    constructor
    · intro h
      cases h
    · rintro ⟨source, h, -⟩
      exact absurd (Id.mem_of_get? h) List.not_mem_nil

theorem addDecl_eq_ok {slot : DeclSlot} (h : s.addDecl slot = .ok t) :
    (s.Bound → t.Bound) ∧ ∃ registry, t = { s with registry, decls := s.decls ++ [slot] } := by
  obtain ⟨registry, hr, h⟩ := Outcome.bind_eq_ok h
  obtain ⟨hfree, rfl⟩ := Registry.register_eq_ok hr
  cases h
  refine ⟨fun hs ↦ ⟨hs.unit, hs.unfrozen, ?_, ?_⟩, _, rfl⟩
  · intro id d
    simp only [Registry.get?, NameMap.get?_insert]
    constructor
    · intro hd
      split at hd
      next he =>
        cases hd
        exact ⟨slot, Id.get?_next_append, he.symm⟩
      next =>
        obtain ⟨old, ho, he⟩ := hs.decl.mp hd
        exact ⟨old, Id.get?_append_left ho, he⟩
    · rintro ⟨found, hf, rfl⟩
      rcases Id.get?_append_singleton hf with ho | ⟨rfl, rfl⟩
      · have hb := hs.decl.mpr ⟨found, ho, rfl⟩
        rw [if_neg fun he ↦ by rw [he, hfree] at hb; cases hb]
        exact hb
      · rw [if_pos rfl]
  · intro id d
    simp only [Registry.get?, NameMap.get?_insert]
    rw [← hs.type]
    by_cases he : id = slot.externalId
    · rw [if_pos he, he, hfree]
      simp
    · rw [if_neg he]
      rfl

theorem addTypes_eq_ok {id : ExternalId} {first : TypeSource} {rest : List TypeSource}
    (hfirst : first.boundId? = some id) (hrest : ∀ source ∈ rest, source.boundId? = none)
    (h : s.addTypes id (first :: rest) = .ok t) :
    (s.Bound → t.Bound) ∧ ∃ registry, t = { s with registry, types := s.types ++ first :: rest } := by
  obtain ⟨registry, hr, h⟩ := Outcome.bind_eq_ok h
  obtain ⟨hfree, rfl⟩ := Registry.register_eq_ok hr
  cases h
  have hnew : (Id.next s.types : TypeId).get? (s.types ++ first :: rest) = some first :=
    Id.get?_append_right (n := 0) rfl
  have hold {d : TypeId} {source : TypeSource} {other : ExternalId}
      (hd : d.get? (s.types ++ first :: rest) = some source) (hb : source.boundId? = some other) :
      d.get? s.types = some source ∨ d = Id.next s.types ∧ source = first := by
    rcases Id.get?_append hd with hd | ⟨n, rfl, hn⟩
    · exact .inl hd
    · cases n with
      | zero => exact .inr ⟨rfl, (Option.some_inj.mp hn).symm⟩
      | succ n =>
        rw [hrest source (List.mem_of_getElem? hn)] at hb
        cases hb
  refine ⟨fun hs ↦ ⟨hs.unit, hs.unfrozen, ?_, ?_⟩, _, rfl⟩
  · intro other d
    simp only [Registry.get?, NameMap.get?_insert]
    rw [← hs.decl]
    by_cases he : other = id
    · rw [if_pos he, he, hfree]
      simp
    · rw [if_neg he]
      rfl
  · intro other d
    simp only [Registry.get?, NameMap.get?_insert]
    constructor
    · intro hd
      split at hd
      next he =>
        cases hd
        exact ⟨first, hnew, he ▸ hfirst⟩
      next =>
        obtain ⟨source, ho, he⟩ := hs.type.mp hd
        exact ⟨source, Id.get?_append_left ho, he⟩
    · rintro ⟨source, hd, hb⟩
      rcases hold hd hb with ho | ⟨rfl, rfl⟩
      · have hget := hs.type.mpr ⟨source, ho, hb⟩
        rw [if_neg fun he ↦ by rw [he, hfree] at hget; cases hget]
        exact hget
      · rw [hfirst] at hb
        rw [if_pos (Option.some_inj.mp hb).symm]

theorem Bound.addUnnamed {source : TypeSource} (hs : s.Bound) (hsource : source.boundId? = none) :
    ({ s with types := s.types ++ [source] } : Slots).Bound where
  unit := hs.unit
  unfrozen := hs.unfrozen
  decl := hs.decl
  type := by
    intro id d
    refine hs.type.trans ⟨fun ⟨old, ho, hb⟩ ↦ ⟨old, Id.get?_append_left ho, hb⟩, ?_⟩
    rintro ⟨found, hf, hb⟩
    rcases Id.get?_append_singleton hf with ho | ⟨-, rfl⟩
    · exact ⟨found, ho, hb⟩
    · rw [hsource] at hb
      cases hb

def enumeratorSlots (owner : Record) : Nat → List ChildRecord → List DeclSlot
  | _, [] => []
  | n, child :: children =>
    { source := .enumerator owner child, kind := .enumerator,
      externalId := enumeratorId owner.id n } :: enumeratorSlots owner (n + 1) children

theorem getElem?_enumeratorSlots (owner : Record) (n i : Nat) (children : List ChildRecord) :
    (enumeratorSlots owner n children)[i]? = children[i]?.map fun child ↦
      { source := .enumerator owner child, kind := .enumerator,
        externalId := enumeratorId owner.id (n + i) } := by
  induction children generalizing n i with
  | nil => rfl
  | cons child children ih =>
    cases i with
    | zero => rfl
    | succ i =>
      rw [enumeratorSlots, List.getElem?_cons_succ, List.getElem?_cons_succ, ih,
        Nat.add_right_comm, Nat.add_assoc]

theorem addEnumerators_eq_ok {owner : Record} {n : Nat} {children : List ChildRecord}
    (h : s.addEnumerators owner n children = .ok t) :
    (s.Bound → t.Bound) ∧
      ∃ registry, t = { s with registry, decls := s.decls ++ enumeratorSlots owner n children } := by
  induction children generalizing s n with
  | nil =>
    cases h
    exact ⟨fun hs ↦ hs, t.registry, by simp [enumeratorSlots]⟩
  | cons child children ih =>
    obtain ⟨m, hm, h⟩ := Outcome.bind_eq_ok h
    obtain ⟨hb, registry, rfl⟩ := addDecl_eq_ok hm
    obtain ⟨hb', registry', rfl⟩ := ih h
    exact ⟨fun hs ↦ hb' (hb hs), registry', by simp [enumeratorSlots]⟩

def newDecls (s : Slots) (r : Record) : List DeclSlot :=
  match r.tag.declKind? with
  | none => []
  | some kind =>
    { source := .record r, kind, externalId := r.id,
      declared := if kind.isTypeDeclaration then some (Id.next s.types) else none } ::
      if kind = .enumDecl then enumeratorSlots r 0 (r.childrenOf .enumerator) else []

def newTypes (s : Slots) (r : Record) : List TypeSource :=
  match r.tag.declKind? with
  | some kind => if kind.isTypeDeclaration then [.declared (Id.next s.decls)] else []
  | none =>
    if r.tag = .file then []
    else if r.TwiceQualified then
      [.constHalf r (Id.ofIndex (s.types.length + 1)), .volatileHalf r]
    else [.record r]

def newFiles (r : Record) : List (ExternalId × String) :=
  if r.tag = .file then ((r.attrs.literal? Field.name).map fun path ↦ (r.id, path)).toList else []

/-- What placing a record leaves behind. -/
structure Fills (spelled : Bool) (s : Slots) (r : Record) (t : Slots) : Prop where
  bound : s.Bound → t.Bound
  unit : t.unit = s.unit
  records : t.records = s.records
  decls : t.decls = s.decls ++ s.newDecls r
  types : t.types = s.types ++ s.newTypes r
  files : t.files = s.files ++ newFiles r
  root : if s.claimsRoot spelled r then s.root? = none ∧ t.root? = some (Id.next s.decls)
    else t.root? = s.root?

theorem settleRoot_eq_ok {claims : Bool} {r : Record} {d : DeclId}
    (h : s.settleRoot claims r d = .ok t) :
    ∃ root?, t = { s with root? } ∧
      if claims then s.root? = none ∧ root? = some d else root? = s.root? := by
  unfold settleRoot claimRoot at h
  split at h
  next hc =>
    split at h
    next hr =>
      cases h
      exact ⟨some d, rfl, by simp [hc, hr]⟩
    next => cases h
  next hc =>
    cases h
    exact ⟨s.root?, rfl, by simp [hc]⟩

theorem Bound.withRoot (hs : s.Bound) (root? : Option DeclId) : { s with root? }.Bound :=
  ⟨hs.unit, hs.unfrozen, hs.decl, hs.type⟩

theorem Bound.withRecords (hs : s.Bound) (records : List Record) : { s with records }.Bound :=
  ⟨hs.unit, hs.unfrozen, hs.decl, hs.type⟩

theorem Bound.addDeclared (hs : s.Bound) (kind : DeclKind) (d : DeclId) :
    (s.addDeclared kind d).Bound := by
  unfold Slots.addDeclared
  split
  · exact hs.addUnnamed rfl
  · exact hs

theorem addDeclared_eq (kind : DeclKind) (d : DeclId) :
    s.addDeclared kind d = { s with
      types := s.types ++ if kind.isTypeDeclaration then [.declared d] else [] } := by
  unfold addDeclared
  split
  · rfl
  · rw [List.append_nil]

theorem fills_of_placeDecl {spelled : Bool} {r : Record} {kind : DeclKind}
    (hk : r.tag.declKind? = some kind) (h : s.placeDecl spelled r kind = .ok t) :
    Fills spelled s r t := by
  obtain ⟨a, ha, h⟩ := Outcome.bind_eq_ok h
  obtain ⟨hb, registry, rfl⟩ := addDecl_eq_ok ha
  obtain ⟨b, hr, h⟩ := Outcome.bind_eq_ok h
  obtain ⟨root?, rfl, hroot⟩ := settleRoot_eq_ok hr
  have hbound (hs : s.Bound) := ((hb hs).withRoot root?).addDeclared kind (Id.next s.decls)
  have hfiles : newFiles r = [] := if_neg fun hf ↦ by
    rw [hf] at hk
    cases hk
  simp only at h
  split at h
  next he =>
    obtain ⟨hb', registry', rfl⟩ := addEnumerators_eq_ok h
    refine ⟨fun hs ↦ hb' (hbound hs), ?_, ?_, ?_, ?_, ?_, ?_⟩ <;>
      simp only [addDeclared_eq, newDecls, newTypes, hk, he, hfiles, if_pos, List.append_assoc,
        List.singleton_append, List.append_nil]
    exact hroot
  next he =>
    cases h
    refine ⟨hbound, ?_, ?_, ?_, ?_, ?_, ?_⟩ <;>
      simp only [addDeclared_eq, newDecls, newTypes, hk, he, hfiles, if_false, List.append_nil]
    exact hroot

theorem fills_of_placeType {spelled : Bool} {r : Record} (hk : r.tag.declKind? = none)
    (hfile : r.tag ≠ .file) (h : s.placeType r = .ok t) : Fills spelled s r t := by
  have hroot : s.claimsRoot spelled r = false := by
    rw [claimsRoot]
    cases ht : r.tag <;> simp_all [Tag.declKind?]
  unfold placeType at h
  split at h
  next hq =>
    obtain ⟨hb, registry, rfl⟩ := addTypes_eq_ok rfl (by simp [TypeSource.boundId?]) h
    have hq : r.TwiceQualified := hq
    exact ⟨hb, rfl, rfl, by simp [newDecls, hk], by simp [newTypes, hk, hfile, hq],
      by simp [newFiles, hfile], by simp [hroot]⟩
  next hq =>
    obtain ⟨hb, registry, rfl⟩ := addTypes_eq_ok rfl (by simp) h
    have hq : ¬r.TwiceQualified := hq
    exact ⟨hb, rfl, rfl, by simp [newDecls, hk], by simp [newTypes, hk, hfile, hq],
      by simp [newFiles, hfile], by simp [hroot]⟩

theorem fills_of_placeFile {spelled : Bool} {r : Record} (hfile : r.tag = .file)
    (h : s.placeFile r = .ok t) : Fills spelled s r t := by
  have hk : r.tag.declKind? = none := by rw [hfile]; rfl
  unfold placeFile at h
  split at h
  next => cases h
  next path hpath =>
    cases h
    exact ⟨fun hs ↦ ⟨hs.unit, hs.unfrozen, hs.decl, hs.type⟩, rfl, rfl, by simp [newDecls, hk],
      by rw [newTypes, hk]; simp [hfile], by simp [newFiles, hfile, hpath],
      by simp [claimsRoot, hfile]⟩

theorem place_eq_ok {spelled : Bool} {r : Record} (h : place spelled s r = .ok t) :
    s.record? r.id = none ∧ Fills spelled { s with records := s.records ++ [r] } r t := by
  unfold place at h
  split at h
  next => cases h
  next hfresh =>
    refine ⟨by simpa using hfresh, ?_⟩
    simp only at h
    split at h
    next hfile => exact fills_of_placeFile hfile h
    next hfile =>
      split at h
      next kind hk => exact fills_of_placeDecl hk h
      next hk => exact fills_of_placeType hk hfile h

end Slots

end ScopeForest
