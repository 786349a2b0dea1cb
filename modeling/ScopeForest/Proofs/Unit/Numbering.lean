import ScopeForest.Proofs.Types.Neutral
import ScopeForest.Proofs.Unit.Building
import ScopeForest.Proofs.Unit.Matching

namespace ScopeForest

theorem Outcome.mapM_map_eq_ok {ε α β γ : Type} {f : α → Except ε β} {g : α → Except ε γ}
    {φ : β → γ} {xs : List α} {ys : List β} (h : xs.mapM f = .ok ys)
    (hg : ∀ x ∈ xs, ∀ y ∈ ys, f x = .ok y → g x = .ok (φ y)) : xs.mapM g = .ok (ys.map φ) := by
  induction xs generalizing ys with
  | nil =>
    cases h
    rfl
  | cons x xs ih =>
    rw [List.mapM_cons] at h ⊢
    obtain ⟨y, hy, h⟩ := bind_eq_ok h
    obtain ⟨zs, hzs, h⟩ := bind_eq_ok h
    cases h
    have hrest := ih hzs fun z hz w hw ↦
      hg z (List.mem_cons_of_mem x hz) w (List.mem_cons_of_mem y hw)
    rw [hg x List.mem_cons_self y List.mem_cons_self hy, hrest]
    rfl

open Outcome

def Registry.inUnit (j : UnitId) (r : Registry) : Registry := { r with unit := j }

def Slots.inUnit (j : UnitId) (s : Slots) : Slots :=
  { s with unit := j, registry := s.registry.inUnit j }

def AllocatedUnit.inUnit (j : UnitId) (a : AllocatedUnit) : AllocatedUnit :=
  { a with slots := a.slots.inUnit j }

def ResolvedUnit.inUnit (j : UnitId) (u : ResolvedUnit) : ResolvedUnit :=
  { u with
    unit := j
    store := u.store.mapDecls (·.inUnit j)
    registry := u.registry.inUnit j }

theorem Declaration.neutral_inUnit (j : UnitId) : Declaration.Neutral (·.inUnit j) where
  name _ := rfl
  externalId _ := rfl
  parent _ := rfl
  anonymous _ := rfl
  aliased _ := rfl
  instantiates _ := rfl
  callable _ := rfl

variable (j : UnitId)

section Placing

theorem Registry.register_inUnit (r : Registry) (id : ExternalId) (node : Node) :
    Maps (·.inUnit j) (r.register id node) ((r.inUnit j).register id node) := by
  have hfrozen : (r.inUnit j).frozen = r.frozen := rfl
  have hcontains : (r.inUnit j).contains id = r.contains id := rfl
  unfold register
  rw [hfrozen, hcontains]
  cases r.frozen with
  | true => exact .error _ _ _
  | false =>
    cases r.contains id with
    | true => exact .error _ _ _
    | false => exact .ok _ _

namespace Slots

variable (s : Slots) (r : Record)

theorem addDecl_inUnit (slot : DeclSlot) :
    Maps (·.inUnit j) (s.addDecl slot) ((s.inUnit j).addDecl slot) :=
  (s.registry.register_inUnit j _ _).bind fun _ _ ↦ .ok _ _

theorem addTypes_inUnit (id : ExternalId) (sources : List TypeSource) :
    Maps (·.inUnit j) (s.addTypes id sources) ((s.inUnit j).addTypes id sources) :=
  (s.registry.register_inUnit j _ _).bind fun _ _ ↦ .ok _ _

theorem settleRoot_inUnit (claims : Bool) (d : DeclId) :
    Maps (·.inUnit j) (s.settleRoot claims r d) ((s.inUnit j).settleRoot claims r d) := by
  have hroot : (s.inUnit j).root? = s.root? := rfl
  cases claims with
  | false => exact .ok _ _
  | true =>
    unfold settleRoot claimRoot
    rw [hroot]
    cases s.root? with
    | none => exact .ok _ _
    | some first => exact .error _ _ _

theorem addDeclared_inUnit (kind : DeclKind) (d : DeclId) :
    (s.inUnit j).addDeclared kind d = (s.addDeclared kind d).inUnit j := by
  unfold addDeclared
  by_cases h : kind.isTypeDeclaration
  · rw [if_pos h, if_pos h]
    rfl
  · rw [if_neg h, if_neg h]

theorem addEnumerators_inUnit (n : Nat) (children : List ChildRecord) :
    Maps (·.inUnit j) (s.addEnumerators r n children)
      ((s.inUnit j).addEnumerators r n children) := by
  induction children generalizing s n with
  | nil => exact .ok _ _
  | cons child children ih => exact (s.addDecl_inUnit j _).bind fun t _ ↦ ih t (n + 1)

theorem placeDecl_inUnit (spelled : Bool) (kind : DeclKind) :
    Maps (·.inUnit j) (s.placeDecl spelled r kind) ((s.inUnit j).placeDecl spelled r kind) := by
  refine (s.addDecl_inUnit j _).bind fun t _ ↦ ?_
  refine (t.settleRoot_inUnit j r _ _).bind fun t _ ↦ ?_
  rw [addDeclared_inUnit]
  by_cases h : kind = .enumDecl
  · simp only [if_pos h]
    exact addEnumerators_inUnit j _ r 0 _
  · simp only [if_neg h]
    exact .ok _ _

theorem place_inUnit (spelled : Bool) :
    Maps (·.inUnit j) (place spelled s r) (place spelled (s.inUnit j) r) := by
  have hrecord : (s.inUnit j).record? r.id = s.record? r.id := rfl
  unfold place
  rw [hrecord]
  by_cases hid : (s.record? r.id).isSome
  · rw [if_pos hid]
    exact .error _ _ _
  rw [if_neg hid, if_neg hid]
  by_cases hfile : r.tag = .file
  · rw [if_pos hfile, if_pos hfile]
    unfold placeFile
    cases r.attrs.literal? Field.name with
    | none => exact .error _ _ _
    | some path => exact .ok _ _
  rw [if_neg hfile, if_neg hfile]
  cases r.tag.declKind? with
  | some kind => exact placeDecl_inUnit j _ r spelled kind
  | none =>
    simp only
    unfold placeType
    split
    next => exact addTypes_inUnit j _ r.id _
    next => exact addTypes_inUnit j _ r.id _

theorem foldlM_place_inUnit (spelled : Bool) (records : List Record) :
    Maps (·.inUnit j) (records.foldlM (place spelled) s)
      (records.foldlM (place spelled) (s.inUnit j)) := by
  induction records generalizing s with
  | nil => exact .ok _ _
  | cons r records ih =>
    rw [List.foldlM_cons, List.foldlM_cons]
    exact (s.place_inUnit j r spelled).bind fun t _ ↦ ih t

end Slots

theorem allocate_inUnit (i : UnitId) (records : List Record) :
    Maps (·.inUnit j) (allocate i records) (allocate j records) := by
  refine ((Slots.empty i).foldlM_place_inUnit j _ records).bind fun slots _ ↦ ?_
  have hroot : (slots.inUnit j).root? = slots.root? := rfl
  rw [hroot]
  cases slots.root? with
  | none => exact .error _ _ _
  | some root => exact .ok _ _

end Placing

section Reading

theorem DeclSlot.rename_refl (slot : DeclSlot) : slot.rename Renaming.refl = slot := by
  simp [rename, Renaming.refl]

theorem TypeSource.rename_refl (source : TypeSource) : source.rename Renaming.refl = source := by
  cases source <;> rfl

namespace AllocatedUnit

variable (a : AllocatedUnit)

theorem matches_inUnit : a.Matches Renaming.refl (a.inUnit j) where
  slots := {
    record := fun _ ↦ rfl
    node := fun id ↦ by
      have hnode (node : Node) : Renaming.refl.node node = node := by cases node <;> rfl
      rw [funext hnode, Option.map_id']
      rfl
    decl := fun {d slot} hd ↦ by rwa [DeclSlot.rename_refl]
    file := fun {id i} hi ↦ ⟨i, hi, rfl⟩ }
  length := rfl
  root := rfl
  eq_root _ hd := hd

theorem mapM_typeOf_inUnit {types : List Ty} (h : a.slots.types.mapM a.slots.typeOf = .ok types) :
    (a.inUnit j).slots.types.mapM (a.inUnit j).slots.typeOf = .ok types := by
  have hmaps : Maps (List.map Renaming.refl.ty) (a.slots.types.mapM a.slots.typeOf)
      (a.slots.types.mapM (a.inUnit j).slots.typeOf) := by
    refine Maps.mapM_same fun source _ ↦ ?_
    have hsource := (a.matches_inUnit j).slots.typeOf source
    rwa [TypeSource.rename_refl] at hsource
  have htypes := hmaps types h
  rwa [funext Renaming.ty_refl, List.map_id'] at htypes

variable {a} {settings : BuilderSettings} {d : DeclId} {slot : DeclSlot} {x : Declaration}

theorem details_refl {r : Record} {kind : DeclKind} {details : Details}
    (h : a.details r kind = .ok details) : Renaming.refl.details details = details := by
  cases kind with
  | namespaceDecl | enumDecl | enumerator =>
    cases h
    rfl
  | classDecl | unionDecl =>
    obtain ⟨c, hc, rfl⟩ := map_eq_ok h
    obtain ⟨size, -, hc⟩ := bind_eq_ok hc
    obtain ⟨instantiates, -, hc⟩ := bind_eq_ok hc
    obtain ⟨bases, -, hc⟩ := bind_eq_ok hc
    cases hc
    have hbase (b : BaseSpec) : Renaming.refl.base b = b := rfl
    simp only [Renaming.details, Renaming.classDetails, funext hbase, List.map_id']
    simp [Renaming.refl]
  | variableDecl | typedef =>
    obtain ⟨v, -, rfl⟩ := map_eq_ok h
    rfl
  | function | memberFunction | constructor | destructor | operator =>
    obtain ⟨c, -, rfl⟩ := map_eq_ok h
    simp [Renaming.details, Renaming.refl]

theorem declaration_refl (h : a.declOf settings d slot = .ok x) :
    Renaming.refl.declaration d x = x := by
  unfold declOf at h
  split at h
  next r hsource =>
    obtain ⟨parent, -, h⟩ := bind_eq_ok h
    obtain ⟨access, -, h⟩ := bind_eq_ok h
    obtain ⟨location, -, h⟩ := bind_eq_ok h
    obtain ⟨details, hdetails, h⟩ := bind_eq_ok h
    cases h
    have hlocation (l : Location) : Renaming.refl.location l = l := rfl
    simp only [Renaming.declaration, details_refl hdetails, funext hlocation, Option.map_id']
    simp [Renaming.refl]
  next owner child hsource =>
    obtain ⟨name, -, h⟩ := bind_eq_ok h
    obtain ⟨parent, -, h⟩ := bind_eq_ok h
    cases h
    rfl

theorem declOf_inUnit (hd : d.get? a.slots.decls = some slot)
    (h : a.declOf settings d slot = .ok x) (hx : x.anonymous = none) :
    (a.inUnit j).declOf settings d slot = .ok (x.inUnit j) := by
  have hsame := (a.matches_inUnit j).declOf settings hd h (.inr hx)
  rw [DeclSlot.rename_refl] at hsame
  have hdecl : Renaming.refl.declaration (Renaming.refl.decl d) x = x := declaration_refl h
  rw [hdecl] at hsame
  exact hsame

theorem declarations_inUnit {decls : List Declaration} (h : a.declarations settings = .ok decls)
    (hnone : ∀ x ∈ decls, x.anonymous = none) :
    (a.inUnit j).declarations settings = .ok (decls.map (·.inUnit j)) := by
  refine mapM_map_eq_ok h fun (slot, i) hmem x hx hok ↦ ?_
  have hi : a.slots.decls[i]? = some slot := List.mk_mem_zipIdx_iff_getElem?.mp hmem
  exact declOf_inUnit (d := Id.ofIndex i) j hi hok (hnone x hx)

end AllocatedUnit

end Reading

theorem linkChildren_map_inUnit (decls : List Declaration) :
    linkChildren (decls.map (·.inUnit j)) = (linkChildren decls).map (·.inUnit j) := by
  have hmembers (p : Option DeclId) :
      ((decls.map (·.inUnit j)).filter (·.parent == p)).map (·.id) =
        (decls.filter (·.parent == p)).map (·.id) := by
    rw [List.filter_map, List.map_map]
    rfl
  unfold linkChildren
  rw [List.map_map, List.map_map]
  refine List.map_congr_left fun scope _ ↦ ?_
  exact congrArg (Declaration.withMembers · (scope.inUnit j)) (hmembers (some scope.id))

theorem AllocatedUnit.checkReachable_inUnit {s s' : Slots} {decls : List Declaration}
    (h : s.checkReachable decls = .ok ()) :
    s'.checkReachable (decls.map (·.inUnit j)) = .ok () := by
  refine checkReachable_of_climb fun {d x} hd ↦ ?_
  rw [Id.get?_map] at hd
  obtain ⟨y, hy, rfl⟩ := Option.map_eq_some_iff.mp hd
  have hclimb := climb_of_checkReachable h hy
  rw [climb_map (Declaration.neutral_inUnit j), List.length_map]
  exact hclimb

theorem checkAcyclic_inUnit {s s' : Slots} {store : Store} (h : s.checkAcyclic store = .ok ()) :
    s'.checkAcyclic (store.mapDecls (·.inUnit j)) = .ok () := by
  rw [checkAcyclic_eq_ok_iff, Store.findCycle_mapDecls (Declaration.neutral_inUnit j)]
  exact checkAcyclic_eq_ok_iff.mp h

/-- No scope but the root goes without a name. -/
def NamedScopes (records : List Record) : Prop :=
  ∀ r ∈ records, r.isUnnamedScope = true → rootRecord? records = some r

section Built

variable {settings : BuilderSettings} {i : UnitId} {records : List Record} {u : ResolvedUnit}

theorem NamedScopes.anonymous (hnamed : NamedScopes records)
    (h : buildUnit settings i records = .ok u) {x : Declaration} (hx : x ∈ u.store.decls) :
    x.anonymous = none := by
  cases hname : x.anonymous with
  | none => rfl
  | some name =>
    obtain ⟨r, hr, hunnamed, hroot, -⟩ := anonymous_of_buildUnit h hx hname
    exact absurd (hnamed r hr hunnamed) hroot

theorem NamedScopes.isAnonymous (hnamed : NamedScopes records)
    (h : buildUnit settings i records = .ok u) : ∀ x ∈ u.store.decls, x.isAnonymous = false := by
  intro x hx
  rw [Declaration.isAnonymous, hnamed.anonymous h hx]
  rfl

/-- Where all scopes have names, a unit is built alike under every number. -/
theorem NamedScopes.buildUnit_inUnit (hnamed : NamedScopes records)
    (h : buildUnit settings i records = .ok u) :
    buildUnit settings j records = .ok (u.inUnit j) := by
  have hneutral := Declaration.neutral_inUnit j
  obtain ⟨a, decls, ha, hu⟩ := buildUnit_eq_ok_iff.mp h
  have hnone : ∀ x ∈ decls, x.anonymous = none := by
    intro x hx
    have hmem : x.withMembers (childrenIn decls x.id) ∈ u.store.decls := by
      rw [hu.linked]
      exact List.mem_map_of_mem hx
    have hanonymous := hnamed.anonymous h hmem
    exact hanonymous
  have hlinked : (u.inUnit j).store.decls = linkChildren (decls.map (·.inUnit j)) := by
    rw [linkChildren_map_inUnit, ← hu.linked]
    rfl
  have ha' := allocate_inUnit j i records a ha
  refine buildUnit_eq_ok_iff.mpr ⟨a.inUnit j, decls.map (·.inUnit j), ha', ?_⟩
  exact {
    references := (a.matches_inUnit j).slots.checkReferences (List.Subset.refl _) hu.references
    types := a.mapM_typeOf_inUnit j hu.types
    declared := AllocatedUnit.declarations_inUnit j hu.declared hnone
    linked := hlinked
    reachable := AllocatedUnit.checkReachable_inUnit j hu.reachable
    acyclic := checkAcyclic_inUnit j hu.acyclic
    keys := by
      have hall : Id.all (u.inUnit j).store.decls = (Id.all u.store.decls : List DeclId) := by
        simp [Id.all, ResolvedUnit.inUnit, Store.mapDecls]
      have hsignature : (u.inUnit j).store.signatureKey = u.store.signatureKey :=
        funext (Store.signatureKey_mapDecls hneutral)
      rw [hall, hsignature]
      exact hu.keys
    unit := rfl
    root := hu.root
    registry := congrArg (Registry.inUnit j) hu.registry
    files := hu.files }

end Built

end ScopeForest
