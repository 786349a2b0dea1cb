import ScopeForest.Proofs.Types.Embedding
import ScopeForest.Proofs.Types.Layers
import ScopeForest.Proofs.Types.Tangles

namespace ScopeForest

open Outcome

section Same

variable {r : Renaming} {same same' : TypeId → TypeId → Outcome Bool}

theorem sameItems_maps {α : Type} {φ : α → α} {same same' : α → α → Outcome Bool}
    (h : ∀ x y, Maps id (same x y) (same' (φ x) (φ y))) (xs ys : List α) :
    Maps id (sameItems same xs ys) (sameItems same' (xs.map φ) (ys.map φ)) := by
  induction xs generalizing ys with
  | nil => cases ys <;> exact .ok _ _
  | cons x xs ih =>
    cases ys with
    | nil => exact .ok _ _
    | cons y ys =>
      refine (h x y).bind fun equal _ ↦ ?_
      cases equal with
      | true => exact ih ys
      | false => exact .ok _ _

variable (hsame : ∀ t u, Maps id (same t u) (same' (r.type t) (r.type u)))

include hsame

theorem Signature.same_maps (a b : Signature) :
    Maps id (a.same same b) ((a.map r.type).same same' (b.map r.type)) := by
  have hlength : (a.map r.type).parameters.length = (b.map r.type).parameters.length ↔
      a.parameters.length = b.parameters.length := by
    simp [Signature.map]
  unfold Signature.same
  simp only [hlength]
  change Maps id _ (if a.hasEllipsis = b.hasEllipsis ∧ a.isConst = b.isConst ∧
    a.isVolatile = b.isVolatile ∧ a.parameters.length = b.parameters.length then _ else _)
  split
  · exact sameItems_maps hsame a.children b.children
  · exact .ok _ _

theorem TemplateArg.same_maps (a b : TemplateArg) :
    Maps id (a.same same b) ((a.map r.type).same same' (b.map r.type)) := by
  cases a with
  | type t =>
    cases b with
    | type u => exact hsame t u
    | value text => exact .ok _ _
  | value text => cases b <;> exact .ok _ _

/-- Comparing nodes does not see the ids, as long as different owners stay different. -/
theorem Ty.same_maps {a b : Ty} (howner : ∀ d e, a.owner? = some d → b.owner? = some e →
    (r.decl d = r.decl e ↔ d = e)) :
    Maps id (a.same same b) ((r.ty a).same same' (r.ty b)) := by
  cases a <;> cases b
  -- nodes of different constructors are different
  all_goals try exact .ok id false
  case fundamental.fundamental => exact .ok _ _
  case declared.declared d e =>
    have hiff : (r.decl d == r.decl e) = (d == e) := by
      rw [Bool.eq_iff_iff, beq_iff_eq, beq_iff_eq]
      exact howner d e rfl rfl
    show Maps id (.ok (d == e)) (.ok (r.decl d == r.decl e))
    rw [hiff]
    exact .ok _ _
  case pointer.pointer t u => exact hsame t u
  case reference.reference t u => exact hsame t u
  case const.const t u => exact hsame t u
  case volatile.volatile t u => exact hsame t u
  case array.array t m u n =>
    show Maps id (if m = n then same t u else _) (if m = n then same' _ _ else _)
    split
    · exact hsame t u
    · exact .ok _ _
  case function.function a b => exact Signature.same_maps hsame a b
  case memberFunctionPointer.memberFunctionPointer d a e b =>
    show Maps id (if d = e then a.same same b else _) (if r.decl d = r.decl e then _ else _)
    simp only [howner d e rfl rfl]
    split
    · exact Signature.same_maps hsame a b
    · exact .ok _ _
  case memberPointer.memberPointer d t e u =>
    show Maps id (if d = e then same t u else _) (if r.decl d = r.decl e then _ else _)
    simp only [howner d e rfl rfl]
    split
    · exact hsame t u
    · exact .ok _ _
  case instantiation.instantiation d as e bs =>
    show Maps id (if d = e ∧ as.length = bs.length then sameItems _ as bs else _)
      (if r.decl d = r.decl e ∧ (as.map _).length = (bs.map _).length then _ else _)
    simp only [howner d e rfl rfl, List.length_map]
    split
    · exact sameItems_maps (TemplateArg.same_maps hsame) as bs
    · exact .ok _ _

end Same

def Decomposition.mapBase (f : TypeId → TypeId) (d : Decomposition) : Decomposition :=
  { d with base := f d.base }

theorem Renaming.layer?_ty (r : Renaming) (node : Ty) :
    (r.ty node).layer? = node.layer?.map (Prod.map id r.type) := by
  cases node <;> rfl

theorem Renaming.shape?_ty (r : Renaming) (node : Ty) :
    (r.ty node).shape? = node.shape?.map (Prod.map id r.type) := by
  cases node <;> rfl

theorem Renaming.Alike.neutral {r : Renaming} {x y : Declaration}
    {change : Declaration → Declaration} (h : r.Alike x y) (hc : Declaration.Neutral change) :
    r.Alike x (change y) where
  name := (hc.name y).trans h.name
  parent := (hc.parent y).trans h.parent
  anonymous := (hc.anonymous y).trans h.anonymous
  aliased := (hc.aliased y).trans h.aliased
  instantiates := (hc.instantiates y).trans h.instantiates
  callable := (hc.callable y).trans h.callable

def Request.map (r : Renaming) : Request → Request
  | text canonical t => text canonical (r.type t)
  | path d => path (r.decl d)
  | name d => name (r.decl d)
  | scopes t => scopes (r.type t)

theorem Renaming.spellsParts_ty (r : Renaming) (c : Bool) (node : Ty) :
    (r.ty node).spellsParts c = node.spellsParts c := by
  cases node <;> rfl

namespace Store

variable {r : Renaming} {s s' : Store} {c : Bool} {t u : TypeId} {d e : DeclId} {node : Ty}
  {p q : Request}

/-- The views of `s` are those of `s'`, under the ids that `r` gives. What never ends has no text in
either store. -/
structure Mirrors (r : Renaming) (s s' : Store) : Prop where
  structuralEquals : ∀ {a b}, s.HoldsType a → s.HoldsType b → ∃ equal,
    s.structuralEquals a b = .ok equal ∧ s'.structuralEquals (r.type a) (r.type b) = .ok equal
  rawEquals : ∀ {a b}, s.HoldsType a → s.HoldsType b → ∃ equal,
    s.rawEquals a b = .ok equal ∧ s'.rawEquals (r.type a) (r.type b) = .ok equal
  decompose : ∀ {t}, s.HoldsType t → ∃ d,
    s.decompose t = .ok d ∧ s'.decompose (r.type t) = .ok (d.mapBase r.type)
  decomposeCanonical : ∀ {t}, s.HoldsType t → ∃ d,
    s.decomposeCanonical t = .ok d ∧ s'.decomposeCanonical (r.type t) = .ok (d.mapBase r.type)
  spell : ∀ {t}, s.HoldsType t → ∀ canonical text,
    s'.spell canonical (r.type t) = .ok text ↔ s.spell canonical t = .ok text
  qualifiedName : ∀ {d}, s.HoldsDecl d → ∀ name,
    s'.qualifiedName (r.decl d) = .ok name ↔ s.qualifiedName d = .ok name
  signatureKey : ∀ {d}, s.HoldsDecl d → ∃ key,
    s.signatureKey d = .ok key ∧ s'.signatureKey (r.decl d) = .ok key

namespace Embeds

variable (h : s.Embeds r s')

include h

theorem mapDecls {change : Declaration → Declaration} (hc : Declaration.Neutral change) :
    s.Embeds r (s'.mapDecls change) where
  type := h.type
  decl hd := by
    obtain ⟨y, hy, hxy⟩ := h.decl hd
    exact ⟨change y, by rw [get?_mapDecls, hy]; rfl, hxy.neutral hc⟩
  injective := h.injective
  types := h.types
  decls := by
    rw [Store.mapDecls, List.length_map]
    exact h.decls

section Equality

variable (hs : s.Closed)

include hs

theorem same_owner {a b : Ty} (ht : t.get? s.types = some a) (hu : u.get? s.types = some b)
    (hd : a.owner? = some d) (he : b.owner? = some e) : r.decl d = r.decl e ↔ d = e :=
  ⟨h.injective (hs.owner ht hd) (hs.owner hu he), fun heq ↦ heq ▸ rfl⟩

variable (hinj : ∀ {t u}, r.type t = r.type u → t = u)

include hinj

theorem structuralEqualsAux {fuel fuel' : Nat} (hfuel : fuel ≤ fuel') (a b : TypeId) :
    Maps id (s.structuralEqualsAux fuel a b)
      (s'.structuralEqualsAux fuel' (r.type a) (r.type b)) := by
  induction fuel generalizing fuel' a b with
  | zero => exact .error _ _ _
  | succ fuel ih =>
    obtain ⟨fuel', rfl⟩ : ∃ n, fuel' = n + 1 := ⟨fuel' - 1, by omega⟩
    have hiff : r.type a = r.type b ↔ a = b := ⟨hinj, fun heq ↦ heq ▸ rfl⟩
    unfold Store.structuralEqualsAux
    simp only [hiff]
    split
    · exact .ok _ _
    · refine (h.canonicalHead a).bind fun heada _ ↦ (h.canonicalHead b).bind fun headb _ ↦ ?_
      obtain ⟨t, p⟩ := heada
      obtain ⟨u, q⟩ := headb
      simp only [Prod.map, id]
      split
      · refine (h.ty t).bind fun nodea ha ↦ (h.ty u).bind fun nodeb hb ↦ ?_
        refine Ty.same_maps (ih (by omega)) fun d e hd he ↦ ?_
        exact h.same_owner hs (get?_of_ty ha) (get?_of_ty hb) hd he
      · exact .ok _ _

theorem rawEqualsAux {fuel fuel' : Nat} (hfuel : fuel ≤ fuel') (a b : TypeId) :
    Maps id (s.rawEqualsAux fuel a b) (s'.rawEqualsAux fuel' (r.type a) (r.type b)) := by
  induction fuel generalizing fuel' a b with
  | zero => exact .error _ _ _
  | succ fuel ih =>
    obtain ⟨fuel', rfl⟩ : ∃ n, fuel' = n + 1 := ⟨fuel' - 1, by omega⟩
    have hiff : r.type a = r.type b ↔ a = b := ⟨hinj, fun heq ↦ heq ▸ rfl⟩
    unfold Store.rawEqualsAux
    simp only [hiff]
    split
    · exact .ok _ _
    · refine (h.ty a).bind fun nodea ha ↦ (h.ty b).bind fun nodeb hb ↦ ?_
      refine Ty.same_maps (ih (by omega)) fun d e hd he ↦ ?_
      exact h.same_owner hs (get?_of_ty ha) (get?_of_ty hb) hd he

end Equality

theorem decomposeAux {fuel fuel' : Nat} (hfuel : fuel ≤ fuel') (t : TypeId) :
    Maps (·.mapBase r.type) (s.decomposeAux fuel t) (s'.decomposeAux fuel' (r.type t)) := by
  induction fuel generalizing fuel' t with
  | zero => exact .error _ _ _
  | succ fuel ih =>
    obtain ⟨fuel', rfl⟩ : ∃ n, fuel' = n + 1 := ⟨fuel' - 1, by omega⟩
    refine (h.ty t).bind fun node _ ↦ ?_
    rw [Renaming.layer?_ty]
    cases node.layer? with
    | none => exact .ok _ _
    | some found => exact (ih (by omega) found.2).bind fun d _ ↦ .ok _ _

theorem decomposeCanonicalAux {fuel fuel' : Nat} (hfuel : fuel ≤ fuel') (t : TypeId) :
    Maps (·.mapBase r.type) (s.decomposeCanonicalAux fuel t)
      (s'.decomposeCanonicalAux fuel' (r.type t)) := by
  induction fuel generalizing fuel' t with
  | zero => exact .error _ _ _
  | succ fuel ih =>
    obtain ⟨fuel', rfl⟩ : ∃ n, fuel' = n + 1 := ⟨fuel' - 1, by omega⟩
    refine (h.canonicalHead t).bind fun ⟨head, q⟩ _ ↦ (h.ty head).bind fun node _ ↦ ?_
    rw [Renaming.shape?_ty]
    cases node.shape? with
    | none => exact .ok _ _
    | some found => exact (ih (by omega) found.2).bind fun d _ ↦ .ok _ _

section Requests

theorem below (he : s.Below e d) : s'.Below (r.decl e) (r.decl d) := by
  induction he with
  | refl => exact .refl
  | step hx hp _ ih =>
    obtain ⟨y, hy, hxy⟩ := h.decl hx
    exact .step hy (by rw [hxy.parent, hp]; rfl) ih

theorem unwraps (ht : s.Unwraps t u) : s'.Unwraps (r.type t) (r.type u) := by
  cases ht with
  | const ht => exact .const (h.type ht)
  | volatile ht => exact .volatile (h.type ht)
  | named ht hd hu =>
    obtain ⟨y, hy, hxy⟩ := h.decl hd
    exact .named (h.type ht) hy (by rw [hxy.expansion, hu]; rfl)

variable (hs : s.Closed)

include hs

theorem not_unwraps (ht : t.get? s.types = some node) (hlast : ∀ u, ¬s.Unwraps t u) (v : TypeId) :
    ¬s'.Unwraps (r.type t) v := by
  intro hv
  have hnode := h.type ht
  cases hv with
  | const hc =>
    rw [hnode] at hc
    cases node with
    | const u => exact hlast u (.const ht)
    | _ => cases hc
  | volatile hc =>
    rw [hnode] at hc
    cases node with
    | volatile u => exact hlast u (.volatile ht)
    | _ => cases hc
  | named hc hd hv =>
    rw [hnode] at hc
    cases node with
    | declared d =>
      cases hc
      obtain ⟨x, hx⟩ := hs.owner ht rfl
      obtain ⟨y, hy, hxy⟩ := h.decl hx
      rw [hy] at hd
      cases hd
      rw [hxy.expansion] at hv
      obtain ⟨u, hu, -⟩ := Option.map_eq_some_iff.mp hv
      exact hlast u (.named ht hx hu)
    | _ => cases hc

theorem hasHead (hu : s.HasHead t u) (hnode : u.get? s.types = some node) :
    s'.HasHead (r.type t) (r.type u) :=
  ⟨hu.path.lift r.type fun _ _ ↦ h.unwraps, h.not_unwraps hs hnode hu.last⟩

theorem front (hu : s.Front c t u) (hnode : u.get? s.types = some node) :
    s'.Front c (r.type t) (r.type u) := by
  cases c with
  | true => exact h.hasHead hs hu hnode
  | false => exact congrArg r.type hu

theorem asks (hqp : s.Asks q p) : s'.Asks (q.map r) (p.map r) := by
  have hchild {node : Ty} {v : TypeId} (hv : v ∈ node.children) :
      r.type v ∈ (r.ty node).children := by
    rw [Renaming.ty, Ty.children_rename]
    exact List.mem_map_of_mem hv
  have howner {node : Ty} {d : DeclId} (hd : node.owner? = some d) :
      (r.ty node).owner? = some (r.decl d) := by
    rw [Renaming.ty, Ty.owner?_rename, hd]
    rfl
  cases hqp with
  | part hu hnode hv =>
    have hpart := Asks.part (h.front hs hu hnode) (h.type hnode) (hchild hv)
    rw [Renaming.spellsParts_ty] at hpart
    exact hpart
  | owner hu hnode hd => exact .owner (h.front hs hu hnode) (h.type hnode) (howner hd)
  | scope he hx hparent hnamed =>
    obtain ⟨y, hy, hxy⟩ := h.decl hx
    refine .scope (h.below he) hy ?_ ?_
    · simpa [hxy.parent] using hparent
    · rw [Declaration.isAnonymous, hxy.anonymous]
      exact hnamed
  | argument hx hi hargs hv =>
    obtain ⟨y, hy, hxy⟩ := h.decl hx
    refine .argument hy (by rw [hxy.instantiates, hi]; rfl) (h.type hargs) ?_
    exact List.mem_map.mpr ⟨_, hv, rfl⟩
  | collect hu hnode hv => exact .collect (h.hasHead hs hu hnode) (h.type hnode) (hchild hv)
  | special hu hnode hd hx hi =>
    obtain ⟨y, hy, hxy⟩ := h.decl hx
    exact .special (h.hasHead hs hu hnode) (h.type hnode) (howner hd) hy
      (by rw [hxy.instantiates, hi]; rfl)

theorem ends (hq : s'.Ends (q.map r)) : s.Ends q :=
  Subrelation.accessible (fun hpq ↦ h.asks hs hpq) (InvImage.accessible (Request.map r) hq)

end Requests

end Embeds

end Store

theorem Outcome.Maps.ok_iff {ε α : Type} {x y : Except ε α} (h : Maps id x y)
    (hback : Returns y → Returns x) (a : α) : y = .ok a ↔ x = .ok a := by
  refine ⟨fun hy ↦ ?_, h a⟩
  obtain ⟨b, hb⟩ := hback ⟨a, hy⟩
  have hyb := h b hb
  rw [hy] at hyb
  cases hyb
  exact hb

namespace Store.Embeds

variable {r : Renaming} {s s' : Store}

theorem mirrors (h : s.Embeds r s') (hs : s.Closed) (hacyclic : s.Acyclic)
    (hinj : ∀ {t u}, r.type t = r.type u → t = u)
    (hkeys : ∀ {d}, s.HoldsDecl d → Returns (s.signatureKey d)) : s.Mirrors r s' := by
  obtain ⟨rank, hr⟩ := exists_rank hs.expands hacyclic
  have hsquare : s.types.length * s.types.length ≤ s'.types.length * s'.types.length :=
    Nat.mul_le_mul h.types h.types
  constructor
  case structuralEquals =>
    intro a b ha hb
    obtain ⟨equal, hequal⟩ := structuralEquals_returns hs.linked hr ha hb
    exact ⟨equal, hequal, h.structuralEqualsAux hs hinj (Nat.succ_le_succ hsquare) a b _ hequal⟩
  case rawEquals =>
    intro a b ha hb
    obtain ⟨equal, hequal⟩ := rawEquals_returns hs.linked hr ha hb
    exact ⟨equal, hequal, h.rawEqualsAux hs hinj (Nat.succ_le_succ hsquare) a b _ hequal⟩
  case decompose =>
    intro t ht
    obtain ⟨d, hd⟩ := decompose_returns hs.linked hr ht
    exact ⟨d, hd, h.decomposeAux (Nat.succ_le_succ h.types) t _ hd⟩
  case decomposeCanonical =>
    intro t ht
    obtain ⟨d, hd⟩ := decomposeCanonical_returns hs.linked hr ht
    exact ⟨d, hd, h.decomposeCanonicalAux (Nat.succ_le_succ h.types) t _ hd⟩
  case spell =>
    intro t ht canonical
    refine (h.spell canonical t).ok_iff fun hreturns ↦ ?_
    exact spell_of_ends hs hr ht (h.ends hs (ends_of_spellAux hreturns))
  case qualifiedName =>
    intro d hd
    refine (h.qualifiedNameWith h.spell d).ok_iff fun hreturns ↦ ?_
    have hends := ends_of_qualifiedNameWith ends_of_spellAux hreturns
    exact (returns_qualifiedName_iff hs hr hd).mpr (h.ends (q := .path d) hs hends)
  case signatureKey =>
    intro d hd
    obtain ⟨key, hkey⟩ := hkeys hd
    exact ⟨key, hkey, h.signatureKey d _ hkey⟩

end Store.Embeds

end ScopeForest
