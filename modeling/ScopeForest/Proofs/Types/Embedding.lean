import ScopeForest.Forest.Merge
import ScopeForest.Proofs.Types.Heads
import ScopeForest.Store.MergeName

namespace ScopeForest

open Outcome

namespace Renaming

variable (r : Renaming)

def callableDetails (c : CallableDetails) : CallableDetails :=
  { c with
    returnType := c.returnType.map r.type
    parameters := c.parameters.map fun p ↦ { p with type := r.type p.type } }

/-- What texts are made from is the same for `x` and `y`, up to the renaming. -/
structure Alike (x y : Declaration) : Prop where
  name : y.name = x.name
  parent : y.parent = x.parent.map r.decl
  anonymous : y.anonymous = x.anonymous
  aliased : y.aliased? = x.aliased?.map r.type
  instantiates : y.instantiates? = x.instantiates?.map r.type
  callable : y.callableDetails? = x.callableDetails?.map r.callableDetails

theorem Alike.expansion {r : Renaming} {x y : Declaration} (h : r.Alike x y) :
    y.expansion? = x.expansion?.map r.type := by
  rw [Declaration.expansion?, Declaration.expansion?, h.aliased, h.instantiates]
  cases x.aliased? <;> rfl

theorem Alike.withMembers {r : Renaming} {x y : Declaration} (h : r.Alike x y)
    (members members' : List DeclId) :
    r.Alike (x.withMembers members) (y.withMembers members') := by
  have hdetails (z : Declaration) (ms : List DeclId) : (z.withMembers ms).aliased? = z.aliased? ∧
      (z.withMembers ms).instantiates? = z.instantiates? ∧
      (z.withMembers ms).callableDetails? = z.callableDetails? := by
    rcases z with ⟨_, _, _, _, _, _, _, _, _, details⟩
    cases details <;> exact ⟨rfl, rfl, rfl⟩
  obtain ⟨haliased, hinstantiates, hcallable⟩ := hdetails x members
  obtain ⟨haliased', hinstantiates', hcallable'⟩ := hdetails y members'
  refine ⟨h.name, h.parent, h.anonymous, ?_, ?_, ?_⟩
  · rw [haliased, haliased', h.aliased]
  · rw [hinstantiates, hinstantiates', h.instantiates]
  · rw [hcallable, hcallable', h.callable]

theorem alike_declaration (d : DeclId) (x : Declaration) : r.Alike x (r.declaration d x) := by
  rcases x with ⟨_, _, _, _, _, _, _, _, _, details⟩
  cases details <;> exact ⟨rfl, rfl, rfl, rfl, rfl, rfl⟩

end Renaming

namespace Store

/-- The store `s'` holds all of `s` under the ids that `r` gives, and no two declarations of `s` under
one id. -/
structure Embeds (r : Renaming) (s s' : Store) : Prop where
  type : ∀ {t : TypeId} {node : Ty}, t.get? s.types = some node →
    (r.type t).get? s'.types = some (r.ty node)
  decl : ∀ {d : DeclId} {x : Declaration}, d.get? s.decls = some x →
    ∃ y, (r.decl d).get? s'.decls = some y ∧ r.Alike x y
  injective : ∀ {d e : DeclId}, s.HoldsDecl d → s.HoldsDecl e → r.decl d = r.decl e → d = e
  types : s.types.length ≤ s'.types.length
  decls : s.decls.length ≤ s'.decls.length

variable {r : Renaming} {s s' : Store}

namespace Embeds

variable (h : s.Embeds r s')

include h

theorem ty (t : TypeId) : Maps r.ty (s.ty t) (s'.ty (r.type t)) := by
  intro node hnode
  exact ty_of_get? (h.type (get?_of_ty hnode))

theorem bind_decl {α β : Type} {φ : α → β} {f : Declaration → Outcome α}
    {g : Declaration → Outcome β} {d : DeclId}
    (hf : ∀ x y, d.get? s.decls = some x → r.Alike x y → Maps φ (f x) (g y)) :
    Maps φ (s.decl d >>= f) (s'.decl (r.decl d) >>= g) := by
  intro a ha
  obtain ⟨x, hx, ha⟩ := bind_eq_ok ha
  obtain ⟨y, hy, hxy⟩ := h.decl (get?_of_decl hx)
  rw [decl_of_get? hy]
  exact hf x y (get?_of_decl hx) hxy a ha

theorem stripQualifiersAux {fuel fuel' : Nat} (hfuel : fuel ≤ fuel') (q : Qualifiers) (t : TypeId) :
    Maps (Prod.map r.type id) (s.stripQualifiersAux fuel q t)
      (s'.stripQualifiersAux fuel' q (r.type t)) := by
  induction fuel generalizing fuel' q t with
  | zero => exact .error _ _ _
  | succ fuel ih =>
    obtain ⟨fuel', rfl⟩ : ∃ n, fuel' = n + 1 := ⟨fuel' - 1, by omega⟩
    have hle : fuel ≤ fuel' := by omega
    intro found hfound
    unfold Store.stripQualifiersAux at hfound ⊢
    split at hfound
    next => cases hfound
    next u hu =>
      rw [h.ty t _ hu]
      exact ih hle _ u _ hfound
    next u hu =>
      rw [h.ty t _ hu]
      exact ih hle _ u _ hfound
    next node hconst hvolatile hnode =>
      rw [h.ty t _ hnode]
      cases hfound
      cases node with
      | const u => exact absurd rfl (hconst u)
      | volatile u => exact absurd rfl (hvolatile u)
      | _ => rfl

theorem followHead {seen : List DeclId} (hseen : ∀ d ∈ seen, s.HoldsDecl d) (q : Qualifiers)
    (t : TypeId) : Maps (Prod.map r.type id) (s.followHead seen q t)
      (s'.followHead (seen.map r.decl) q (r.type t)) := by
  have hstrip {q p : Qualifiers} {t u : TypeId}
      (hu : s.stripQualifiersAux (s.types.length + 1) q t = .ok (u, p)) :
      s'.stripQualifiersAux (s'.types.length + 1) q (r.type t) = .ok (r.type u, p) :=
    h.stripQualifiersAux (Nat.succ_le_succ h.types) q t _ hu
  intro found hfound
  fun_induction Store.followHead s seen q t with
  | case1 | case2 | case3 | case5 => cases hfound
  | case4 seen q t u p hu d hd x hx hnone =>
    cases hfound
    obtain ⟨y, hy, hxy⟩ := h.decl hx
    unfold Store.followHead
    simp only [hstrip hu, h.ty u _ hd, Renaming.ty, Ty.rename]
    split
    next hnone' => rw [hy] at hnone'; cases hnone'
    next z hz =>
      rw [hy] at hz
      cases hz
      simp [hxy.expansion, hnone]
  | case6 seen q t u p hu d hd x hx next hnext hmem ih =>
    obtain ⟨y, hy, hxy⟩ := h.decl hx
    have hfresh : r.decl d ∉ seen.map r.decl := by
      intro hd'
      obtain ⟨e, he, hde⟩ := List.mem_map.mp hd'
      exact hmem (h.injective (hseen e he) ⟨x, hx⟩ hde ▸ he)
    have hrest := ih (List.forall_mem_cons.mpr ⟨⟨x, hx⟩, hseen⟩) hfound
    unfold Store.followHead
    simp only [hstrip hu, h.ty u _ hd, Renaming.ty, Ty.rename]
    split
    next hnone' => rw [hy] at hnone'; cases hnone'
    next z hz =>
      rw [hy] at hz
      cases hz
      simp only [hxy.expansion, hnext, Option.map_some, hfresh, dite_false]
      exact hrest
  | case7 seen q t u p hu node hne hnode =>
    cases hfound
    unfold Store.followHead
    simp only [hstrip hu, h.ty u _ hnode]
    cases node with
    | declared d => exact absurd rfl (hne d)
    | _ => rfl

theorem canonicalHead (t : TypeId) :
    Maps (Prod.map r.type id) (s.canonicalHead t) (s'.canonicalHead (r.type t)) :=
  h.followHead (fun d hd ↦ by cases hd) {} t

end Embeds

section Texts

variable {spell spell' : Speller}

/-- Where `spell` gives a type a text, `spell'` gives its image the same one. -/
def SpellsAlike (r : Renaming) (spell spell' : Speller) : Prop :=
  ∀ canonical t, Maps id (spell canonical t) (spell' canonical (r.type t))

theorem SpellsAlike.args (hspell : SpellsAlike r spell spell') (args : List TemplateArg) :
    Maps id (spellArgs spell args) (spellArgs spell' (args.map (TemplateArg.map r.type))) := by
  refine Maps.bind (φ := List.map id) (Maps.mapM fun arg _ ↦ ?_) fun texts _ ↦ ?_
  · cases arg with
    | type t => exact hspell true t
    | value text => exact .ok _ _
  · rw [List.map_id]
    exact .ok _ _

theorem SpellsAlike.signature (hspell : SpellsAlike r spell spell') (canonical : Bool)
    {declarator declarator' : Outcome String} (hdeclarator : Maps id declarator declarator')
    (sig : Signature) : Maps id (sig.spellAround (spell canonical) declarator)
      ((sig.map r.type).spellAround (spell' canonical) declarator') := by
  refine (hspell canonical sig.returnType).bind fun result _ ↦ ?_
  refine hdeclarator.bind fun inner _ ↦ ?_
  refine Maps.bind (φ := id) ?_ fun parameters _ ↦ .ok _ _
  refine Maps.bind (φ := List.map id) (Maps.mapM fun t _ ↦ hspell canonical t) fun texts _ ↦ ?_
  rw [List.map_id]
  exact .ok _ _

namespace Embeds

variable (h : s.Embeds r s') (hspell : SpellsAlike r spell spell')

include h hspell

theorem nameWith (d : DeclId) :
    Maps id (s.nameWith spell d) (s'.nameWith spell' (r.decl d)) := by
  refine h.bind_decl fun x y _ hxy ↦ ?_
  rw [hxy.instantiates, hxy.name]
  cases x.instantiates? with
  | none => exact .ok _ _
  | some t =>
    refine (h.ty t).bind fun node _ ↦ ?_
    cases node with
    | instantiation template args =>
      refine h.bind_decl fun x y _ hxy ↦ ?_
      rw [hxy.name]
      exact (hspell.args args).bind fun texts _ ↦ .ok _ _
    | _ => exact .ok _ _

theorem pathAux {fuel fuel' : Nat} (hfuel : fuel ≤ fuel') (d : DeclId) (below : List String) :
    Maps id (s.pathAux spell fuel d below) (s'.pathAux spell' fuel' (r.decl d) below) := by
  induction fuel generalizing fuel' d below with
  | zero => exact .error _ _ _
  | succ fuel ih =>
    obtain ⟨fuel', rfl⟩ : ∃ n, fuel' = n + 1 := ⟨fuel' - 1, by omega⟩
    have hle : fuel ≤ fuel' := by omega
    refine h.bind_decl fun x y _ hxy ↦ ?_
    rw [hxy.parent, Declaration.isAnonymous, Declaration.isAnonymous, hxy.anonymous]
    cases x.parent with
    | none => exact .ok _ _
    | some parent =>
      simp only [Option.map_some]
      split
      next => exact ih hle parent below
      next => exact (h.nameWith hspell d).bind fun name _ ↦ ih hle parent _

theorem qualifiedNameWith (d : DeclId) :
    Maps id (s.qualifiedNameWith spell d) (s'.qualifiedNameWith spell' (r.decl d)) :=
  (h.pathAux hspell (Nat.succ_le_succ h.decls) d []).bind fun _ _ ↦ .ok _ _

theorem spellPointer (canonical : Bool) (mark : String) (t : TypeId) :
    Maps id (s.spellPointer spell canonical mark t)
      (s'.spellPointer spell' canonical mark (r.type t)) := by
  have hpointee : Maps r.type (s.pointee canonical t) (s'.pointee canonical (r.type t)) := by
    cases canonical with
    | false => exact .ok _ _
    | true => exact (h.canonicalHead t).map fun _ ↦ rfl
  refine hpointee.bind fun u _ ↦ (h.ty u).bind fun node _ ↦ ?_
  cases node with
  | function sig => exact hspell.signature canonical (.ok _ _) sig
  | _ => exact (hspell canonical t).bind fun text _ ↦ .ok _ _

theorem spellNode (canonical : Bool) (node : Ty) :
    Maps id (s.spellNode spell canonical node) (s'.spellNode spell' canonical (r.ty node)) := by
  cases node with
  | fundamental name => exact .ok _ _
  | declared d => exact h.qualifiedNameWith hspell d
  | pointer t => exact h.spellPointer hspell canonical "*" t
  | reference t => exact h.spellPointer hspell canonical "&" t
  | const t => exact (hspell canonical t).bind fun text _ ↦ .ok _ _
  | volatile t => exact (hspell canonical t).bind fun text _ ↦ .ok _ _
  | array element size => exact (hspell canonical element).bind fun text _ ↦ .ok _ _
  | function sig => exact hspell.signature canonical (.ok _ _) sig
  | memberFunctionPointer cls sig =>
    refine hspell.signature canonical ?_ sig
    exact (h.qualifiedNameWith hspell cls).bind fun name _ ↦ .ok _ _
  | memberPointer cls pointee =>
    refine (hspell canonical pointee).bind fun text _ ↦ ?_
    exact (h.qualifiedNameWith hspell cls).bind fun name _ ↦ .ok _ _
  | instantiation template args =>
    refine (h.qualifiedNameWith hspell template).bind fun name _ ↦ ?_
    exact (hspell.args args).bind fun texts _ ↦ .ok _ _

end Embeds

end Texts

namespace Embeds

variable (h : s.Embeds r s')

include h

theorem spellAux {fuel fuel' : Nat} (hfuel : fuel ≤ fuel') :
    SpellsAlike r (s.spellAux fuel) (s'.spellAux fuel') := by
  induction fuel generalizing fuel' with
  | zero => exact fun _ _ ↦ .error _ _ _
  | succ fuel ih =>
    obtain ⟨fuel', rfl⟩ : ∃ n, fuel' = n + 1 := ⟨fuel' - 1, by omega⟩
    have hspell : SpellsAlike r (s.spellAux fuel) (s'.spellAux fuel') := ih (by omega)
    intro canonical t
    cases canonical with
    | true =>
      refine (h.canonicalHead t).bind fun ⟨head, q⟩ _ ↦ (h.ty head).bind fun node _ ↦ ?_
      exact (h.spellNode hspell true node).bind fun text _ ↦ .ok _ _
    | false => exact (h.ty t).bind fun node _ ↦ h.spellNode hspell false node

theorem spell : SpellsAlike r s.spell s'.spell := by
  have hfuel : 2 * s.types.length + 1 ≤ 2 * s'.types.length + 1 := by
    have hle := h.types
    omega
  exact h.spellAux hfuel

theorem anonymousAroundAux {fuel fuel' : Nat} (hfuel : fuel ≤ fuel') (d : DeclId) :
    Maps id (s.anonymousAroundAux fuel d) (s'.anonymousAroundAux fuel' (r.decl d)) := by
  induction fuel generalizing fuel' d with
  | zero => exact .error _ _ _
  | succ fuel ih =>
    obtain ⟨fuel', rfl⟩ : ∃ n, fuel' = n + 1 := ⟨fuel' - 1, by omega⟩
    refine h.bind_decl fun x y _ hxy ↦ ?_
    rw [hxy.parent, hxy.anonymous]
    cases x.parent with
    | none => exact .ok _ _
    | some parent => exact (ih (by omega) parent).bind fun outer _ ↦ .ok _ _

theorem ownerScopes (node : Ty) : Maps (Prod.map id (Option.map r.type)) (s.ownerScopes node)
    (s'.ownerScopes (r.ty node)) := by
  unfold Store.ownerScopes
  rw [Renaming.ty, Ty.owner?_rename]
  cases node.owner? with
  | none => exact .ok _ _
  | some d =>
    refine (h.anonymousAroundAux (Nat.succ_le_succ h.decls) d).bind fun names _ ↦ ?_
    refine h.bind_decl fun x y _ hxy ↦ ?_
    rw [hxy.instantiates]
    exact .ok _ _

theorem anonymousScopesAux {fuel fuel' : Nat} (hfuel : fuel ≤ fuel') (t : TypeId) :
    Maps id (s.anonymousScopesAux fuel t) (s'.anonymousScopesAux fuel' (r.type t)) := by
  induction fuel generalizing fuel' t with
  | zero => exact .error _ _ _
  | succ fuel ih =>
    obtain ⟨fuel', rfl⟩ : ∃ n, fuel' = n + 1 := ⟨fuel' - 1, by omega⟩
    refine (h.canonicalHead t).bind fun ⟨head, q⟩ _ ↦ (h.ty head).bind fun node _ ↦ ?_
    refine (h.ownerScopes node).bind fun ⟨own, special⟩ _ ↦ ?_
    have htypes : (special.map r.type).toList ++ (r.ty node).children =
        (special.toList ++ node.children).map r.type := by
      rw [Renaming.ty, Ty.children_rename, List.map_append, Option.toList_map]
    simp only [Prod.map, id, htypes]
    refine Maps.bind (φ := List.map id) (Maps.mapM fun u _ ↦ ih (by omega) u) fun inner _ ↦ ?_
    rw [List.map_id]
    exact .ok _ _

theorem anonymousScopes (t : TypeId) :
    Maps id (s.anonymousScopes t) (s'.anonymousScopes (r.type t)) :=
  h.anonymousScopesAux (Nat.succ_le_succ h.types) t

theorem signatureKey (d : DeclId) :
    Maps id (s.signatureKey d) (s'.signatureKey (r.decl d)) := by
  refine h.bind_decl fun x y _ hxy ↦ ?_
  rw [hxy.callable]
  cases x.callableDetails? with
  | none => exact .ok _ _
  | some c =>
    have htypes : (r.callableDetails c).parameters.map (·.type) =
        (c.parameters.map (·.type)).map r.type := by
      simp [Renaming.callableDetails]
    simp only [Option.map_some, htypes]
    refine Maps.bind (φ := List.map id) (Maps.mapM fun t _ ↦ h.spell true t) fun texts _ ↦ ?_
    refine Maps.bind (φ := List.map id) (Maps.mapM fun t _ ↦ h.anonymousScopes t) fun names _ ↦ ?_
    rw [List.map_id, List.map_id]
    exact .ok _ _

end Embeds

end Store

end ScopeForest
