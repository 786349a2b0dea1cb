import ScopeForest.Proofs.Types.Unnamed

namespace ScopeForest

open Relation Outcome

/-- What the recursion behind texts is called for. -/
inductive Request
  | text (canonical : Bool) (t : TypeId)
  /-- The qualified name. -/
  | path (d : DeclId)
  | name (d : DeclId)
  /-- The unnamed scopes that the text of a type leaves out. -/
  | scopes (t : TypeId)
  deriving DecidableEq

/-- How the parts of a node are spelled; template arguments are always spelled canonically. -/
def Ty.spellsParts (canonical : Bool) : Ty → Bool
  | instantiation .. => true
  | _ => canonical

theorem Outcome.returns_of_mapM {ε α β : Type} {f : α → Except ε β} {xs : List α}
    (h : Returns (xs.mapM f)) : ∀ x ∈ xs, Returns (f x) := by
  obtain ⟨ys, hys⟩ := h
  intro x hx
  obtain ⟨y, -, hy⟩ := exists_of_mem_right (List.Forall₂.flip (mapM_eq_ok hys)) hx
  exact ⟨y, hy⟩

namespace Store

variable {s : Store} {c : Bool} {t u v : TypeId} {d e : DeclId} {node : Ty} {p q : Request}

def Front (s : Store) : Bool → TypeId → TypeId → Prop
  | true, t, u => s.HasHead t u
  | false, t, u => u = t

/-- One request is made on the way to the answer of another. A pointer to a function spells the
parts of the function itself, which are the parts of the text of that function. -/
inductive Asks (s : Store) : Request → Request → Prop
  | part {c : Bool} {t u v : TypeId} {node : Ty} (hu : s.Front c t u)
      (hnode : u.get? s.types = some node) (hv : v ∈ node.children) :
      Asks s (.text c t) (.text (node.spellsParts c) v)
  | owner {c : Bool} {t u : TypeId} {node : Ty} {d : DeclId} (hu : s.Front c t u)
      (hnode : u.get? s.types = some node) (hd : node.owner? = some d) :
      Asks s (.text c t) (.path d)
  /-- The root and unnamed scopes are left out. -/
  | scope {d e : DeclId} {x : Declaration} (he : s.Below e d) (hx : e.get? s.decls = some x)
      (hparent : x.parent ≠ none) (hnamed : x.isAnonymous = false) : Asks s (.path d) (.name e)
  | argument {d template : DeclId} {x : Declaration} {i v : TypeId} {args : List TemplateArg}
      (hx : d.get? s.decls = some x) (hi : x.instantiates? = some i)
      (hargs : i.get? s.types = some (.instantiation template args)) (hv : .type v ∈ args) :
      Asks s (.name d) (.text true v)
  | collect {t u v : TypeId} {node : Ty} (hu : s.HasHead t u)
      (hnode : u.get? s.types = some node) (hv : v ∈ node.children) :
      Asks s (.scopes t) (.scopes v)
  | special {t u i : TypeId} {node : Ty} {d : DeclId} {x : Declaration} (hu : s.HasHead t u)
      (hnode : u.get? s.types = some node) (hd : node.owner? = some d)
      (hx : d.get? s.decls = some x) (hi : x.instantiates? = some i) :
      Asks s (.scopes t) (.scopes i)

/-- No infinite chain of requests starts here. -/
def Ends (s : Store) (q : Request) : Prop := Acc (fun p q ↦ s.Asks q p) q

theorem Ends.of_transGen (h : s.Ends q) (hqp : TransGen s.Asks q p) : s.Ends p := by
  induction hqp with
  | single hqp => exact h.inv hqp
  | tail _ hqp ih => exact ih.inv hqp

theorem Ends.not_transGen (h : s.Ends q) : ¬TransGen s.Asks q q := not_transGen_of_acc h

theorem HasHead.unique (h : s.HasHead t u) (h' : s.HasHead t v) : u = v := by
  obtain ⟨hpath, hlast⟩ := h
  induction hpath using ReflTransGen.head_induction_on with
  | refl => exact (h'.eq_self hlast).symm
  | head hstep _ ih => exact ih (h'.of_unwraps hstep)

theorem Front.unique (h : s.Front c t u) (h' : s.Front c t v) : u = v := by
  cases c with
  | true => exact HasHead.unique h h'
  | false => exact Eq.trans h (Eq.symm h')

theorem ends_text (hu : s.Front c t u) (hnode : u.get? s.types = some node)
    (hparts : ∀ v ∈ node.children, s.Ends (.text (node.spellsParts c) v))
    (howner : ∀ d, node.owner? = some d → s.Ends (.path d)) : s.Ends (.text c t) := by
  refine .intro _ fun q hq ↦ ?_
  cases hq with
  | part hu' hnode' hv =>
    cases hu.unique hu'
    rw [hnode] at hnode'
    cases hnode'
    exact hparts _ hv
  | owner hu' hnode' hd =>
    cases hu.unique hu'
    rw [hnode] at hnode'
    cases hnode'
    exact howner _ hd

section Answered

variable {spell : Speller} (hspell : ∀ {c t}, Returns (spell c t) → s.Ends (.text c t))

include hspell

theorem ends_of_spellArgs {args : List TemplateArg} (h : Returns (spellArgs spell args))
    (hv : .type v ∈ args) : s.Ends (.text true v) := by
  obtain ⟨texts, htexts, -⟩ := returns_bind_iff.mp h
  exact hspell (returns_of_mapM ⟨texts, htexts⟩ _ hv)

theorem ends_of_nameWith (h : Returns (s.nameWith spell d)) : s.Ends (.name d) := by
  refine .intro _ fun q hq ↦ ?_
  cases hq with
  | argument hx hi hargs hv =>
    obtain ⟨y, hy, h⟩ := returns_bind_iff.mp h
    rw [decl_of_get? hx] at hy
    cases hy
    rw [hi] at h
    obtain ⟨node, hnode, h⟩ := returns_bind_iff.mp h
    rw [ty_of_get? hargs] at hnode
    cases hnode
    obtain ⟨z, -, h⟩ := returns_bind_iff.mp h
    obtain ⟨text, htext, -⟩ := returns_bind_iff.mp h
    exact ends_of_spellArgs hspell ⟨text, htext⟩ hv

omit hspell in
theorem nameWith_of_pathAux {fuel : Nat} {below : List String} {x : Declaration}
    (h : Returns (s.pathAux spell fuel d below)) (he : s.Below e d) (hx : e.get? s.decls = some x)
    (hparent : x.parent ≠ none) (hnamed : x.isAnonymous = false) :
    Returns (s.nameWith spell e) := by
  induction fuel generalizing d below with
  | zero =>
    obtain ⟨path, h⟩ := h
    cases h
  | succ fuel ih =>
    obtain ⟨y, hy, h⟩ := returns_bind_iff.mp h
    have hy := get?_of_decl hy
    cases he with
    | refl =>
      rw [hx] at hy
      cases hy
      obtain ⟨parent, hp⟩ := Option.ne_none_iff_exists'.mp hparent
      simp only [hp, hnamed] at h
      obtain ⟨name, hname, -⟩ := returns_bind_iff.mp h
      exact ⟨name, hname⟩
    | step hd hp he =>
      rw [hd] at hy
      cases hy
      simp only [hp] at h
      split at h
      next => exact ih h he
      next =>
        obtain ⟨name, -, h⟩ := returns_bind_iff.mp h
        exact ih h he

theorem ends_of_qualifiedNameWith (h : Returns (s.qualifiedNameWith spell d)) :
    s.Ends (.path d) := by
  obtain ⟨path, hpath, -⟩ := returns_bind_iff.mp h
  refine .intro _ fun q hq ↦ ?_
  cases hq with
  | scope he hx hparent hnamed =>
    exact ends_of_nameWith hspell (nameWith_of_pathAux ⟨path, hpath⟩ he hx hparent hnamed)

theorem ends_of_spellAround {declarator : Outcome String} {sig : Signature}
    (h : Returns (sig.spellAround (spell c) declarator)) :
    (∀ v ∈ sig.children, s.Ends (.text c v)) ∧ Returns declarator := by
  obtain ⟨result, hresult, h⟩ := returns_bind_iff.mp h
  obtain ⟨inner, hinner, h⟩ := returns_bind_iff.mp h
  obtain ⟨params, hparams, -⟩ := returns_bind_iff.mp h
  obtain ⟨texts, htexts, -⟩ := returns_bind_iff.mp ⟨params, hparams⟩
  refine ⟨fun v hv ↦ ?_, inner, hinner⟩
  rcases List.mem_cons.mp hv with rfl | hv
  · exact hspell ⟨result, hresult⟩
  · exact hspell (returns_of_mapM ⟨texts, htexts⟩ v hv)

theorem ends_of_spellPointer {mark : String} (h : Returns (s.spellPointer spell c mark t)) :
    s.Ends (.text c t) := by
  obtain ⟨u, hu, h⟩ := returns_bind_iff.mp h
  obtain ⟨node, hnode, h⟩ := returns_bind_iff.mp h
  have hfront : s.Front c t u := by
    cases c with
    | false => exact (Except.ok.inj hu).symm
    | true =>
      obtain ⟨⟨w, q⟩, hw, rfl⟩ := map_eq_ok hu
      exact hasHead_of_followHead hw
  cases node with
  | function sig =>
    obtain ⟨hparts, -⟩ := ends_of_spellAround hspell h
    exact ends_text hfront (get?_of_ty hnode) hparts nofun
  | _ =>
    obtain ⟨text, htext, -⟩ := returns_bind_iff.mp h
    exact hspell ⟨text, htext⟩

theorem ends_of_spellNode (h : Returns (s.spellNode spell c node)) :
    (∀ v ∈ node.children, s.Ends (.text (node.spellsParts c) v)) ∧
      ∀ d, node.owner? = some d → s.Ends (.path d) := by
  have hname {d : DeclId} {rest : String → Outcome String}
      (h : Returns (s.qualifiedNameWith spell d >>= rest)) : s.Ends (.path d) := by
    obtain ⟨name, hname, -⟩ := returns_bind_iff.mp h
    exact ends_of_qualifiedNameWith hspell ⟨name, hname⟩
  have hpart {v : TypeId} {rest : String → Outcome String}
      (h : Returns (spell c v >>= rest)) : ∀ u ∈ [v], s.Ends (.text c u) := by
    obtain ⟨text, htext, -⟩ := returns_bind_iff.mp h
    exact List.forall_mem_singleton.mpr (hspell ⟨text, htext⟩)
  cases node with
  | fundamental => exact ⟨nofun, nofun⟩
  | declared d =>
    refine ⟨nofun, fun e he ↦ ?_⟩
    cases he
    exact ends_of_qualifiedNameWith hspell h
  | pointer | reference =>
    exact ⟨List.forall_mem_singleton.mpr (ends_of_spellPointer hspell h), nofun⟩
  | const | volatile | array => exact ⟨hpart h, nofun⟩
  | function => exact ⟨(ends_of_spellAround hspell h).1, nofun⟩
  | memberFunctionPointer cls sig =>
    obtain ⟨hparts, hinner⟩ := ends_of_spellAround hspell h
    refine ⟨hparts, fun e he ↦ ?_⟩
    cases he
    exact hname hinner
  | memberPointer cls pointee =>
    refine ⟨hpart h, fun e he ↦ ?_⟩
    cases he
    obtain ⟨text, -, h⟩ := returns_bind_iff.mp h
    exact hname h
  | instantiation template args =>
    refine ⟨fun v hv ↦ ?_, fun e he ↦ ?_⟩
    · obtain ⟨name, -, h⟩ := returns_bind_iff.mp h
      obtain ⟨text, htext, -⟩ := returns_bind_iff.mp h
      obtain ⟨arg, harg, hv⟩ := List.mem_filterMap.mp hv
      cases arg with
      | type w =>
        cases hv
        exact ends_of_spellArgs hspell ⟨text, htext⟩ harg
      | value text => cases hv
    · cases he
      exact hname h

end Answered

theorem ends_of_spellAux {fuel : Nat} (h : Returns (s.spellAux fuel c t)) :
    s.Ends (.text c t) := by
  induction fuel generalizing c t with
  | zero =>
    obtain ⟨text, h⟩ := h
    cases h
  | succ fuel ih =>
    cases c with
    | false =>
      obtain ⟨node, hnode, h⟩ := returns_bind_iff.mp h
      obtain ⟨hparts, howner⟩ := ends_of_spellNode ih h
      exact ends_text (rfl : s.Front false t t) (get?_of_ty hnode) hparts howner
    | true =>
      obtain ⟨⟨u, q⟩, hu, h⟩ := returns_bind_iff.mp h
      obtain ⟨node, hnode, h⟩ := returns_bind_iff.mp h
      obtain ⟨text, htext, -⟩ := returns_bind_iff.mp h
      obtain ⟨hparts, howner⟩ := ends_of_spellNode ih ⟨text, htext⟩
      have hfront : s.Front true t u := hasHead_of_followHead hu
      exact ends_text hfront (get?_of_ty hnode) hparts howner

theorem ends_of_scopesAux {fuel : Nat} (h : Returns (s.anonymousScopesAux fuel t)) :
    s.Ends (.scopes t) := by
  induction fuel generalizing t with
  | zero =>
    obtain ⟨names, h⟩ := h
    cases h
  | succ fuel ih =>
    obtain ⟨names, h⟩ := h
    obtain ⟨n, u, hn, hu, hcollects⟩ := anonymousScopesAux_eq_ok h
    cases hn
    refine .intro _ fun q hq ↦ ?_
    cases hq with
    | collect hu' hnode hv =>
      cases hu.unique hu'
      obtain ⟨part, hpart, -⟩ := hcollects.of_child hnode hv
      exact ih ⟨part, hpart⟩
    | special hu' hnode hd hx hi =>
      cases hu.unique hu'
      obtain ⟨part, hpart, -⟩ := (hcollects.of_owner hnode hd).2 hx hi
      exact ih ⟨part, hpart⟩

end Store

end ScopeForest
