import ScopeForest.Proofs.Types.Requests

namespace ScopeForest

open Relation Outcome

theorem spellArgs_returns {spell : Speller} {args : List TemplateArg}
    (h : ∀ t, .type t ∈ args → Returns (spell true t)) : Returns (spellArgs spell args) := by
  refine (returns_mapM fun arg harg ↦ ?_).bind fun texts ↦ ⟨_, rfl⟩
  cases arg with
  | type t => exact h t harg
  | value text => exact ⟨text, rfl⟩

theorem Signature.spellAround_returns {spell : TypeId → Outcome String} {declarator : Outcome String}
    {sig : Signature} (hspell : ∀ t ∈ sig.children, Returns (spell t))
    (hinner : Returns declarator) : Returns (sig.spellAround spell declarator) := by
  have hparams : Returns (sig.spellParameters spell) :=
    (returns_mapM fun t ht ↦ hspell t (List.mem_cons_of_mem _ ht)).bind fun _ ↦ ⟨_, rfl⟩
  refine (hspell _ List.mem_cons_self).bind fun result ↦ ?_
  exact hinner.bind fun inner ↦ hparams.bind fun _ ↦ ⟨_, rfl⟩

namespace Store

variable {s : Store} {spell : Speller} {c : Bool} {d : DeclId} {t u : TypeId} {node : Ty}
  {q : Request}

theorem shownName_of_qualifiedPath {path : List String} (h : s.qualifiedPath d = .ok path) :
    s.shownName d = .ok ("::".intercalate path) := by
  have hname : s.qualifiedName d = .ok ("::".intercalate path) := by
    rw [qualifiedName, qualifiedNameWith, show s.pathWith s.spell d = .ok path from h]
    rfl
  rw [shownName, hname]
  rfl

theorem displayName_of_declName {name : String} (h : s.declName d = .ok name) :
    s.displayName d = .ok name := by
  rw [displayName, h]
  rfl

def Spells (s : Store) (q : Request) (spell : Speller) : Prop :=
  ∀ {c : Bool} {u : TypeId}, TransGen s.Asks q (.text c u) → s.HoldsType u → Returns (spell c u)

theorem Spells.of_asks {p : Request} (h : s.Spells q spell) (hp : s.Asks q p) : s.Spells p spell :=
  fun hu ↦ h (.head hp hu)

section Names

variable (hs : s.Closed)

include hs

theorem nameWith_returns (hd : s.HoldsDecl d) (hspell : s.Spells (.name d) spell) :
    Returns (s.nameWith spell d) := by
  obtain ⟨x, hx⟩ := hd
  refine returns_bind (decl_of_get? hx) ?_
  cases ht : x.instantiates? with
  | none => exact ⟨x.name, rfl⟩
  | some t =>
    obtain ⟨node, hnode⟩ := hs.type hx (mem_types_of_instantiates? ht)
    refine returns_bind (ty_of_get? hnode) ?_
    cases node with
    | instantiation template args =>
      obtain ⟨y, hy⟩ := hs.owner hnode rfl
      refine returns_bind (decl_of_get? hy) ?_
      refine (spellArgs_returns fun u hu ↦ ?_).bind fun text ↦ ⟨_, rfl⟩
      have hchild := hs.child hnode (List.mem_filterMap.mpr ⟨_, hu, rfl⟩)
      exact hspell (.single (.argument hx ht hnode hu)) hchild
    | _ => exact ⟨x.name, rfl⟩

theorem pathAux_returns {rank : DeclId → Nat} (hrank : s.Ranks rank) {fuel : Nat}
    {below : List String} (hd : s.HoldsDecl d) (hfuel : rank d < fuel)
    (hname : ∀ {e x}, s.Below e d → e.get? s.decls = some x → x.parent ≠ none →
      x.isAnonymous = false → Returns (s.nameWith spell e)) :
    Returns (s.pathAux spell fuel d below) := by
  induction fuel generalizing d below with
  | zero => omega
  | succ fuel ih =>
    obtain ⟨x, hx⟩ := hd
    refine returns_bind (decl_of_get? hx) ?_
    cases hp : x.parent with
    | none => exact ⟨below, rfl⟩
    | some p =>
      have hlt := hrank hx hp
      have hrest (below : List String) : Returns (s.pathAux spell fuel p below) :=
        ih (hs.parent hx hp) (by omega) fun he ↦ hname (.step hx hp he)
      simp only
      split
      next => exact hrest below
      next hnamed =>
        have hself := hname .refl hx (by simp [hp]) (by simpa using hnamed)
        exact hself.bind fun name ↦ hrest _

theorem pathWith_returns (hd : s.HoldsDecl d) (hspell : s.Spells (.path d) spell) :
    Returns (s.pathWith spell d) := by
  obtain ⟨rank, hrank, hbound⟩ := hs.nested
  obtain ⟨x, hx⟩ := hd
  refine pathAux_returns hs hrank ⟨x, hx⟩ (Nat.lt_succ_of_le (hbound hx)) ?_
  intro e y he hy hparent hnamed
  exact nameWith_returns hs ⟨y, hy⟩ (hspell.of_asks (.scope he hy hparent hnamed))

theorem qualifiedNameWith_returns (hd : s.HoldsDecl d) (hspell : s.Spells (.path d) spell) :
    Returns (s.qualifiedNameWith spell d) :=
  (pathWith_returns hs hd hspell).bind fun _ ↦ ⟨_, rfl⟩

end Names

section Texts

variable {rank : TypeId → Nat} (hs : s.Closed) (hr : s.Ranking s.Expands rank)

include hs hr

theorem canonicalHead_hasHead (ht : s.HoldsType t) :
    ∃ u p, s.canonicalHead t = .ok (u, p) ∧ s.HasHead t u ∧ s.HoldsType u := by
  obtain ⟨u, p, hu, hreach⟩ := canonicalHead_returns hs.linked hr ht
  exact ⟨u, p, hu, hasHead_of_followHead hu, hreach.held⟩

theorem spellPointer_returns (mark : String) (ht : s.HoldsType t)
    (hself : Returns (spell c t)) (hspell : s.Spells (.text c t) spell) :
    Returns (s.spellPointer spell c mark t) := by
  have hpointee : ∃ u, s.pointee c t = .ok u ∧ s.Front c t u ∧ s.HoldsType u := by
    cases c with
    | false => exact ⟨t, rfl, rfl, ht⟩
    | true =>
      obtain ⟨u, p, hu, hhead, hheld⟩ := canonicalHead_hasHead hs hr ht
      exact ⟨u, by rw [pointee, if_pos rfl, hu]; rfl, hhead, hheld⟩
  obtain ⟨u, hu, hfront, node, hnode⟩ := hpointee
  refine returns_bind hu (returns_bind (ty_of_get? hnode) ?_)
  cases node with
  | function sig =>
    refine Signature.spellAround_returns (fun v hv ↦ ?_) ⟨_, rfl⟩
    exact hspell (.single (.part hfront hnode hv)) (hs.child hnode hv)
  | _ => exact hself.bind fun text ↦ ⟨_, rfl⟩

theorem spellNode_returns (hu : s.Front c t u) (hnode : u.get? s.types = some node)
    (hspell : s.Spells (.text c t) spell) : Returns (s.spellNode spell c node) := by
  have hsub {v : TypeId} (hv : v ∈ node.children) : Returns (spell (node.spellsParts c) v) :=
    hspell (.single (.part hu hnode hv)) (hs.child hnode hv)
  have hname {d : DeclId} (hd : node.owner? = some d) : Returns (s.qualifiedNameWith spell d) :=
    qualifiedNameWith_returns hs (hs.owner hnode hd) (hspell.of_asks (.owner hu hnode hd))
  cases node with
  | fundamental name => exact ⟨name, rfl⟩
  | declared d => exact hname rfl
  | pointer v | reference v =>
    have hv : v ∈ [v] := List.mem_singleton_self v
    exact spellPointer_returns hs hr _ (hs.child hnode hv) (hsub hv)
      (hspell.of_asks (.part hu hnode hv))
  | const | volatile | array => exact (hsub List.mem_cons_self).bind fun text ↦ ⟨_, rfl⟩
  | function sig => exact Signature.spellAround_returns (fun _ ↦ hsub) ⟨"", rfl⟩
  | memberFunctionPointer cls sig =>
    exact Signature.spellAround_returns (fun _ ↦ hsub) ((hname rfl).bind fun name ↦ ⟨_, rfl⟩)
  | memberPointer cls v =>
    refine (hsub List.mem_cons_self).bind fun text ↦ ?_
    exact (hname rfl).bind fun name ↦ ⟨_, rfl⟩
  | instantiation template args =>
    refine (hname rfl).bind fun name ↦ ?_
    refine (spellArgs_returns fun v hv ↦ ?_).bind fun text ↦ ⟨_, rfl⟩
    exact hsub (List.mem_filterMap.mpr ⟨_, hv, rfl⟩)

theorem spellAux_succ_returns {fuel : Nat} (ht : s.HoldsType t)
    (hspell : s.Spells (.text c t) (s.spellAux fuel)) : Returns (s.spellAux (fuel + 1) c t) := by
  cases c with
  | false =>
    obtain ⟨node, hnode⟩ := ht
    exact returns_bind (ty_of_get? hnode) (spellNode_returns hs hr rfl hnode hspell)
  | true =>
    obtain ⟨u, p, hu, hhead, node, hnode⟩ := canonicalHead_hasHead hs hr ht
    refine returns_bind hu (returns_bind (ty_of_get? hnode) ?_)
    have htext := spellNode_returns (c := true) hs hr hhead hnode hspell
    exact htext.bind fun text ↦ ⟨_, rfl⟩

theorem spell_of_ends (ht : s.HoldsType t) (h : s.Ends (.text c t)) : Returns (s.spell c t) := by
  let all : List Request :=
    (Id.all s.types).map (.text true) ++ (Id.all s.types).map (.text false)
  have hmem {c : Bool} {u : TypeId} (hu : s.HoldsType u) : .text c u ∈ all := by
    obtain ⟨node, hnode⟩ := hu
    cases c <;> simp [all, Id.mem_all_of_get? hnode]
  obtain ⟨depth, hbound, hlt⟩ := exists_depth s.Asks all
  -- one unit of fuel is spent on a text, and every text inside leads to fewer others
  have hfuel (fuel : Nat) : ∀ {c t}, s.HoldsType t → s.Ends (.text c t) →
      depth (.text c t) < fuel → Returns (s.spellAux fuel c t) := by
    induction fuel with
    | zero => omega
    | succ fuel ih =>
      intro c t ht h hdepth
      refine spellAux_succ_returns hs hr ht fun {c' u} hu hheld ↦ ?_
      have hends := h.of_transGen hu
      have hless := hlt hu (hmem hheld) hends.not_transGen
      exact ih hheld hends (by omega)
  have hle := hbound (.text c t)
  simp only [all, List.length_append, List.length_map, Id.length_all] at hle
  exact hfuel _ ht h (by omega)

theorem returns_spell_iff (ht : s.HoldsType t) : Returns (s.spell c t) ↔ s.Ends (.text c t) :=
  ⟨ends_of_spellAux, spell_of_ends hs hr ht⟩

theorem Ends.spells (h : s.Ends q) : s.Spells q s.spell :=
  fun hu hheld ↦ spell_of_ends hs hr hheld (h.of_transGen hu)

theorem returns_declName_iff (hd : s.HoldsDecl d) : Returns (s.declName d) ↔ s.Ends (.name d) :=
  ⟨ends_of_nameWith ends_of_spellAux, fun h ↦ nameWith_returns hs hd (h.spells hs hr)⟩

theorem returns_qualifiedName_iff (hd : s.HoldsDecl d) :
    Returns (s.qualifiedName d) ↔ s.Ends (.path d) :=
  ⟨ends_of_qualifiedNameWith ends_of_spellAux,
    fun h ↦ qualifiedNameWith_returns hs hd (h.spells hs hr)⟩

theorem qualifiedPath_of_ends (hd : s.HoldsDecl d) (h : s.Ends (.path d)) :
    Returns (s.qualifiedPath d) :=
  pathWith_returns hs hd (h.spells hs hr)

end Texts

theorem HasHead.rank_le {rank : TypeId → Nat} (hr : s.Ranking s.Expands rank)
    (h : s.HasHead t u) : rank u ≤ rank t := by
  obtain ⟨hpath, -⟩ := h
  induction hpath using ReflTransGen.head_induction_on with
  | refl => exact Nat.le_refl _
  | head hstep _ ih =>
    have hlt := hr.lt hstep.expands
    omega

theorem Front.rank_le {rank : TypeId → Nat} (hr : s.Ranking s.Expands rank)
    (h : s.Front c t u) : rank u ≤ rank t := by
  cases c with
  | true => exact HasHead.rank_le hr h
  | false => exact Nat.le_of_eq (congrArg rank h)

section Spellable

variable {rank : TypeId → Nat} (hs : s.Closed) (hr : s.Ranking s.Involves rank)

include hr

theorem Ranking.ends_text (c : Bool) (t : TypeId) : s.Ends (.text c t) := by
  induction hn : rank t using Nat.strong_induction_on generalizing c t with
  | _ n ih =>
    refine .intro _ fun q hq ↦ ?_
    cases hq with
    | part hu hnode hv =>
      have hle := hu.rank_le hr.expands
      have hlt := hr.lt (.expands (.child hnode hv))
      exact ih _ (by omega) _ _ rfl
    | owner hu hnode hd =>
      refine .intro _ fun q hq ↦ ?_
      cases hq with
      | scope he hx _ _ =>
        refine .intro _ fun q hq ↦ ?_
        cases hq with
        | argument hx' hi hargs hv =>
          have hle := hu.rank_le hr.expands
          have hlt := hr.lt (.around hnode hd he hx' hi)
          have hchild := hr.lt (.expands (.child hargs (List.mem_filterMap.mpr ⟨_, hv, rfl⟩)))
          exact ih _ (by omega) _ _ rfl

theorem Ranking.ends_name (d : DeclId) : s.Ends (.name d) := by
  refine .intro _ fun q hq ↦ ?_
  cases hq
  exact hr.ends_text _ _

theorem Ranking.ends_path (d : DeclId) : s.Ends (.path d) := by
  refine .intro _ fun q hq ↦ ?_
  cases hq
  exact hr.ends_name _

include hs

theorem spell_returns (canonical : Bool) (ht : s.HoldsType t) : Returns (s.spell canonical t) :=
  spell_of_ends hs hr.expands ht (hr.ends_text canonical t)

theorem shownName_returns (hd : s.HoldsDecl d) : Returns (s.shownName d) := by
  obtain ⟨path, hpath⟩ := qualifiedPath_of_ends hs hr.expands hd (hr.ends_path d)
  exact ⟨_, shownName_of_qualifiedPath hpath⟩

theorem displayName_returns (hd : s.HoldsDecl d) : Returns (s.displayName d) := by
  obtain ⟨name, hname⟩ := (returns_declName_iff hs hr.expands hd).mpr (hr.ends_name d)
  exact ⟨name, displayName_of_declName hname⟩

end Spellable

end Store

end ScopeForest
