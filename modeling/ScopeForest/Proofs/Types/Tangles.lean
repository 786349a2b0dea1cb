import ScopeForest.Proofs.Types.Spelling

namespace ScopeForest.Store

open Relation Outcome

variable {s : Store} {d : DeclId} {t u : TypeId} {node : Ty} {p q : Request}

/-- A request that goes on to the template arguments of a specialized class. -/
inductive Special (s : Store) : Request → Prop
  | name {d : DeclId} {x : Declaration} {i : TypeId} (hx : d.get? s.decls = some x)
      (hi : x.instantiates? = some i) : Special s (.name d)
  | scopes {d : DeclId} {x : Declaration} {i : TypeId} (hx : d.get? s.decls = some x)
      (hi : x.instantiates? = some i) : Special s (.scopes i)

/-- No specialized class is asked for on the way to itself. -/
def Untangled (s : Store) : Prop := ∀ q, s.Special q → ¬TransGen s.Asks q q

section Ends

variable {rank : TypeId → Nat} (hr : s.Ranking s.Expands rank)

include hr

theorem ends_text_of_special (c : Bool) (t : TypeId)
    (h : ∀ p, s.Special p → TransGen s.Asks (.text c t) p → s.Ends p) : s.Ends (.text c t) := by
  induction hn : rank t using Nat.strong_induction_on generalizing c t with
  | _ n ih =>
    refine .intro _ fun q hq ↦ ?_
    have hafter : ∀ p, s.Special p → TransGen s.Asks q p → s.Ends p :=
      fun p hp hqp ↦ h p hp (.head hq hqp)
    cases hq with
    | part hu hnode hv =>
      have hle := hu.rank_le hr
      have hlt := hr.lt (.child hnode hv)
      exact ih _ (by omega) _ _ hafter rfl
    | owner hu hnode hd =>
      refine .intro _ fun q hq ↦ ?_
      cases hq with
      | scope he hx hparent hnamed =>
        refine .intro _ fun q hq ↦ ?_
        cases hq with
        | argument hx' hi hargs hv =>
          have hname := hafter _ (.name hx' hi) (.single (.scope he hx hparent hnamed))
          exact hname.inv (.argument hx' hi hargs hv)

theorem ends_scopes_of_special (t : TypeId)
    (h : ∀ p, s.Special p → TransGen s.Asks (.scopes t) p → s.Ends p) : s.Ends (.scopes t) := by
  induction hn : rank t using Nat.strong_induction_on generalizing t with
  | _ n ih =>
    refine .intro _ fun q hq ↦ ?_
    cases hq with
    | collect hu hnode hv =>
      have hle := HasHead.rank_le hr hu
      have hlt := hr.lt (.child hnode hv)
      exact ih _ (by omega) _ (fun p hp hqp ↦ h p hp (.head (.collect hu hnode hv) hqp)) rfl
    | special hu hnode hd hx hi =>
      exact h _ (.scopes hx hi) (.single (.special hu hnode hd hx hi))

theorem ends_of_special (q : Request)
    (h : ∀ p, s.Special p → TransGen s.Asks q p → s.Ends p) : s.Ends q := by
  have hname (d : DeclId) (h : ∀ p, s.Special p → TransGen s.Asks (.name d) p → s.Ends p) :
      s.Ends (.name d) := by
    refine .intro _ fun q hq ↦ ?_
    cases hq with
    | argument hx hi hargs hv =>
      exact ends_text_of_special hr _ _
        fun p hp hqp ↦ h p hp (.head (.argument hx hi hargs hv) hqp)
  cases q with
  | text c t => exact ends_text_of_special hr c t h
  | name d => exact hname d h
  | scopes t => exact ends_scopes_of_special hr t h
  | path d =>
    refine .intro _ fun q hq ↦ ?_
    cases hq with
    | scope he hx hparent hnamed =>
      exact hname _ fun p hp hqp ↦ h p hp (.head (.scope he hx hparent hnamed) hqp)

theorem untangled_iff (hs : s.Closed) : s.Untangled ↔ ∀ q, s.Ends q := by
  refine ⟨fun h ↦ ?_, fun h q _ ↦ (h q).not_transGen⟩
  let all : List Request := (Id.all s.decls).map .name ++ (Id.all s.types).map .scopes
  have hmem {q : Request} (hq : s.Special q) : q ∈ all := by
    cases hq with
    | name hx hi => simp [all, Id.mem_all_of_get? hx]
    | scopes hx hi =>
      obtain ⟨node, hnode⟩ := hs.type hx (mem_types_of_instantiates? hi)
      simp [all, Id.mem_all_of_get? hnode]
  obtain ⟨depth, -, hlt⟩ := exists_depth s.Asks all
  intro q
  -- a special request leads to fewer special ones than any request before it
  induction hn : depth q using Nat.strong_induction_on generalizing q with
  | _ n ih =>
    refine ends_of_special hr q fun p hp hqp ↦ ?_
    have hless := hlt hqp (hmem hp) (h p hp)
    exact ih _ (by omega) p rfl

end Ends

def HoldsRequest (s : Store) : Request → Prop
  | .text _ t | .scopes t => s.HoldsType t
  | .path d | .name d => s.HoldsDecl d

def Answers (s : Store) : Request → Prop
  | .text canonical t => Returns (s.spell canonical t)
  | .path d => Returns (s.qualifiedName d)
  | .name d => Returns (s.declName d)
  | .scopes t => Returns (s.anonymousScopes t)

section Answers

variable {rank : TypeId → Nat} (hs : s.Closed) (hr : s.Ranking s.Expands rank)

include hs

theorem anonymousAroundAux_returns {height : DeclId → Nat} (hheight : s.Ranks height) {fuel : Nat}
    (hd : s.HoldsDecl d) (hfuel : height d < fuel) : Returns (s.anonymousAroundAux fuel d) := by
  induction fuel generalizing d with
  | zero => omega
  | succ fuel ih =>
    obtain ⟨x, hx⟩ := hd
    refine returns_bind (decl_of_get? hx) ?_
    cases hp : x.parent with
    | none => exact ⟨_, rfl⟩
    | some p =>
      have hlt := hheight hx hp
      exact (ih (hs.parent hx hp) (by omega)).bind fun outer ↦ ⟨_, rfl⟩

theorem anonymousAround_returns (hd : s.HoldsDecl d) : Returns (s.anonymousAround d) := by
  obtain ⟨height, hheight, hbound⟩ := hs.nested
  obtain ⟨x, hx⟩ := hd
  exact anonymousAroundAux_returns hs hheight ⟨x, hx⟩ (Nat.lt_succ_of_le (hbound hx))

theorem ownerScopes_returns (ht : t.get? s.types = some node) :
    ∃ own special, s.ownerScopes node = .ok (own, special) ∧ ∀ i ∈ special, ∃ d x,
      node.owner? = some d ∧ d.get? s.decls = some x ∧ x.instantiates? = some i := by
  cases hd : node.owner? with
  | none => exact ⟨[], none, by simp [ownerScopes, hd, pure, Except.pure], nofun⟩
  | some d =>
    obtain ⟨x, hx⟩ := hs.owner ht hd
    obtain ⟨own, hown⟩ := anonymousAround_returns hs ⟨x, hx⟩
    refine ⟨own, x.instantiates?, ?_, fun i hi ↦ ⟨d, x, rfl, hx, hi⟩⟩
    simp [ownerScopes, hd, hown, decl_of_get? hx, bind, Except.bind, pure, Except.pure]

include hr

theorem anonymousScopesAux_returns {fuel : Nat} (ht : s.HoldsType t)
    (hinner : ∀ {u}, s.Asks (.scopes t) (.scopes u) → s.HoldsType u →
      Returns (s.anonymousScopesAux fuel u)) : Returns (s.anonymousScopesAux (fuel + 1) t) := by
  obtain ⟨u, p, hu, hhead, node, hnode⟩ := canonicalHead_hasHead hs hr ht
  obtain ⟨own, special, hown, hspecial⟩ := ownerScopes_returns hs hnode
  refine returns_bind hu (returns_bind (ty_of_get? hnode) (returns_bind hown ?_))
  refine (returns_mapM fun v hv ↦ ?_).bind fun inner ↦ ⟨_, rfl⟩
  rcases List.mem_append.mp hv with hv | hv
  · obtain ⟨d, x, hd, hx, hi⟩ := hspecial v (Option.mem_toList.mp hv)
    exact hinner (.special hhead hnode hd hx hi) (hs.type hx (mem_types_of_instantiates? hi))
  · exact hinner (.collect hhead hnode hv) (hs.child hnode hv)

theorem anonymousScopes_of_ends (ht : s.HoldsType t) (h : s.Ends (.scopes t)) :
    Returns (s.anonymousScopes t) := by
  obtain ⟨depth, hbound, hlt⟩ := exists_depth s.Asks ((Id.all s.types).map .scopes)
  have hfuel (fuel : Nat) : ∀ {t}, s.HoldsType t → s.Ends (.scopes t) →
      depth (.scopes t) < fuel → Returns (s.anonymousScopesAux fuel t) := by
    induction fuel with
    | zero => omega
    | succ fuel ih =>
      intro t ht h hdepth
      refine anonymousScopesAux_returns hs hr ht fun {u} hu hheld ↦ ?_
      have hends : s.Ends (.scopes u) := h.inv hu
      obtain ⟨node, hnode⟩ := hheld
      have hless := hlt (.single hu) (List.mem_map_of_mem (Id.mem_all_of_get? hnode))
        hends.not_transGen
      exact ih ⟨node, hnode⟩ hends (by omega)
  have hle := hbound (.scopes t)
  rw [List.length_map, Id.length_all] at hle
  exact hfuel _ ht h (Nat.lt_succ_of_le hle)

theorem answers_iff (hq : s.HoldsRequest q) : s.Answers q ↔ s.Ends q := by
  cases q with
  | text c t => exact returns_spell_iff hs hr hq
  | path d => exact returns_qualifiedName_iff hs hr hq
  | name d => exact returns_declName_iff hs hr hq
  | scopes t => exact ⟨ends_of_scopesAux, anonymousScopes_of_ends hs hr hq⟩

end Answers

/-- Where the specialized classes have their names and the scopes of their instantiations, none of them
leads back to itself. -/
theorem untangled_of_returns (h : ∀ {d : DeclId} {x : Declaration} {i : TypeId},
    d.get? s.decls = some x → x.instantiates? = some i →
      Returns (s.declName d) ∧ Returns (s.anonymousScopes i)) : s.Untangled := by
  intro q hq
  cases hq with
  | name hx hi => exact (ends_of_nameWith ends_of_spellAux (h hx hi).1).not_transGen
  | scopes hx hi => exact (ends_of_scopesAux (h hx hi).2).not_transGen

section Keys

variable (hs : s.Closed) (h : ∀ {q}, s.HoldsRequest q → s.Answers q)

include hs h

theorem signatureKey_returns (hd : s.HoldsDecl d) : Returns (s.signatureKey d) := by
  obtain ⟨x, hx⟩ := hd
  refine returns_bind (decl_of_get? hx) ?_
  cases hc : x.callableDetails? with
  | none => exact ⟨none, rfl⟩
  | some c =>
    have hheld : ∀ t ∈ c.parameters.map (·.type), s.HoldsType t :=
      fun t ht ↦ hs.type hx (types_of_callableDetails? hc ▸ List.mem_append_right _ ht)
    refine (returns_mapM fun t ht ↦ h (q := .text true t) (hheld t ht)).bind fun texts ↦ ?_
    exact (returns_mapM fun t ht ↦ h (q := .scopes t) (hheld t ht)).bind fun names ↦ ⟨_, rfl⟩

theorem mergeName_returns (hd : s.HoldsDecl d) : Returns (s.mergeName d) := by
  refine (h (q := .name d) hd).bind fun name ↦ ?_
  obtain ⟨x, hx⟩ := hd
  refine returns_bind (decl_of_get? hx) ?_
  cases hi : x.instantiates? with
  | none => exact ⟨name, rfl⟩
  | some i =>
    have hheld := hs.type hx (mem_types_of_instantiates? hi)
    exact (h (q := .scopes i) hheld).bind fun names ↦ ⟨_, rfl⟩

end Keys

end ScopeForest.Store
