import ScopeForest.Proofs.Types.Expansion

namespace ScopeForest.Store

open Relation

variable {s : Store} {rank : TypeId → Nat} {t u : TypeId} {node : Ty}

theorem ty_of_get? (h : t.get? s.types = some node) : s.ty t = .ok node := by
  rw [ty, h]

theorem get?_of_ty (h : s.ty t = .ok node) : t.get? s.types = some node := by
  unfold ty at h
  split at h
  next hx =>
    cases h
    exact hx
  next => cases h

theorem decl_of_get? {d : DeclId} {x : Declaration} (h : d.get? s.decls = some x) :
    s.decl d = .ok x := by
  rw [decl, h]

theorem get?_of_decl {d : DeclId} {x : Declaration} (h : s.decl d = .ok x) :
    d.get? s.decls = some x := by
  unfold decl at h
  split at h
  next hx =>
    cases h
    exact hx
  next => cases h

structure Reaches (s : Store) (t u : TypeId) : Prop where
  held : s.HoldsType u
  path : ReflTransGen s.Expands t u

theorem Ranking.lt_of_ne (hr : s.Ranking s.Expands rank) (h : s.Reaches t u) (hne : u ≠ t) :
    rank u < rank t := by
  rcases reflTransGen_iff_eq_or_transGen.mp h.path with h | h
  · exact absurd h hne
  · exact lt_of_transGen h hr.lt

theorem Ranking.le (hr : s.Ranking s.Expands rank) (h : s.Reaches t u) : rank u ≤ rank t := by
  rcases reflTransGen_iff_eq_or_transGen.mp h.path with rfl | h
  · exact Nat.le_refl _
  · exact Nat.le_of_lt (lt_of_transGen h hr.lt)

theorem Reaches.head {v : TypeId} (h : s.Expands t u) (hv : s.Reaches u v) : s.Reaches t v :=
  ⟨hv.held, .head h hv.path⟩

theorem Reaches.trans {v : TypeId} (h : s.Reaches t u) (hv : s.Reaches u v) : s.Reaches t v :=
  ⟨hv.held, h.path.trans hv.path⟩

theorem expansion?_of_aliased? {x : Declaration} (h : x.aliased? = some u) :
    x.expansion? = some u := by
  rw [Declaration.expansion?, h]
  rfl

/-- The declarations passed on the way to `t` stand for types that rank no lower. -/
def Passed (s : Store) (rank : TypeId → Nat) (seen : List DeclId) (t : TypeId) : Prop :=
  ∀ d ∈ seen, ∀ {x : Declaration} {next : TypeId}, d.get? s.decls = some x →
    x.expansion? = some next → rank t ≤ rank next

section Passed

variable {seen : List DeclId} {d : DeclId} {x : Declaration} {next : TypeId}

theorem Passed.not_mem (hr : s.Ranking s.Expands rank) (h : s.Passed rank seen t)
    (hu : s.Reaches t u) (hd : u.get? s.types = some (.declared d)) (hx : d.get? s.decls = some x)
    (hnext : x.expansion? = some next) : d ∉ seen := by
  intro hmem
  -- a declaration met twice would stand for a type that ranks below itself
  have hge := h d hmem hx hnext
  have hlt := hr.lt (.named hd hx hnext)
  have hle := hr.le hu
  omega

theorem Passed.cons (hr : s.Ranking s.Expands rank) (h : s.Passed rank seen t)
    (hu : s.Reaches t u) (hd : u.get? s.types = some (.declared d)) (hx : d.get? s.decls = some x)
    (hnext : x.expansion? = some next) : s.Passed rank (d :: seen) next := by
  intro e he y after hy hafter
  rcases List.mem_cons.mp he with rfl | he
  · rw [hx] at hy
    cases hy
    rw [hnext] at hafter
    cases hafter
    exact Nat.le_refl _
  · have hge := h e he hy hafter
    have hlt := hr.lt (.named hd hx hnext)
    have hle := hr.le hu
    omega

end Passed

section Strip

variable (hs : s.Linked) (hr : s.Ranking s.Expands rank)

include hs hr

theorem stripQualifiersAux_returns {fuel : Nat} (q : Qualifiers) (ht : s.HoldsType t)
    (hfuel : rank t < fuel) :
    ∃ u p, s.stripQualifiersAux fuel q t = .ok (u, p) ∧ s.Reaches t u := by
  induction fuel generalizing q t with
  | zero => omega
  | succ fuel ih =>
    obtain ⟨node, hnode⟩ := ht
    have hdown {u : TypeId} (p : Qualifiers) (hu : u ∈ node.children) :
        ∃ v p', s.stripQualifiersAux fuel p u = .ok (v, p') ∧ s.Reaches t v := by
      have hlt := hr.lt (.child hnode hu)
      obtain ⟨v, p', hv, hreach⟩ := ih p (hs.child hnode hu) (by omega)
      exact ⟨v, p', hv, .head (.child hnode hu) hreach⟩
    rw [stripQualifiersAux, ty_of_get? hnode]
    cases node with
    | const u => exact hdown _ (List.mem_singleton_self u)
    | volatile u => exact hdown _ (List.mem_singleton_self u)
    | _ => exact ⟨t, q, rfl, ⟨_, hnode⟩, .refl⟩

theorem stripQualifiers_returns (q : Qualifiers) (ht : s.HoldsType t) :
    ∃ u p, s.stripQualifiersAux (s.types.length + 1) q t = .ok (u, p) ∧ s.Reaches t u :=
  stripQualifiersAux_returns hs hr q ht (Nat.lt_succ_of_le (hr.bound t))

theorem followAliases_returns (seen : List DeclId) (ht : s.HoldsType t)
    (hseen : s.Passed rank seen t) : ∃ u, s.followAliases seen t = .ok u ∧ s.Reaches t u := by
  have hrefl {t : TypeId} (ht : s.HoldsType t) : s.Reaches t t := ⟨ht, .refl⟩
  fun_induction followAliases s seen t with
  | case1 seen t e he =>
    obtain ⟨node, hnode⟩ := ht
    rw [ty_of_get? hnode] at he
    cases he
  | case2 seen t d hd hnone =>
    obtain ⟨x, hx⟩ := hs.named (get?_of_ty hd)
    rw [hnone] at hx
    cases hx
  | case3 seen t d hd x hx hnone => exact ⟨t, rfl, hrefl ht⟩
  | case4 seen t d hd x hx target htarget hmem =>
    -- the check for cycles never strikes
    have hnext := expansion?_of_aliased? htarget
    exact absurd hmem (hseen.not_mem hr (hrefl ht) (get?_of_ty hd) hx hnext)
  | case5 seen t d hd x hx target htarget hmem ih =>
    have hnext := expansion?_of_aliased? htarget
    have hexp : s.Expands t target := .named (get?_of_ty hd) hx hnext
    have hpassed := hseen.cons hr (hrefl ht) (get?_of_ty hd) hx hnext
    obtain ⟨u, hu, hreach⟩ := ih (hs.expands hexp) hpassed
    exact ⟨u, hu, .head hexp hreach⟩
  | case6 seen t node hne hnode => exact ⟨t, rfl, hrefl ht⟩

theorem stripAliases_returns (ht : s.HoldsType t) :
    ∃ u, s.stripAliases t = .ok u ∧ s.Reaches t u :=
  followAliases_returns hs hr [] ht nofun

theorem followHead_returns (seen : List DeclId) (q : Qualifiers) (ht : s.HoldsType t)
    (hseen : s.Passed rank seen t) :
    ∃ u p, s.followHead seen q t = .ok (u, p) ∧ s.Reaches t u := by
  have hstrip {q p : Qualifiers} {t u : TypeId} (ht : s.HoldsType t)
      (hu : s.stripQualifiersAux (s.types.length + 1) q t = .ok (u, p)) : s.Reaches t u := by
    obtain ⟨v, p', hv, hreach⟩ := stripQualifiers_returns hs hr q ht
    rw [hu] at hv
    cases hv
    exact hreach
  fun_induction followHead s seen q t with
  | case1 seen q t e he =>
    obtain ⟨u, p, hu, -⟩ := stripQualifiers_returns hs hr q ht
    rw [he] at hu
    cases hu
  | case2 seen q t u p hu e he =>
    obtain ⟨node, hnode⟩ := (hstrip ht hu).held
    rw [ty_of_get? hnode] at he
    cases he
  | case3 seen q t u p hu d hd hnone =>
    obtain ⟨x, hx⟩ := hs.named (get?_of_ty hd)
    rw [hnone] at hx
    cases hx
  | case4 seen q t u p hu d hd x hx hnone => exact ⟨u, p, rfl, hstrip ht hu⟩
  | case5 seen q t u p hu d hd x hx next hnext hmem =>
    exact absurd hmem (hseen.not_mem hr (hstrip ht hu) (get?_of_ty hd) hx hnext)
  | case6 seen q t u p hu d hd x hx next hnext hmem ih =>
    have hreach := hstrip ht hu
    have hexp : s.Expands u next := .named (get?_of_ty hd) hx hnext
    obtain ⟨v, p', hv, hrest⟩ :=
      ih (hs.expands hexp) (hseen.cons hr hreach (get?_of_ty hd) hx hnext)
    exact ⟨v, p', hv, hreach.trans (.head hexp hrest)⟩
  | case7 seen q t u p hu node hne hnode => exact ⟨u, p, rfl, hstrip ht hu⟩

theorem canonicalHead_returns (ht : s.HoldsType t) :
    ∃ u q, s.canonicalHead t = .ok (u, q) ∧ s.Reaches t u :=
  followHead_returns hs hr [] {} ht nofun

theorem viewAux_returns {fuel : Nat} (q : Qualifiers) (ht : s.HoldsType t)
    (hfuel : rank t < fuel) :
    ∃ u p, s.viewAux fuel q t = .ok (some (u, p)) ∧ s.Reaches t u := by
  induction fuel generalizing q t with
  | zero => omega
  | succ fuel ih =>
    obtain ⟨u, hu, htu⟩ := stripAliases_returns hs hr ht
    obtain ⟨v, p, hv, huv⟩ := stripQualifiers_returns hs hr {} htu.held
    have htv := htu.trans huv
    have hstep : s.viewAux (fuel + 1) q t =
        if v = t then .ok (some (t, q.union p)) else s.viewAux fuel (q.union p) v := by
      have hq : s.stripQualifiers u = .ok (v, p) := hv
      simp only [viewAux, hu, Outcome.recover, bind, Except.bind, hq, pure, Except.pure]
    rw [hstep]
    split
    next => exact ⟨t, _, rfl, ht, .refl⟩
    next hne =>
      have hlt := hr.lt_of_ne htv hne
      obtain ⟨w, p', hw, hvw⟩ := ih (q.union p) htv.held (by omega)
      exact ⟨w, p', hw, htv.trans hvw⟩

theorem view_returns (ht : s.HoldsType t) :
    ∃ u q, s.view t = .ok (some (u, q)) ∧ s.Reaches t u :=
  viewAux_returns hs hr {} ht (Nat.lt_succ_of_le (hr.bound t))

end Strip

end ScopeForest.Store
