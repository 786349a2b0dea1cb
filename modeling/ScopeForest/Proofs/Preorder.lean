import ScopeForest.Proofs.Scoped

namespace ScopeForest.Store

variable {s : Store} {root : Option DeclId}

/-- The declaration `e` is `d` or lies inside it. -/
inductive Below (s : Store) (d : DeclId) : DeclId → Prop
  | refl : Below s d d
  | step {e p : DeclId} {x : Declaration} (he : e.get? s.decls = some x) (hp : x.parent = some p)
      (h : Below s d p) : Below s d e

def Ranks (s : Store) (rank : DeclId → Nat) : Prop :=
  ∀ {d p : DeclId} {x : Declaration}, d.get? s.decls = some x → x.parent = some p → rank p < rank d

section Below

variable {a b d e : DeclId} {rank : DeclId → Nat}

theorem Below.trans (h : s.Below a b) (h' : s.Below b e) : s.Below a e := by
  induction h' with
  | refl => exact h
  | step he hp _ ih => exact .step he hp ih

theorem Below.rank_le (hrank : s.Ranks rank) (h : s.Below d e) : rank d ≤ rank e := by
  induction h with
  | refl => exact Nat.le_refl _
  | step he hp _ ih => exact Nat.le_trans ih (Nat.le_of_lt (hrank he hp))

/-- Of two scopes around a declaration, one lies in the other. -/
theorem Below.total (ha : s.Below a e) (hb : s.Below b e) : s.Below a b ∨ s.Below b a := by
  induction ha with
  | refl => exact .inr hb
  | step he hp ha ih =>
    cases hb with
    | refl => exact .inl (.step he hp ha)
    | step he' hp' hb =>
      rw [he] at he'
      cases he'
      rw [hp] at hp'
      cases hp'
      exact ih hb

theorem not_below_of_siblings (hrank : s.Ranks rank) {x y : Declaration}
    (ha : a.get? s.decls = some x) (hb : b.get? s.decls = some y) (hab : a ≠ b)
    (hxy : x.parent = y.parent) (h : s.Below a b) : False := by
  cases h with
  | refl => exact hab rfl
  | step hb' hp h =>
    rw [hb] at hb'
    cases hb'
    have hle := h.rank_le hrank
    have hlt := hrank ha (hxy.trans hp)
    omega

theorem mem_membersOf (hs : s.Scoped root) :
    e ∈ s.membersOf d ↔ ∃ x, e.get? s.decls = some x ∧ x.parent = some d := by
  constructor
  · intro h
    unfold membersOf at h
    cases hd : d.get? s.decls with
    | none =>
      rw [hd] at h
      cases h
    | some y =>
      rw [hd] at h
      exact hs.member hd h
  · rintro ⟨x, hx, hp⟩
    obtain ⟨y, hy, -, hm⟩ := hs.parent hx hp
    rw [membersOf, hy]
    exact hm

theorem nodup_membersOf (hs : s.Scoped root) : (s.membersOf d).Nodup := by
  unfold membersOf
  cases hd : d.get? s.decls with
  | none => exact List.nodup_nil
  | some y =>
    refine (hs.ordered hd).imp fun {m n} hlt hmn ↦ ?_
    rw [hmn] at hlt
    exact Nat.lt_irrefl _ hlt

theorem Below.get? (h : s.Below d e) {x : Declaration} (hd : d.get? s.decls = some x) :
    ∃ y, e.get? s.decls = some y := by
  cases h with
  | refl => exact ⟨x, hd⟩
  | step he hp h => exact ⟨_, he⟩

theorem wellFounded_members (hs : s.Scoped root) (hrank : s.Ranks rank) :
    WellFounded fun m d ↦ m ∈ s.membersOf d := by
  have hbound {d : DeclId} {x : Declaration} (hd : d.get? s.decls = some x) :
      rank d ≤ (Id.all s.decls).toFinset.sup rank :=
    Finset.le_sup (List.mem_toFinset.mpr (Id.mem_all_of_get? hd))
  refine Subrelation.wf ?_ (measure fun d ↦ (Id.all s.decls).toFinset.sup rank - rank d).wf
  intro m d hm
  obtain ⟨x, hx, hp⟩ := (mem_membersOf hs).mp hm
  have hlt := hrank hx hp
  have hle := hbound hx
  show _ - rank m < _ - rank d
  omega

/-- Where every declaration can be climbed out of, the length of the way up is a rank. -/
theorem exists_ranks_of_climb
    (h : ∀ {d : DeclId} {x}, d.get? s.decls = some x →
      climb s.decls s.decls.length x.parent = none) :
    ∃ rank, s.Ranks rank ∧ ∀ {d x}, d.get? s.decls = some x → rank d ≤ s.decls.length := by
  classical
  let ends (d : DeclId) (n : Nat) : Prop :=
    climb s.decls n ((d.get? s.decls).bind (·.parent)) = none
  have hends {d : DeclId} {x : Declaration} (hd : d.get? s.decls = some x) :
      ends d s.decls.length := by
    simp only [ends, hd, Option.bind_some]
    exact h hd
  refine ⟨fun d ↦ if ex : ∃ n, ends d n then Nat.find ex else 0, ?_, ?_⟩
  · intro d p x hd hp
    have hself : ∃ n, ends d n := ⟨_, hends hd⟩
    have hfind := Nat.find_spec hself
    cases hn : Nat.find hself with
    | zero =>
      rw [hn] at hfind
      simp [ends, hd, hp, climb] at hfind
    | succ n =>
      rw [hn] at hfind
      have hparent : ends p n := by simpa [ends, hd, hp, climb] using hfind
      have hexists : ∃ n, ends p n := ⟨n, hparent⟩
      simp only [dif_pos hself, dif_pos hexists, hn]
      exact Nat.lt_succ_of_le (Nat.find_min' hexists hparent)
  · intro d x hd
    have hself : ∃ n, ends d n := ⟨_, hends hd⟩
    simp only [dif_pos hself]
    exact Nat.find_min' hself (hends hd)

end Below

section Tree

variable {d e : DeclId} {rank : DeclId → Nat}

theorem exists_tree (hs : s.Scoped root) (hrank : s.Ranks rank) :
    ∃ tree : DeclId → List DeclId, ∀ d, tree d = d :: (s.membersOf d).flatMap tree := by
  have hwf := wellFounded_members hs hrank
  refine ⟨hwf.fix fun d inner ↦ d :: (s.membersOf d).attach.flatMap fun m ↦ inner m.1 m.2,
    fun d ↦ ?_⟩
  rw [hwf.fix_eq]
  simp only [List.flatMap_def, List.attach_map_val]

variable {tree : DeclId → List DeclId} (htree : ∀ d, tree d = d :: (s.membersOf d).flatMap tree)

include htree

theorem visit_eq_flatMap {fuel : Nat} {stack : List DeclId}
    (hfuel : (stack.flatMap tree).length ≤ fuel) : s.visit fuel stack = stack.flatMap tree := by
  induction fuel generalizing stack with
  | zero =>
    rw [List.eq_nil_of_length_eq_zero (Nat.le_zero.mp hfuel)]
    rfl
  | succ fuel ih =>
    cases stack with
    | nil => rfl
    | cons d stack =>
      have hcons : (d :: stack).flatMap tree =
          d :: (s.membersOf d ++ stack).flatMap tree := by
        rw [List.flatMap_cons, htree d, List.cons_append, List.flatMap_append]
      rw [hcons] at hfuel ⊢
      rw [visit, ih (Nat.le_of_succ_le_succ hfuel)]

variable (hs : s.Scoped root) (hrank : s.Ranks rank)

include hs hrank

theorem below_of_mem_tree (h : e ∈ tree d) : s.Below d e := by
  induction d using (wellFounded_members hs hrank).induction with
  | _ d ih =>
    rw [htree] at h
    rcases List.mem_cons.mp h with rfl | h
    · exact .refl
    · obtain ⟨m, hm, he⟩ := List.mem_flatMap.mp h
      obtain ⟨x, hx, hp⟩ := (mem_membersOf hs).mp hm
      exact (Below.step hx hp .refl).trans (ih m hm he)

theorem nodup_tree (d : DeclId) : (tree d).Nodup := by
  induction d using (wellFounded_members hs hrank).induction with
  | _ d ih =>
    have hbelow {m e : DeclId} (he : e ∈ tree m) : s.Below m e :=
      below_of_mem_tree htree hs hrank he
    rw [htree]
    refine List.nodup_cons.mpr ⟨fun h ↦ ?_, List.nodup_flatMap.mpr ⟨ih, ?_⟩⟩
    · obtain ⟨m, hm, hd⟩ := List.mem_flatMap.mp h
      obtain ⟨x, hx, hp⟩ := (mem_membersOf hs).mp hm
      have hle := (hbelow hd).rank_le hrank
      have hlt := hrank hx hp
      omega
    · refine (List.pairwise_iff_forall_sublist.mpr fun {m n} hsub ↦ ?_)
      have hne : m ≠ n := by
        have hnodup := (nodup_membersOf (d := d) hs).sublist hsub
        simpa using hnodup
      obtain ⟨x, hx, hxp⟩ := (mem_membersOf hs).mp (hsub.subset (List.mem_cons_self))
      obtain ⟨y, hy, hyp⟩ := (mem_membersOf hs).mp (hsub.subset (by simp : n ∈ [m, n]))
      intro e hem hen
      rcases (hbelow hem).total (hbelow hen) with h | h
      · exact not_below_of_siblings hrank hx hy hne (hxp.trans hyp.symm) h
      · exact not_below_of_siblings hrank hy hx hne.symm (hyp.trans hxp.symm) h

/-- There are enough steps for the walk through a tree, since it meets no declaration twice. -/
theorem preorder_eq_tree {x : Declaration} (hd : d.get? s.decls = some x) :
    s.preorder d = tree d := by
  have hall : ∀ e ∈ tree d, e ∈ (Id.all s.decls : List DeclId) := by
    intro e he
    obtain ⟨y, hy⟩ := (below_of_mem_tree htree hs hrank he).get? hd
    exact Id.mem_all_of_get? hy
  have hle := (List.subperm_of_subset (nodup_tree htree hs hrank d) hall).length_le
  rw [Id.length_all] at hle
  rw [preorder, visit_eq_flatMap htree (by rwa [List.flatMap_singleton]), List.flatMap_singleton]

end Tree

section Preorder

variable {d e p : DeclId} {rank : DeclId → Nat} {x : Declaration}

theorem preorder_eq (hs : s.Scoped root) (hrank : s.Ranks rank) (hd : d.get? s.decls = some x) :
    s.preorder d = d :: (s.membersOf d).flatMap s.preorder := by
  obtain ⟨tree, htree⟩ := exists_tree hs hrank
  have hmembers : (s.membersOf d).flatMap s.preorder = (s.membersOf d).flatMap tree := by
    refine List.flatMap_congr fun m hm ↦ ?_
    obtain ⟨y, hy, -⟩ := (mem_membersOf hs).mp hm
    exact preorder_eq_tree htree hs hrank hy
  rw [preorder_eq_tree htree hs hrank hd, hmembers, ← htree]

theorem nodup_preorder (hs : s.Scoped root) (hrank : s.Ranks rank)
    (hd : d.get? s.decls = some x) : (s.preorder d).Nodup := by
  obtain ⟨tree, htree⟩ := exists_tree hs hrank
  rw [preorder_eq_tree htree hs hrank hd]
  exact nodup_tree htree hs hrank d

theorem preorder_infix_of_parent (hs : s.Scoped root) (hrank : s.Ranks rank)
    (he : e.get? s.decls = some x) (hp : x.parent = some p) :
    s.preorder e <:+: s.preorder p := by
  obtain ⟨y, hy, -, -⟩ := hs.parent he hp
  rw [preorder_eq hs hrank hy]
  exact (List.infix_flatMap_of_mem ((mem_membersOf hs).mpr ⟨x, he, hp⟩) _).trans
    (List.suffix_cons _ _).isInfix

/-- The pre-order of what lies in a scope is one piece of the pre-order of the scope. -/
theorem preorder_segment (hs : s.Scoped root) (hrank : s.Ranks rank) (h : s.Below d e) :
    s.preorder e <:+: s.preorder d := by
  induction h with
  | refl => exact List.infix_rfl
  | step he hp _ ih => exact (preorder_infix_of_parent hs hrank he hp).trans ih

theorem mem_preorder (hs : s.Scoped root) (hrank : s.Ranks rank) (hd : d.get? s.decls = some x) :
    e ∈ s.preorder d ↔ s.Below d e := by
  constructor
  · intro he
    obtain ⟨tree, htree⟩ := exists_tree hs hrank
    rw [preorder_eq_tree htree hs hrank hd] at he
    exact below_of_mem_tree htree hs hrank he
  · intro h
    obtain ⟨y, hy⟩ := h.get? hd
    have hself : e ∈ s.preorder e := by
      rw [preorder_eq hs hrank hy]
      exact List.mem_cons_self
    exact (preorder_segment hs hrank h).subset hself

theorem below_root {r : DeclId} (hs : s.Scoped (some r)) (hrank : s.Ranks rank) {x : Declaration}
    (hd : d.get? s.decls = some x) : s.Below r d := by
  induction hn : rank d using Nat.strong_induction_on generalizing d x with
  | _ n ih =>
    cases hp : x.parent with
    | none =>
      rw [Option.some_inj.mp (hs.orphan hd hp)]
      exact .refl
    | some p =>
      obtain ⟨y, hy, -, -⟩ := hs.parent hd hp
      exact .step hd hp (ih (rank p) (hn ▸ hrank hd hp) hy rfl)

/-- The pre-order of the root names every declaration just once. -/
theorem preorder_perm_all {r : DeclId} (hs : s.Scoped (some r)) (hrank : s.Ranks rank) :
    (s.preorder r).Perm (Id.all s.decls) := by
  have hall : (Id.all s.decls : List DeclId).Nodup :=
    List.nodup_range.map fun _ _ ↦ Id.ofIndex_injective
  obtain ⟨x, hx, -, -⟩ := hs.root_held rfl
  rw [List.perm_ext_iff_of_nodup (nodup_preorder hs hrank hx) hall]
  intro e
  rw [mem_preorder hs hrank hx]
  constructor
  · intro he
    obtain ⟨y, hy⟩ := he.get? hx
    exact Id.mem_all_of_get? hy
  · intro he
    obtain ⟨y, hy⟩ := Id.exists_get?_of_mem_all he
    exact below_root hs hrank hy

end Preorder

abbrev Earlier (s : Store) : Prop := s.Ranks Id.val

end ScopeForest.Store
