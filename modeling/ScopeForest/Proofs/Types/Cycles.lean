import ScopeForest.Proofs.Types.Neutral

namespace ScopeForest.Store

open Relation

variable {s : Store} {t u : TypeId} {node : Ty} {path done todo next : List TypeId}

def Acyclic (s : Store) : Prop := ∀ t, ¬TransGen s.Expands t t

theorem Expands.held (h : s.Expands t u) : s.HoldsType t := by
  cases h with
  | child ht _ => exact ⟨_, ht⟩
  | named ht _ _ => exact ⟨_, ht⟩

theorem Acyclic.of_expands {s' : Store} (h : s.Acyclic)
    (hexp : ∀ {t u}, s'.Expands t u → s.Expands t u) : s'.Acyclic :=
  fun t ht ↦ h t (ht.lift id fun _ _ ↦ hexp)

theorem Acyclic.mapDecls {change : Declaration → Declaration} (h : s.Acyclic)
    (hc : Declaration.Neutral change) : (s.mapDecls change).Acyclic := by
  refine h.of_expands fun {t u} htu ↦ ?_
  cases htu with
  | child ht hu => exact .child ht hu
  | named ht hd hu =>
    rw [get?_mapDecls] at hd
    obtain ⟨x, hx, rfl⟩ := Option.map_eq_some_iff.mp hd
    rw [hc.expansion] at hu
    exact .named ht hx hu

theorem mem_expansions (ht : t.get? s.types = some node) (h : s.expansions node = .ok next) :
    u ∈ next ↔ s.Expands t u := by
  cases node with
  | declared d =>
    obtain ⟨x, hx, h⟩ := Outcome.bind_eq_ok h
    cases h
    have hget := get?_of_decl hx
    simp only [Ty.children, List.nil_append, Option.mem_toList]
    refine ⟨fun hu ↦ .named ht hget hu, fun hu ↦ ?_⟩
    cases hu with
    | child ht' hu =>
      rw [ht] at ht'
      cases ht'
      cases hu
    | named ht' hd hu =>
      rw [ht] at ht'
      cases ht'
      rw [hget] at hd
      cases hd
      exact hu
  | _ =>
    cases h
    refine ⟨fun hu ↦ .child ht hu, fun hu ↦ ?_⟩
    cases hu with
    | child ht' hu =>
      rw [ht] at ht'
      cases ht'
      exact hu
    | named ht' hd hu =>
      rw [ht] at ht'
      cases ht'

theorem expansions_returns (hs : s.Linked) (ht : t.get? s.types = some node) :
    ∃ next, s.expansions node = .ok next := by
  cases node with
  | declared d =>
    obtain ⟨x, hx⟩ := hs.named ht
    exact Outcome.returns_bind (decl_of_get? hx) ⟨_, rfl⟩
  | _ => exact ⟨_, rfl⟩

/-- It is enough that every type leads to earlier ones only. -/
theorem linked_and_acyclic_of_lt (h : ∀ t : TypeId, t ∈ Id.all s.types → ∀ node ∈ t.get? s.types,
    (s.expansions node).toOption.any fun next ↦ next.all fun u ↦
      u.val < t.val && (u.get? s.types).isSome) : s.Linked ∧ s.Acyclic := by
  have hnext {t : TypeId} {node : Ty} (ht : t.get? s.types = some node) : ∃ next,
      s.expansions node = .ok next ∧ ∀ u ∈ next, u.val < t.val ∧ s.HoldsType u := by
    have hcheck := h t (Id.mem_all_of_get? ht) node ht
    cases hok : s.expansions node with
    | error e =>
      rw [hok] at hcheck
      cases hcheck
    | ok next =>
      rw [hok] at hcheck
      refine ⟨next, rfl, fun u hu ↦ ?_⟩
      have hu' := List.all_eq_true.mp hcheck u hu
      rw [Bool.and_eq_true, decide_eq_true_iff] at hu'
      exact ⟨hu'.1, Option.isSome_iff_exists.mp hu'.2⟩
  have hexp {t u : TypeId} (htu : s.Expands t u) : u.val < t.val ∧ s.HoldsType u := by
    obtain ⟨node, ht⟩ := htu.held
    obtain ⟨next, hok, hall⟩ := hnext ht
    exact hall u ((mem_expansions ht hok).mpr htu)
  refine ⟨⟨fun htu ↦ (hexp htu).2, fun {t d} ht ↦ ?_⟩, fun t ht ↦ ?_⟩
  · obtain ⟨next, hok, -⟩ := hnext ht
    obtain ⟨x, hx, -⟩ := Outcome.bind_eq_ok hok
    exact ⟨x, get?_of_decl hx⟩
  · exact Nat.lt_irrefl _ (lt_of_transGen ht fun htu ↦ (hexp htu).1)

/-- Every way to expand the type further comes to an end. -/
def Grounded (s : Store) (t : TypeId) : Prop := Acc (fun u t ↦ s.Expands t u) t

/-- Where the search finds no circle, it has been to all of `todo`, and all that it has been to is
grounded. -/
theorem grounded_of_searchCycle {found : List TypeId} (hdone : ∀ t ∈ done, s.Grounded t)
    (h : s.searchCycle path done todo = .ok (.ok found)) :
    (∀ t ∈ found, s.Grounded t) ∧ done ⊆ found ∧ todo ⊆ found := by
  fun_induction searchCycle s path done todo generalizing found with
  | case1 path done =>
    cases h
    exact ⟨hdone, List.Subset.refl _, List.nil_subset _⟩
  | case2 path done t todo hmem ih =>
    obtain ⟨hfound, hsub, htodo⟩ := ih hdone h
    exact ⟨hfound, hsub, List.cons_subset.mpr ⟨hsub hmem, htodo⟩⟩
  | case3 => cases h
  | case4 => cases h
  | case5 => cases h
  | case6 path done t todo hdone' hpath node hnode next hnext seen hseen ih ih' =>
    obtain ⟨hgrounded, hsub, hbelow⟩ := ih hdone hseen
    have ht : s.Grounded t := by
      refine .intro t fun u hu ↦ ?_
      exact hgrounded u (hbelow ((mem_expansions hnode hnext).mpr hu))
    obtain ⟨hfound, hsub', htodo⟩ := ih' (List.forall_mem_cons.mpr ⟨ht, hgrounded⟩) h
    obtain ⟨hmem, hrest⟩ := List.cons_subset.mp hsub'
    exact ⟨hfound, List.Subset.trans hsub hrest, List.cons_subset.mpr ⟨hmem, htodo⟩⟩
  | case7 path done t todo hdone' hpath node hnode next hnext hne ih =>
    exact absurd h (hne found)

/-- Each type expands to the next one, and the last one to the first. -/
structure Circle (s : Store) (circle : List TypeId) : Prop where
  nodup : circle.Nodup
  chain : ∃ first rest, circle = first :: rest ∧ (circle ++ [first]).IsChain s.Expands

theorem Circle.transGen {circle : List TypeId} (h : s.Circle circle) (ht : t ∈ circle) :
    TransGen s.Expands t t := by
  obtain ⟨first, rest, rfl, hchain⟩ := h.chain
  have hpairs : (first :: rest ++ [first]).Pairwise (TransGen s.Expands) :=
    (hchain.imp fun _ _ ↦ TransGen.single).pairwise
  have hback : TransGen s.Expands t first :=
    (List.pairwise_append.mp hpairs).2.2 t ht first List.mem_cons_self
  rcases List.mem_cons.mp ht with rfl | ht
  · exact hback
  · refine hback.trans ((List.pairwise_cons.mp hpairs).1 t ?_)
    exact List.mem_append_left _ ht

theorem circle_of_path (hnodup : path.Nodup) (ht : t ∈ path)
    (hpath : (t :: path).IsChain fun u v ↦ s.Expands v u) :
    s.Circle (path.reverse.dropWhile (· ≠ t)) := by
  obtain ⟨after, before, rfl⟩ := List.append_of_mem ht
  obtain ⟨hnot, hrest⟩ := List.nodup_cons.mp (List.nodup_middle.mp hnodup)
  have hcircle : (after ++ t :: before).reverse.dropWhile (· ≠ t) = t :: after.reverse := by
    have hskip : ∀ u ∈ before.reverse, decide (u ≠ t) = true := by
      intro u hu
      apply decide_eq_true
      rintro rfl
      exact hnot (List.mem_append_right _ (List.mem_reverse.mp hu))
    rw [List.reverse_append, List.reverse_cons, List.append_assoc,
      List.dropWhile_append_of_pos hskip]
    simp
  rw [hcircle]
  refine ⟨List.nodup_cons.mpr ⟨?_, ?_⟩, t, after.reverse, rfl, ?_⟩
  · exact fun h ↦ hnot (List.mem_append_left _ (List.mem_reverse.mp h))
  · exact List.nodup_reverse.mpr (List.nodup_append.mp hrest).1
  · have hround := (List.isChain_cons_split.mp hpath).1
    rw [← List.isChain_reverse] at hround
    simpa using hround

/-- What the search reports is a circle, if `path` is a way to the types of `todo`. -/
theorem circle_of_searchCycle {circle : List TypeId} (hnodup : path.Nodup)
    (hpath : ∀ t ∈ todo, (t :: path).IsChain fun u v ↦ s.Expands v u)
    (h : s.searchCycle path done todo = .ok (.error circle)) : s.Circle circle := by
  fun_induction searchCycle s path done todo with
  | case1 => cases h
  | case2 path done t todo hmem ih => exact ih hnodup (List.forall_mem_cons.mp hpath).2 h
  | case3 path done t todo hdone hmem =>
    cases h
    exact circle_of_path hnodup hmem (hpath t List.mem_cons_self)
  | case4 => cases h
  | case5 => cases h
  | case6 path done t todo hdone hmem node hnode next hnext seen hseen ih ih' =>
    exact ih' hnodup (List.forall_mem_cons.mp hpath).2 h
  | case7 path done t todo hdone hmem node hnode next hnext hne ih =>
    refine ih (List.nodup_cons.mpr ⟨hmem, hnodup⟩) (fun u hu ↦ ?_) h
    refine List.isChain_cons_cons.mpr ⟨?_, hpath t List.mem_cons_self⟩
    exact (mem_expansions hnode hnext).mp hu

theorem searchCycle_returns (hs : s.Linked) (htodo : ∀ t ∈ todo, s.HoldsType t) :
    ∃ r, s.searchCycle path done todo = .ok r := by
  fun_induction searchCycle s path done todo with
  | case1 => exact ⟨_, rfl⟩
  | case2 path done t todo hmem ih => exact ih (List.forall_mem_cons.mp htodo).2
  | case3 => exact ⟨_, rfl⟩
  | case4 path done t todo hdone hpath hnone =>
    obtain ⟨node, hnode⟩ := htodo t List.mem_cons_self
    rw [hnone] at hnode
    cases hnode
  | case5 path done t todo hdone hpath node hnode e he =>
    obtain ⟨next, hnext⟩ := expansions_returns hs hnode
    rw [he] at hnext
    cases hnext
  | case6 path done t todo hdone hpath node hnode next hnext seen hseen ih ih' =>
    exact ih' (List.forall_mem_cons.mp htodo).2
  | case7 path done t todo hdone hpath node hnode next hnext hne ih =>
    exact ih fun u hu ↦ hs.expands ((mem_expansions hnode hnext).mp hu)

theorem acyclic_of_findCycle (h : s.findCycle = .ok none) : s.Acyclic := by
  obtain ⟨r, hr, h⟩ := Outcome.bind_eq_ok h
  cases r with
  | error circle => cases h
  | ok found =>
    obtain ⟨hgrounded, -, hall⟩ := grounded_of_searchCycle (fun t ht ↦ by cases ht) hr
    intro t ht
    -- a type that expands at all is held, so that the search has been to it
    obtain ⟨u, htu, -⟩ := TransGen.head'_iff.mp ht
    obtain ⟨node, hnode⟩ := htu.held
    exact not_transGen_of_acc (hgrounded t (hall (Id.mem_all_of_get? hnode))) ht

theorem circle_of_findCycle {circle : List TypeId} (h : s.findCycle = .ok (some circle)) :
    s.Circle circle := by
  obtain ⟨r, hr, h⟩ := Outcome.bind_eq_ok h
  cases r with
  | ok found => cases h
  | error found =>
    cases h
    exact circle_of_searchCycle List.nodup_nil (fun t _ ↦ .singleton t) hr

theorem findCycle_returns (hs : s.Linked) : ∃ found, s.findCycle = .ok found := by
  have hheld : ∀ t ∈ Id.all s.types, s.HoldsType t := fun t ht ↦ Id.exists_get?_of_mem_all ht
  obtain ⟨r, hr⟩ : ∃ r, s.searchCycle [] [] (Id.all s.types) = .ok r :=
    searchCycle_returns hs hheld
  rw [findCycle, hr]
  cases r with
  | ok found => exact ⟨none, rfl⟩
  | error circle => exact ⟨some circle, rfl⟩

theorem findCycle_eq_none_iff (hs : s.Linked) : s.findCycle = .ok none ↔ s.Acyclic := by
  refine ⟨acyclic_of_findCycle, fun hacyclic ↦ ?_⟩
  obtain ⟨found, hfound⟩ := findCycle_returns hs
  cases found with
  | none => exact hfound
  | some circle =>
    have hcircle := circle_of_findCycle hfound
    obtain ⟨t, rest, rfl, -⟩ := hcircle.chain
    exact absurd (hcircle.transGen List.mem_cons_self) (hacyclic t)

end ScopeForest.Store
