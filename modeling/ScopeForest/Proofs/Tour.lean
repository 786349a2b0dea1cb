import ScopeForest.Proofs.Preorder

namespace ScopeForest

namespace Tour

variable {s : Store} {d : DeclId} {tree : DeclId → List DeclId} {order inner more : List DeclId}
  {before mid after : List (Nat × Nat)}

theorem run_add (s : Store) (m n : Nat) (t : Tour) : run s (m + n) t = run s n (run s m t) := by
  induction m generalizing t with
  | zero => rw [Nat.zero_add, run]
  | succ m ih => rw [Nat.succ_add, run, run, ih]

/-- Where a declaration stands in an order, and where what lies inside it ends. -/
def spanIn (tree : DeclId → List DeclId) (order : List DeclId) (d : DeclId) : Nat × Nat :=
  (order.idxOf d, order.idxOf d + (tree d).length)

/-- The spans of all in `inner` are noted as they are in `order`, and the others are kept. -/
structure Notes (tree : DeclId → List DeclId) (order inner : List DeclId)
    (before after : List (Nat × Nat)) : Prop where
  noted : ∀ e ∈ inner, e.get? after = some (spanIn tree order e)
  kept : ∀ e, e ∉ inner → e.get? after = e.get? before

theorem Notes.append (h : Notes tree (order ++ inner) inner before mid)
    (h' : Notes tree (order ++ inner ++ more) more mid after) :
    Notes tree (order ++ inner ++ more) (inner ++ more) before after := by
  constructor
  case noted =>
    intro e he
    by_cases hmore : e ∈ more
    · exact h'.noted e hmore
    · have hinner := (List.mem_append.mp he).resolve_right hmore
      have hsame : spanIn tree (order ++ inner ++ more) e = spanIn tree (order ++ inner) e := by
        rw [spanIn, spanIn, List.idxOf_append_of_mem (List.mem_append_right order hinner)]
      rw [h'.kept e hmore, h.noted e hinner, hsame]
  case kept =>
    intro e he
    obtain ⟨hinner, hmore⟩ := not_or.mp (mt List.mem_append.mpr he)
    rw [h'.kept e hmore, h.kept e hinner]

/-- A declaration is entered, all that lies inside it is noted, and it is left. -/
theorem Notes.enclose {span : Nat × Nat} (hd : d.get? before = some span)
    (hnodup : (order ++ d :: inner).Nodup) (hlength : (tree d).length = inner.length + 1)
    (h : Notes tree (order ++ d :: inner) inner
      (d.modify (fun span ↦ (order.length, span.2)) before) mid) :
    Notes tree (order ++ d :: inner) (d :: inner) before
      (d.modify (fun span ↦ (span.1, (order ++ d :: inner).length)) mid) := by
  obtain ⟨-, hself, hother⟩ := List.nodup_append.mp hnodup
  have hinner := (List.nodup_cons.mp hself).1
  have horder : d ∉ order := fun h ↦ hother d h d List.mem_cons_self rfl
  constructor
  case noted =>
    intro e he
    by_cases hed : d = e
    · subst hed
      have hplace : (order ++ d :: inner).idxOf d = order.length := by
        rw [List.idxOf_append_of_notMem horder, List.idxOf_cons_self, Nat.add_zero]
      rw [Id.get?_modify, if_pos rfl, h.kept d hinner, Id.get?_modify, if_pos rfl, hd, spanIn,
        hplace, hlength, List.length_append, List.length_cons]
      rfl
    · have hmem := (List.mem_cons.mp he).resolve_left (Ne.symm hed)
      rw [Id.get?_modify, if_neg hed, h.noted e hmem]
  case kept =>
    intro e he
    obtain ⟨hed, hmem⟩ := not_or.mp (mt List.mem_cons.mpr he)
    rw [Id.get?_modify, if_neg (Ne.symm hed), h.kept e hmem, Id.get?_modify, if_neg (Ne.symm hed)]

/-- The walk goes through the trees of `ds`, which are new to it, and no further. -/
def Passes (s : Store) (tree : DeclId → List DeclId) (ds : List DeclId) : Prop :=
  ∀ (stack : List Turn) (order : List DeclId) (before : List (Nat × Nat)),
    (order ++ ds.flatMap tree).Nodup → (∀ e ∈ ds.flatMap tree, ∃ span, e.get? before = some span) →
      ∃ after, run s (2 * (ds.flatMap tree).length) ⟨ds.map .enter ++ stack, order, before⟩ =
          ⟨stack, order ++ ds.flatMap tree, after⟩ ∧
        Notes tree (order ++ ds.flatMap tree) (ds.flatMap tree) before after

theorem Passes.nil (s : Store) (tree : DeclId → List DeclId) : Passes s tree [] := by
  intro stack order before _ _
  refine ⟨before, ?_, nofun, fun _ _ ↦ rfl⟩
  rw [List.flatMap_nil, List.append_nil]
  rfl

theorem Passes.cons {ds : List DeclId} (h : Passes s tree [d]) (h' : Passes s tree ds) :
    Passes s tree (d :: ds) := by
  intro stack order before hnodup hheld
  have hd : [d].flatMap tree = tree d := List.flatMap_singleton ..
  rw [List.flatMap_cons] at hnodup hheld ⊢
  rw [← List.append_assoc] at hnodup ⊢
  obtain ⟨mid, hrun, hnotes⟩ := h (ds.map .enter ++ stack) order before
    (hd ▸ (List.nodup_append.mp hnodup).1) fun e he ↦ hheld e (List.mem_append_left _ (hd ▸ he))
  rw [hd] at hrun hnotes
  obtain ⟨after, hrun', hnotes'⟩ := h' stack (order ++ tree d) mid hnodup fun e he ↦ by
    have hnot : e ∉ tree d := fun hed ↦
      (List.nodup_append.mp hnodup).2.2 e (List.mem_append_right _ hed) e he rfl
    rw [hnotes.kept e hnot]
    exact hheld e (List.mem_append_right _ he)
  refine ⟨after, ?_, hnotes.append hnotes'⟩
  rw [List.length_append, Nat.mul_add, run_add]
  exact (congrArg _ hrun).trans hrun'

theorem Passes.of_forall {ds : List DeclId} (h : ∀ d ∈ ds, Passes s tree [d]) :
    Passes s tree ds := by
  induction ds with
  | nil => exact .nil s tree
  | cons d ds ih =>
    obtain ⟨hd, hds⟩ := List.forall_mem_cons.mp h
    exact .cons hd (ih hds)

/-- One step into a declaration, its members, and one step out of it. -/
theorem Passes.scope (htree : tree d = d :: (s.membersOf d).flatMap tree)
    (h : Passes s tree (s.membersOf d)) : Passes s tree [d] := by
  intro stack order before hnodup hheld
  rw [List.flatMap_singleton, htree] at hnodup hheld ⊢
  obtain ⟨span, hspan⟩ := hheld d List.mem_cons_self
  have hassoc : order ++ [d] ++ (s.membersOf d).flatMap tree =
      order ++ d :: (s.membersOf d).flatMap tree := List.append_cons .. |>.symm
  obtain ⟨mid, hrun, hnotes⟩ := h (.leave d :: stack) (order ++ [d])
    (d.modify (fun span ↦ (order.length, span.2)) before) (hassoc ▸ hnodup) fun e he ↦ by
      obtain ⟨span, hspan⟩ := hheld e (List.mem_cons_of_mem d he)
      rw [Id.get?_modify, hspan]
      split <;> exact ⟨_, rfl⟩
  rw [hassoc] at hrun hnotes
  refine ⟨_, ?_, hnotes.enclose hspan hnodup (by rw [htree, List.length_cons])⟩
  have hsteps : 2 * (d :: (s.membersOf d).flatMap tree).length =
      1 + (2 * ((s.membersOf d).flatMap tree).length + 1) := by
    rw [List.length_cons]
    omega
  rw [hsteps, run_add, run_add]
  exact congrArg (run s 1) hrun

end Tour

namespace Store

variable {s : Store} {r d : DeclId} {rank : DeclId → Nat} {x : Declaration}

/-- The walk from the root ends and visits everything, scopes before their members. -/
theorem tour_tree (hs : s.Scoped (some r)) (hrank : s.Ranks rank) :
    (s.tour r).stack = [] ∧ (s.tour r).order = s.preorder r ∧
      ∀ {d x}, d.get? s.decls = some x →
        d.get? (s.tour r).spans = some (Tour.spanIn s.preorder (s.preorder r) d) := by
  obtain ⟨tree, htree⟩ := exists_tree hs hrank
  have hall : ∀ d, Tour.Passes s tree [d] := by
    intro d
    induction d using (wellFounded_members hs hrank).induction with
    | _ d ih => exact .scope (htree d) (.of_forall ih)
  obtain ⟨y, hy, -, -⟩ := hs.root_held rfl
  have hroot : [r].flatMap tree = s.preorder r := by
    rw [List.flatMap_singleton, preorder_eq_tree htree hs hrank hy]
  have hperm := preorder_perm_all hs hrank
  have hnodup : ([] ++ [r].flatMap tree).Nodup := by
    rw [hroot]
    exact nodup_preorder hs hrank hy
  obtain ⟨spans, hrun, hnotes⟩ := hall r [] [] (s.decls.map fun _ ↦ (0, 0)) hnodup fun e he ↦ by
    rw [hroot] at he
    obtain ⟨z, hz⟩ := Id.exists_get?_of_mem_all (hperm.mem_iff.mp he)
    exact ⟨_, Id.get?_map_of_get? _ hz⟩
  have hlength : ([r].flatMap tree).length = s.decls.length := by
    rw [hroot, hperm.length_eq, Id.length_all]
  have htour : s.tour r = ⟨[], s.preorder r, spans⟩ := by
    rw [tour, ← hlength, ← hroot]
    exact hrun
  rw [htour]
  refine ⟨rfl, rfl, fun {d x} hd ↦ ?_⟩
  have hmem : d ∈ s.preorder r := hperm.mem_iff.mpr (Id.mem_all_of_get? hd)
  rw [hnotes.noted d (hroot ▸ hmem), List.nil_append, hroot, Tour.spanIn, Tour.spanIn,
    preorder_eq_tree htree hs hrank hd]

end Store

end ScopeForest
