import ScopeForest.Proofs.Forest.Run
import ScopeForest.Proofs.Tour

namespace ScopeForest

namespace Store

variable {s t : Store}

theorem SameTree.length_le (h : s.SameTree t) : s.decls.length ≤ t.decls.length := by
  rcases Nat.eq_zero_or_pos s.decls.length with hz | hpos
  · omega
  · obtain ⟨x, hx⟩ := (Id.exists_get?_iff (k := .decl) (i := ⟨s.decls.length⟩)).mpr
      ⟨hpos, Nat.le_refl _⟩
    obtain ⟨y, hy, -⟩ := h.kept hx
    exact (Id.val_pos_of_get? hy).2

theorem SameTree.symm_length (h : s.SameTree t) : t.decls.length ≤ s.decls.length := by
  rcases Nat.eq_zero_or_pos t.decls.length with hz | hpos
  · omega
  · obtain ⟨y, hy⟩ := (Id.exists_get?_iff (k := .decl) (i := ⟨t.decls.length⟩)).mpr
      ⟨hpos, Nat.le_refl _⟩
    obtain ⟨x, hx, -⟩ := h.origin hy
    exact (Id.val_pos_of_get? hx).2

theorem SameTree.membersOf (h : s.SameTree t) (d : DeclId) : t.membersOf d = s.membersOf d := by
  unfold Store.membersOf
  cases hs : d.get? s.decls with
  | some x =>
    obtain ⟨y, hy, -, hm⟩ := h.kept hs
    simp [hy, hm]
  | none =>
    cases ht : d.get? t.decls with
    | none => rfl
    | some y =>
      obtain ⟨x, hx, -⟩ := h.origin ht
      cases hs.symm.trans hx

theorem SameTree.preorder (h : s.SameTree t) (d : DeclId) : t.preorder d = s.preorder d :=
  preorder_congr (Nat.le_antisymm h.symm_length h.length_le) h.membersOf d

def hasName (s : Store) (name : String) (d : DeclId) : Bool :=
  (d.get? s.decls).any (·.name == name)

theorem get?_indexNames (s : Store) (order : List DeclId) (name : String) :
    ((s.indexNames order).get? name).getD [] = order.filter (s.hasName name) := by
  -- what a step adds to the list of one name
  have hstep (ds : List DeclId) (index : NameMap (List DeclId)) :
      ((ds.foldl s.indexName index).get? name).getD [] =
        (index.get? name).getD [] ++ ds.filter (s.hasName name) := by
    induction ds generalizing index with
    | nil => simp
    | cons d ds ih =>
      rw [List.foldl_cons, ih, List.filter_cons]
      cases hd : d.get? s.decls with
      | none => simp [indexName, hasName, hd]
      | some x =>
        simp only [indexName, hasName, hd, Option.any_some, NameMap.get?_insert, beq_iff_eq]
        by_cases hn : name = x.name
        · simp [hn]
        · simp [hn, Ne.symm hn]
  exact (hstep order ∅).trans (List.nil_append _)

end Store

section Piece

variable {α : Type} {before piece after : List α} {a : α}

theorem idxOf_between [DecidableEq α] (hnodup : (before ++ piece ++ after).Nodup) :
    (before.length ≤ (before ++ piece ++ after).idxOf a ∧
      (before ++ piece ++ after).idxOf a < before.length + piece.length) ↔ a ∈ piece := by
  rw [List.append_assoc] at hnodup ⊢
  obtain ⟨-, -, hbefore⟩ := List.nodup_append.mp hnodup
  by_cases hb : a ∈ before
  · have hlt := List.idxOf_lt_length_of_mem hb
    have hp : a ∉ piece := fun hp ↦ hbefore a hb a (List.mem_append_left _ hp) rfl
    rw [List.idxOf_append_of_mem hb]
    exact ⟨fun h ↦ by omega, fun h ↦ absurd h hp⟩
  · rw [List.idxOf_append_of_notMem hb]
    by_cases hp : a ∈ piece
    · have hlt := List.idxOf_lt_length_of_mem hp
      rw [List.idxOf_append_of_mem hp]
      exact ⟨fun _ ↦ hp, fun _ ↦ by omega⟩
    · rw [List.idxOf_append_of_notMem hp]
      exact ⟨fun h ↦ by omega, fun h ↦ absurd h hp⟩

theorem filter_piece {test : α → Bool} (hnodup : (before ++ piece ++ after).Nodup)
    (htest : ∀ b, test b → b ∈ piece) :
    (before ++ piece ++ after).filter test = piece.filter test := by
  obtain ⟨hbp, -, hafter⟩ := List.nodup_append.mp hnodup
  obtain ⟨-, -, hbefore⟩ := List.nodup_append.mp hbp
  have hb : before.filter test = [] :=
    List.filter_eq_nil_iff.mpr fun b hb ht ↦ hbefore b hb b (htest b ht) rfl
  have ha : after.filter test = [] :=
    List.filter_eq_nil_iff.mpr fun b hb ht ↦
      hafter b (List.mem_append_right _ (htest b ht)) b hb rfl
  rw [List.filter_append, List.filter_append, hb, ha, List.nil_append, List.append_nil]

end Piece

/-- The indexes of a graph belong to its tree. -/
structure Graph.Indexed (g : Graph) : Prop where
  tree : g.store.Scoped (some g.root)
  earlier : g.store.Earlier
  order : g.order = g.store.preorder g.root
  spans : ∀ {d : DeclId} {x : Declaration}, d.get? g.store.decls = some x →
    d.get? g.spans = some (Tour.spanIn g.store.preorder g.order d)
  byName : g.byName = g.store.indexNames g.order

theorem Forest.Sound.indexed {f : Forest} (hf : f.Sound) : f.freeze.Indexed := by
  obtain ⟨hsound, hroot, -⟩ := hf.freeze
  obtain ⟨hrooted, hroot', -⟩ := hf.rooted
  obtain ⟨-, horder, hspans⟩ := Store.tour_tree (hroot' ▸ hrooted.tree) hrooted.earlier
  have hsame : f.freeze.store.preorder = f.rooted.1.store.preorder :=
    funext (sameTree_freeze f).preorder
  refine ⟨hroot ▸ hsound.tree, hsound.earlier, horder.trans (congrFun hsame _).symm, ?_, rfl⟩
  intro d y hd
  obtain ⟨x, hx, -, -⟩ := (sameTree_freeze f).origin hd
  have horder' : f.freeze.order = f.rooted.1.store.preorder f.rooted.2 := horder
  rw [hsame, horder']
  exact hspans hx

namespace Graph.Indexed

variable {g : Graph} {d e : DeclId} {x y : Declaration}

theorem root_get? (h : g.Indexed) : ∃ x, g.root.get? g.store.decls = some x := by
  obtain ⟨x, hx, -, -⟩ := h.tree.root_held rfl
  exact ⟨x, hx⟩

theorem nodup (h : g.Indexed) : g.order.Nodup := by
  obtain ⟨x, hx⟩ := h.root_get?
  rw [h.order]
  exact Store.nodup_preorder h.tree h.earlier hx

theorem mem_order (h : g.Indexed) : d ∈ g.order ↔ ∃ x, d.get? g.store.decls = some x := by
  obtain ⟨r, hr⟩ := h.root_get?
  rw [h.order, Store.mem_preorder h.tree h.earlier hr]
  exact ⟨fun hb ↦ hb.get? hr, fun ⟨_, hd⟩ ↦ Store.below_root h.tree h.earlier hd⟩

theorem named (h : g.Indexed) (name : String) :
    g.named name = g.order.filter (g.store.hasName name) := by
  rw [Graph.named, h.byName, Store.get?_indexNames]

theorem span (h : g.Indexed) (hd : d.get? g.store.decls = some x) :
    g.span d = .ok (g.order.idxOf d, g.order.idxOf d + (g.store.preorder d).length) := by
  rw [Graph.span, h.spans hd]
  rfl

theorem order_eq (h : g.Indexed) (hd : d.get? g.store.decls = some x) :
    ∃ before after, g.order = before ++ g.store.preorder d ++ after ∧
      g.order.idxOf d = before.length := by
  have hinfix : g.store.preorder d <:+: g.order :=
    h.order ▸ Store.preorder_segment h.tree h.earlier (Store.below_root h.tree h.earlier hd)
  obtain ⟨before, after, horder⟩ := hinfix
  refine ⟨before, after, horder.symm, ?_⟩
  have hnodup := h.nodup
  rw [← horder, List.append_assoc] at hnodup ⊢
  rw [Store.preorder_eq h.tree h.earlier hd] at hnodup ⊢
  have hnot : d ∉ before := fun hmem ↦
    (List.nodup_append.mp hnodup).2.2 d hmem d (by simp) rfl
  rw [List.idxOf_append_of_notMem hnot, List.cons_append, List.idxOf_cons_self]
  rfl

theorem subtree (h : g.Indexed) (hd : d.get? g.store.decls = some x) :
    g.subtree d = .ok (g.store.preorder d) := by
  obtain ⟨before, after, horder, hidx⟩ := h.order_eq hd
  rw [Graph.subtree, h.span hd]
  simp only [bind, Except.bind, pure, Except.pure, Except.ok.injEq]
  rw [hidx, horder, List.append_assoc, List.drop_left, Nat.add_sub_cancel_left, List.take_left]

theorem contains (h : g.Indexed) (hd : d.get? g.store.decls = some x)
    (he : e.get? g.store.decls = some y) :
    g.contains d e = .ok (decide (e ∈ g.store.preorder d)) := by
  obtain ⟨before, after, horder, hidx⟩ := h.order_eq hd
  rw [Graph.contains, h.span hd]
  simp only [bind, Except.bind, pure, Except.pure]
  rw [h.span he]
  simp only [Except.ok.injEq, decide_eq_decide]
  have hnodup := h.nodup
  rw [hidx]
  rw [horder] at hnodup ⊢
  exact idxOf_between hnodup

theorem filter_below (h : g.Indexed) (hd : d.get? g.store.decls = some x) :
    g.order.filter (fun e ↦ e ≠ d ∧ e ∈ g.store.preorder d) = (g.store.preorder d).tail := by
  obtain ⟨before, after, horder, -⟩ := h.order_eq hd
  have hnodup := h.nodup
  have hself := Store.nodup_preorder h.tree h.earlier hd
  rw [horder] at hnodup ⊢
  rw [filter_piece hnodup fun b hb ↦ (of_decide_eq_true hb).2]
  rw [Store.preorder_eq h.tree h.earlier hd] at hself ⊢
  have hnot := (List.nodup_cons.mp hself).1
  rw [List.filter_cons_of_neg (by simp), List.tail_cons, List.filter_eq_self]
  intro e he
  simp only [decide_eq_true_eq]
  exact ⟨fun hed ↦ hnot (hed ▸ he), List.mem_cons_of_mem d he⟩

def isMember (g : Graph) (d e : DeclId) : Bool :=
  (e.get? g.store.decls).any (·.parent == some d)

theorem isMember_iff : isMember g d e ↔
    ∃ y, e.get? g.store.decls = some y ∧ y.parent = some d := by
  cases h : e.get? g.store.decls <;> simp [isMember, h]

theorem filter_isMember_preorder (h : g.Indexed) (he : e ∈ g.store.membersOf d) :
    (g.store.preorder e).filter (isMember g d) = [e] := by
  obtain ⟨y, hy, hp⟩ := (Store.mem_membersOf h.tree).mp he
  rw [Store.preorder_eq h.tree h.earlier hy, List.filter_cons_of_pos (isMember_iff.mpr ⟨y, hy, hp⟩)]
  refine congrArg (e :: ·) (List.filter_eq_nil_iff.mpr fun a ha hmember ↦ ?_)
  obtain ⟨z, hz, hzp⟩ := isMember_iff.mp hmember
  -- a member further down would have its scope inside a member of its scope
  obtain ⟨b, hb, ha⟩ := List.mem_flatMap.mp ha
  obtain ⟨w, hw, hwp⟩ := (Store.mem_membersOf h.tree).mp hb
  have hde := h.earlier hy hp
  have heb := h.earlier hw hwp
  cases (Store.mem_preorder h.tree h.earlier hw).mp ha with
  | refl =>
    cases hw.symm.trans hz
    cases hwp.symm.trans hzp
    exact Nat.lt_irrefl _ hde
  | step hz' hzp' hbelow =>
    cases hz.symm.trans hz'
    cases hzp.symm.trans hzp'
    have hle := hbelow.rank_le h.earlier
    omega

theorem filter_isMember (h : g.Indexed) (hd : d.get? g.store.decls = some x) :
    g.order.filter (isMember g d) = x.members := by
  obtain ⟨before, after, horder, -⟩ := h.order_eq hd
  have hnodup := h.nodup
  have hmembers : g.store.membersOf d = x.members := by
    rw [Store.membersOf, hd]
    rfl
  rw [horder] at hnodup ⊢
  rw [filter_piece hnodup]
  · have hself : ¬isMember g d d := fun hmember ↦ by
      obtain ⟨y, hy, hp⟩ := isMember_iff.mp hmember
      exact Nat.lt_irrefl _ (h.earlier hy hp)
    rw [Store.preorder_eq h.tree h.earlier hd, List.filter_cons_of_neg hself, List.filter_flatMap,
      List.flatMap_congr fun e he ↦ h.filter_isMember_preorder he, hmembers, List.flatMap_singleton']
  · intro e he
    obtain ⟨y, hy, hp⟩ := isMember_iff.mp he
    exact (Store.mem_preorder h.tree h.earlier hd).mpr (.step hy hp .refl)

end Graph.Indexed

end ScopeForest
