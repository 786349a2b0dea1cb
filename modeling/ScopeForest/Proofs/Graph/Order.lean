import ScopeForest.Proofs.Graph.Search

namespace ScopeForest

open Outcome

namespace Store

variable {s : Store} {root : Option DeclId} {d : DeclId} {stack order : List DeclId}

/-- A depth-first walk over a stack. The next declaration makes room for its members, which are
visited before the rest of the stack. -/
inductive Visits (s : Store) : List DeclId → List DeclId → Prop
  | nil : Visits s [] []
  | cons {d : DeclId} {x : Declaration} {stack order : List DeclId}
      (hd : d.get? s.decls = some x) (h : Visits s (x.members ++ stack) order) :
      Visits s (d :: stack) (d :: order)

theorem Visits.flatMap {visited : DeclId → List DeclId} {ds : List DeclId}
    (hds : ∀ d ∈ ds, ∀ {stack order}, s.Visits stack order →
      s.Visits (d :: stack) (visited d ++ order))
    (h : s.Visits stack order) : s.Visits (ds ++ stack) (ds.flatMap visited ++ order) := by
  induction ds with
  | nil => exact h
  | cons d ds ih =>
    obtain ⟨hd, hds⟩ := List.forall_mem_cons.mp hds
    rw [List.flatMap_cons, List.append_assoc]
    exact hd (ih hds)

theorem visits_preorder (hs : s.Scoped root) (hearlier : s.Earlier) (hd : s.HoldsDecl d)
    (h : s.Visits stack order) : s.Visits (d :: stack) (s.preorder d ++ order) := by
  -- members come later in the arena
  induction hn : s.decls.length - d.val using Nat.strong_induction_on
    generalizing d stack order with
  | _ n ih =>
    obtain ⟨x, hx⟩ := hd
    have hmembers : x.members = s.membersOf d := by
      rw [membersOf, hx]
      rfl
    rw [preorder_eq hs hearlier hx]
    refine .cons hx ?_
    rw [hmembers]
    refine .flatMap (fun m hm stack order h ↦ ?_) h
    obtain ⟨y, hy, hp⟩ := (mem_membersOf hs).mp hm
    have hlt := hearlier hy hp
    have hle := (Id.val_pos_of_get? hy).2
    exact ih _ (by omega) ⟨y, hy⟩ h rfl

end Store

def Graph.Before (g : Graph) (d e : DeclId) : Prop :=
  ∃ m n, g.position d = .ok m ∧ g.position e = .ok n ∧ m < n

namespace Graph.Indexed

variable {g : Graph} {d e : DeclId} {x : Declaration}

theorem position_eq_ok_iff {n : Nat} (h : g.Indexed) (hd : g.store.HoldsDecl d) :
    g.position d = .ok n ↔ g.order[n]? = some d := by
  obtain ⟨x, hx⟩ := hd
  have hmem : d ∈ g.order := h.mem_order.mpr ⟨x, hx⟩
  have hposition : g.position d = .ok (g.order.idxOf d) := by
    rw [Graph.position, h.span hx]
    rfl
  rw [hposition, Except.ok.injEq]
  constructor
  · rintro rfl
    exact List.getElem?_idxOf hmem
  · intro hn
    obtain ⟨hlt, rfl⟩ := List.getElem?_eq_some_iff.mp hn
    exact h.nodup.idxOf_getElem n hlt

theorem pairwise_before (h : g.Indexed) : g.order.Pairwise g.Before := by
  have hplace {n : Nat} (hn : n < g.order.length) : g.position g.order[n] = .ok n :=
    (h.position_eq_ok_iff (h.mem_order.mp (List.getElem_mem hn))).mpr (List.getElem?_eq_getElem hn)
  rw [List.pairwise_iff_getElem]
  intro m n hm hn hlt
  exact ⟨m, n, hplace hm, hplace hn, hlt⟩

theorem mem_tail_preorder (h : g.Indexed) (hd : d.get? g.store.decls = some x) :
    e ∈ (g.store.preorder d).tail ↔ e ≠ d ∧ g.store.Below d e := by
  have hnodup := Store.nodup_preorder h.tree h.earlier hd
  rw [← Store.mem_preorder h.tree h.earlier hd]
  rw [Store.preorder_eq h.tree h.earlier hd] at hnodup ⊢
  have hnot := (List.nodup_cons.mp hnodup).1
  rw [List.tail_cons, List.mem_cons]
  constructor
  · intro he
    exact ⟨fun hed ↦ hnot (hed ▸ he), .inr he⟩
  · intro he
    exact he.2.resolve_left he.1

end Graph.Indexed

namespace Search

variable {q : Search} {g : Graph} {m : Matcher}

/-- What a search is about: all that lies inside its root, or the members of it. -/
def Inside (q : Search) (g : Graph) (d : DeclId) : Prop :=
  if q.recursive then d ≠ q.root ∧ g.store.Below q.root d else d ∈ g.store.membersOf q.root

theorem exists_candidates (h : g.Indexed) (hroot : g.store.HoldsDecl q.root) :
    ∃ ds, q.candidates g = .ok ds ∧ ds.Sublist g.order ∧ ∀ d, d ∈ ds ↔ q.Inside g d := by
  obtain ⟨x, hx⟩ := hroot
  unfold candidates Inside
  by_cases hrec : q.recursive
  · refine ⟨(g.store.preorder q.root).tail, ?_, ?_, fun d ↦ ?_⟩
    · rw [if_pos hrec, h.subtree hx]
      rfl
    · rw [← h.filter_below hx]
      exact List.filter_sublist
    · rw [if_pos hrec, h.mem_tail_preorder hx]
  · refine ⟨x.members, ?_, ?_, fun d ↦ ?_⟩
    · rw [if_neg hrec, Store.decl_of_get? hx]
      rfl
    · rw [← h.filter_isMember hx]
      exact List.filter_sublist
    · rw [if_neg hrec, Store.membersOf, hx]
      rfl

/-- A scan gives an answer where the matcher does, and finds the matches in pre-order. -/
structure Scans (q : Search) (g : Graph) (m : Matcher) : Prop where
  returns : Returns (findAll { q with useIndex := false } g m) ↔
    ∀ d, q.Inside g d → Returns (m.accepts g.store d)
  found : ∀ {found}, findAll { q with useIndex := false } g m = .ok found →
    (∀ d, d ∈ found ↔ q.Inside g d ∧ m.accepts g.store d = .ok true) ∧ found.Nodup ∧
      found.Pairwise g.Before

theorem scans (h : g.Indexed) (hroot : g.store.HoldsDecl q.root) (m : Matcher) : q.Scans g m := by
  obtain ⟨ds, hds, hsub, hmem⟩ := exists_candidates h hroot
  have hscan : findAll { q with useIndex := false } g m =
      Outcome.filter (m.accepts g.store) ds := by
    rw [findAll_scan, hds]
    rfl
  have hfilter (hds : ∀ d ∈ ds, Returns (m.accepts g.store d)) :
      Outcome.filter (m.accepts g.store) ds =
        .ok (ds.filter fun d ↦ holds (m.accepts g.store d)) :=
    filter_eq_of_forall fun d hd ↦ (hds d hd).eq_holds
  constructor
  case returns =>
    rw [hscan]
    constructor
    · intro hreturns d hd
      obtain ⟨found, hfound⟩ := hreturns
      exact returns_of_filter_eq_ok hfound d ((hmem d).mpr hd)
    · intro hall
      exact ⟨_, hfilter fun d hd ↦ hall d ((hmem d).mp hd)⟩
  case found =>
    intro found hfound
    rw [hscan] at hfound
    have hanswers := returns_of_filter_eq_ok hfound
    rw [hfilter hanswers] at hfound
    cases hfound
    have hkept (test : DeclId → Bool) : (ds.filter test).Sublist g.order :=
      List.filter_sublist.trans hsub
    refine ⟨fun d ↦ ?_, h.nodup.sublist (hkept _), h.pairwise_before.sublist (hkept _)⟩
    rw [List.mem_filter, ← hmem d]
    refine and_congr_right fun hd ↦ ?_
    rw [(hanswers d hd).eq_holds, Except.ok.injEq]
    rfl

end Search

/-- The places in pre-order tell the tree of scopes. -/
structure Graph.OrdersScopes (g : Graph) : Prop where
  all : g.order.Perm (Id.all g.store.decls)
  first : g.order.head? = some g.root
  position : ∀ {d n}, g.store.HoldsDecl d → (g.position d = .ok n ↔ g.order[n]? = some d)
  subtree : ∀ {d}, g.store.HoldsDecl d → ∃ inner, g.subtree d = .ok (d :: inner) ∧
    g.store.Visits [d] (d :: inner) ∧ (d :: inner).Nodup ∧
      ∀ e, e ∈ d :: inner ↔ g.store.Below d e
  contains : ∀ {d e}, g.store.HoldsDecl d → g.store.HoldsDecl e →
    ∃ inside, g.contains d e = .ok inside ∧ (inside = true ↔ g.store.Below d e)
  scans : ∀ {q : Search}, g.store.HoldsDecl q.root → ∀ m, q.Scans g m
  /-- A matcher gives an answer unless a type is part of its own text. -/
  accepts : ∀ {m : Matcher} {d}, g.store.Spellable → (∀ t ∈ m.comparedTypes, g.store.HoldsType t) →
    g.store.HoldsDecl d → Returns (m.accepts g.store d)

/-- In every frozen graph the order is a depth-first walk from the root. -/
theorem Run.ordersScopes {units : List (List Record)} {lone : Bool} {f : Forest}
    (h : Run units lone f) : f.freeze.OrdersScopes := by
  have hindexed := h.sound.indexed
  obtain ⟨r, hr⟩ := hindexed.root_get?
  constructor
  case all =>
    rw [hindexed.order]
    exact Store.preorder_perm_all hindexed.tree hindexed.earlier
  case first =>
    rw [hindexed.order, Store.preorder_eq hindexed.tree hindexed.earlier hr]
    rfl
  case position => exact hindexed.position_eq_ok_iff
  case subtree =>
    intro d hd
    obtain ⟨x, hx⟩ := hd
    have hcons := Store.preorder_eq hindexed.tree hindexed.earlier hx
    have hvisits := Store.visits_preorder hindexed.tree hindexed.earlier ⟨x, hx⟩ .nil
    refine ⟨_, hcons ▸ hindexed.subtree hx, ?_, ?_, fun e ↦ ?_⟩
    · rwa [List.append_nil, hcons] at hvisits
    · rw [← hcons]
      exact Store.nodup_preorder hindexed.tree hindexed.earlier hx
    · rw [← hcons]
      exact Store.mem_preorder hindexed.tree hindexed.earlier hx
  case contains =>
    intro d e hd he
    obtain ⟨x, hx⟩ := hd
    obtain ⟨y, hy⟩ := he
    refine ⟨_, hindexed.contains hx hy, ?_⟩
    rw [decide_eq_true_iff]
    exact Store.mem_preorder hindexed.tree hindexed.earlier hx
  case scans => exact Search.scans hindexed
  case accepts =>
    intro m d hspellable hm hd
    have hclosed := h.sound.freeze.1.closed (h.refers.freeze h.sound)
    obtain ⟨rank, hrank⟩ := hclosed.exists_ranking hspellable
    exact Matcher.accepts_returns hclosed hrank m hm hd

theorem ordersScopes_sample : ∃ f, Run [Sample.unnamed] false f ∧ f.freeze.OrdersScopes ∧
    f.freeze.order = [⟨1⟩, ⟨2⟩, ⟨3⟩, ⟨4⟩] ∧ f.freeze.subtree ⟨2⟩ = .ok [⟨2⟩, ⟨3⟩, ⟨4⟩] ∧
      f.freeze.contains ⟨3⟩ ⟨4⟩ = .ok false := by
  have h : (fun f : Forest ↦
      (f.freeze.order, f.freeze.subtree ⟨2⟩, f.freeze.contains ⟨3⟩ ⟨4⟩)) <$>
        Forest.ofUnits {} [Sample.unnamed] =
      .ok ([⟨1⟩, ⟨2⟩, ⟨3⟩, ⟨4⟩], .ok [⟨2⟩, ⟨3⟩, ⟨4⟩], .ok false) := by
    cbv
  obtain ⟨f, hf, heq⟩ := Outcome.map_eq_ok h
  simp only [Prod.mk.injEq] at heq
  exact ⟨f, Run.ofUnits hf, Run.ordersScopes (Run.ofUnits hf), heq⟩

end ScopeForest
