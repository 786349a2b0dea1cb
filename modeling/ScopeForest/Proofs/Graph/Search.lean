import ScopeForest.Graph.Search
import ScopeForest.Proofs.Graph.Integrity
import ScopeForest.Proofs.Matcher.Hint
import ScopeForest.Proofs.Matcher.Total

namespace ScopeForest

open Outcome

theorem Forest.Sound.closed {f : Forest} (hs : f.Sound) (hf : f.Refers) : f.store.Closed where
  child ht hu := (hf.types _ (Id.mem_of_get? ht)).children _ hu
  owner ht hd := by
    obtain ⟨kind, ⟨x, hx, -⟩, -⟩ := (hf.types _ (Id.mem_of_get? ht)).owner _ hd
    exact ⟨x, hx⟩
  type hd ht := (hf.decls _ (Id.mem_of_get? hd)).types _ ht
  base hd hb := by
    obtain ⟨kind, ⟨y, hy, -⟩, -⟩ := (hf.decls _ (Id.mem_of_get? hd)).bases _ hb
    exact ⟨y, hy⟩
  parent hx hp := by
    obtain ⟨y, hy, -⟩ := hs.tree.parent hx hp
    exact ⟨y, hy⟩
  nested := ⟨Id.val, hs.earlier, fun hx ↦ (Id.val_pos_of_get? hx).2⟩

def Graph.carriesHint (g : Graph) (m : Matcher) (d : DeclId) : Bool :=
  m.nameHint?.all (g.store.hasName · d)

namespace Search

variable {q : Search} {g : Graph} {m : Matcher} {found : List DeclId}

theorem exists_inside (h : g.Indexed) (hroot : g.store.HoldsDecl q.root) :
    ∃ inside : DeclId → Bool, q.candidates g = .ok (g.order.filter inside) ∧
      ∀ {d}, g.store.HoldsDecl d → q.covers g d = .ok (inside d) := by
  obtain ⟨x, hx⟩ := hroot
  cases hrec : q.recursive with
  | true =>
    refine ⟨fun e ↦ e ≠ q.root ∧ e ∈ g.store.preorder q.root, ?_, fun {d} hd ↦ ?_⟩
    · rw [candidates, if_pos hrec, h.subtree hx, h.filter_below hx]
      rfl
    · obtain ⟨y, hy⟩ := hd
      unfold covers
      split
      next heq => simp [heq, pure, Except.pure]
      next hne => simp [h.contains hx hy, hne]
  | false =>
    refine ⟨Graph.Indexed.isMember g q.root, ?_, fun {d} hd ↦ ?_⟩
    · rw [candidates, if_neg (by simp [hrec]), Store.decl_of_get? hx, h.filter_isMember hx]
      rfl
    · obtain ⟨y, hy⟩ := hd
      have hmember : Graph.Indexed.isMember g q.root d = (y.parent == some q.root) := by
        rw [Graph.Indexed.isMember, hy]
        rfl
      rw [hmember]
      unfold covers
      split
      next heq =>
        -- no scope is its own member
        have hne : y.parent ≠ some q.root := fun hp ↦ by
          have hlt := h.earlier hy hp
          rw [heq] at hlt
          exact Nat.lt_irrefl _ hlt
        rw [beq_eq_false_iff_ne.mpr hne]
        rfl
      next =>
        rw [if_neg (by simp [hrec]), Store.decl_of_get? hy]
        rfl

theorem findAll_scan : findAll { q with useIndex := false } g m =
    (q.candidates g >>= Outcome.filter (m.accepts g.store)) := rfl

theorem findAll_scan_eq_ok {inside : DeclId → Bool}
    (hcandidates : q.candidates g = .ok (g.order.filter inside))
    (h : findAll { q with useIndex := false } g m = .ok found) :
    ∃ test : DeclId → Bool, (∀ d ∈ g.order.filter inside, m.accepts g.store d = .ok (test d)) ∧
      found = (g.order.filter inside).filter test := by
  rw [findAll_scan, hcandidates] at h
  have hreturns : ∀ d ∈ g.order.filter inside, m.accepts g.store d = .ok (holds (m.accepts g.store d)) :=
    fun d hd ↦ (returns_of_filter_eq_ok h d hd).eq_holds
  exact ⟨_, hreturns, Except.ok.inj (h.symm.trans (filter_eq_of_forall hreturns))⟩

/-- The index keeps the matches of a scan that are stored under the pinned name. -/
theorem findAll_useIndex (h : g.Indexed) (hroot : g.store.HoldsDecl q.root)
    (hscan : findAll { q with useIndex := false } g m = .ok found) :
    findAll { q with useIndex := true } g m = .ok (found.filter (g.carriesHint m)) := by
  obtain ⟨inside, hcandidates, hcovers⟩ := exists_inside h hroot
  obtain ⟨test, htest, hfound⟩ := findAll_scan_eq_ok hcandidates hscan
  cases hhint : m.nameHint? with
  | none =>
    have hall : found.filter (g.carriesHint m) = found :=
      List.filter_eq_self.mpr fun d _ ↦ by rw [Graph.carriesHint, hhint]; rfl
    rw [hall, ← hscan, findAll_scan]
    simp only [findAll, hint?, hhint]
    rfl
  | some name =>
    have hindex : findAll { q with useIndex := true } g m = Outcome.filter
        (fun d ↦ do if ← q.covers g d then m.accepts g.store d else return false)
        (g.order.filter (g.store.hasName name)) := by
      rw [← h.named]
      simp only [findAll, hint?, hhint]
      rfl
    have hcarries : g.carriesHint m = g.store.hasName name := by
      funext d
      rw [Graph.carriesHint, hhint]
      rfl
    rw [hindex, filter_eq_of_forall (p := fun d ↦ inside d && test d), hfound, hcarries]
    · simp only [List.filter_filter, Bool.and_comm]
    · -- what lies outside is never tested, so only answers that the scan has are needed
      intro d hd
      have horder := (List.mem_filter.mp hd).1
      rw [hcovers (h.mem_order.mp horder)]
      cases hinside : inside d with
      | false => rfl
      | true => exact htest d (List.mem_filter.mpr ⟨horder, hinside⟩)

theorem exists?_eq (h : g.Indexed) (hroot : g.store.HoldsDecl q.root)
    (hscan : findAll { q with useIndex := false } g m = .ok found) :
    q.exists? g m = .ok (decide (0 < found.length)) := by
  obtain ⟨inside, hcandidates, -⟩ := exists_inside h hroot
  obtain ⟨test, htest, hfound⟩ := findAll_scan_eq_ok hcandidates hscan
  have hexists : q.exists? g m = .ok ((g.order.filter inside).any test) := by
    rw [exists?, hcandidates]
    exact any_eq_of_forall htest
  rw [hexists, hfound, Except.ok.injEq, Bool.eq_iff_iff, List.any_eq_true, decide_eq_true_iff,
    List.length_filter_pos_iff]

theorem not_shows_of_lost (h : g.Indexed) (hroot : g.store.HoldsDecl q.root)
    (hscan : findAll { q with useIndex := false } g m = .ok found) {d : DeclId} (hd : d ∈ found)
    (hlost : g.carriesHint m d = false) : ¬g.store.Shows d := by
  obtain ⟨inside, hcandidates, -⟩ := exists_inside h hroot
  obtain ⟨test, htest, rfl⟩ := findAll_scan_eq_ok hcandidates hscan
  obtain ⟨hmem, hpass⟩ := List.mem_filter.mp hd
  obtain ⟨x, hx⟩ := h.mem_order.mp (List.mem_filter.mp hmem).1
  have haccepts : m.accepts g.store d = .ok true := hpass ▸ htest d hmem
  intro hshows
  cases hhint : m.nameHint? with
  | none =>
    rw [Graph.carriesHint, hhint] at hlost
    cases hlost
  | some name =>
    have hname := Matcher.name_of_accepts hx hshows m haccepts hhint
    simp [Graph.carriesHint, hhint, Store.hasName, hx, hname] at hlost

theorem findAll_returns (h : g.Indexed) (hroot : g.store.HoldsDecl q.root)
    (hm : ∀ {d}, g.store.HoldsDecl d → Returns (m.accepts g.store d)) :
    Returns (findAll { q with useIndex := false } g m) := by
  obtain ⟨inside, hcandidates, -⟩ := exists_inside h hroot
  rw [findAll_scan]
  exact returns_bind hcandidates ⟨_, filter_eq_of_forall fun d hd ↦
    (hm (h.mem_order.mp (List.mem_filter.mp hd).1)).eq_holds⟩

end Search

/-- The index of names may change an answer. A search that uses it finds what a scan finds, but for
the matches that are not stored under the pinned name; and it loses such a match only if that is
unnamed or if the names on the path to it cannot be told apart. Whether there is a match is decided
by a scan in any case, and a scan gives an answer unless a type is part of its own text. -/
theorem Run.findAll_index {units : List (List Record)} {lone : Bool} {f : Forest}
    (h : Run units lone f) {q : Search} (hroot : f.freeze.store.HoldsDecl q.root) (m : Matcher) :
    (∀ found, Search.findAll { q with useIndex := false } f.freeze m = .ok found →
      Search.findAll { q with useIndex := true } f.freeze m =
        .ok (found.filter (f.freeze.carriesHint m)) ∧
      q.exists? f.freeze m = .ok (decide (0 < found.length)) ∧
      ∀ d ∈ found, f.freeze.carriesHint m d = false → ¬f.freeze.store.Shows d) ∧
    (f.freeze.store.Spellable → (∀ t ∈ m.comparedTypes, f.freeze.store.HoldsType t) →
      ∃ found, Search.findAll { q with useIndex := false } f.freeze m = .ok found) := by
  have hindexed := h.sound.indexed
  refine ⟨fun found hscan ↦ ⟨?_, ?_, fun d hd hlost ↦ ?_⟩, fun hspellable hm ↦ ?_⟩
  · exact Search.findAll_useIndex hindexed hroot hscan
  · exact Search.exists?_eq hindexed hroot hscan
  · exact Search.not_shows_of_lost hindexed hroot hscan hd hlost
  · have hclosed := h.sound.freeze.1.closed (h.refers.freeze h.sound)
    obtain ⟨rank, hrank⟩ := hclosed.exists_ranking hspellable
    exact Search.findAll_returns hindexed hroot fun hd ↦ Matcher.accepts_returns hclosed hrank m hm hd

namespace Sample

def unnamed : List Record :=
  [({ tag := .namespaceTag, id := "n" } : Record).withLiteral Field.name "::",
    (({ tag := .namespaceTag, id := "a" } : Record).withLiteral Field.name "a").withRef
      Field.context "n",
    ({ tag := .structTag, id := "s" } : Record).withRef Field.context "a",
    ({ tag := .pointerType, id := "p" } : Record).withRef Field.type "s",
    ((({ tag := .variableTag, id := "v" } : Record).withLiteral Field.name "v").withRef
      Field.context "a").withRef Field.type "p"]

def pinned : Matcher :=
  (Matcher.qualifiedNameEquals "a").and (.neg (.typeMatches (.equalTo ⟨2⟩)))

def inside : Search := { root := ⟨2⟩ }

end Sample

theorem findAll_index_sample : ∃ f, Run [Sample.unnamed] false f ∧
    f.freeze.store.HoldsDecl Sample.inside.root ∧ f.freeze.store.Spellable ∧
    (∀ t ∈ Sample.pinned.comparedTypes, f.freeze.store.HoldsType t) ∧
    ∃ found, Search.findAll { Sample.inside with useIndex := false } f.freeze Sample.pinned =
        .ok found ∧
      Search.findAll Sample.inside f.freeze Sample.pinned =
        .ok (found.filter (f.freeze.carriesHint Sample.pinned)) := by
  have h : (fun f : Forest ↦ (f.freeze.store.types, f.freeze.store.decls.map (·.expansion?))) <$>
      Forest.ofUnits {} [Sample.unnamed] =
        .ok ([.declared ⟨3⟩, .pointer ⟨1⟩], [none, none, none, none]) := by
    cbv
  obtain ⟨f, hf, heq⟩ := Outcome.map_eq_ok h
  obtain ⟨htypes, hdecls⟩ := Prod.mk.inj heq
  have hrun := Run.ofUnits hf
  have hheld : f.freeze.store.HoldsDecl Sample.inside.root := by
    have hlength : f.freeze.store.decls.length = 4 := by
      simpa using congrArg List.length hdecls
    exact Id.exists_get?_iff.mpr ⟨by decide, hlength ▸ by decide⟩
  have hspellable : f.freeze.store.Spellable := by
    refine Store.spellable_of_ordered (fun x hx ↦ ?_) fun {t node} ht u hu ↦ ?_
    · have hmem := List.mem_map_of_mem (f := (·.expansion?)) hx
      rw [hdecls] at hmem
      simpa using hmem
    · rw [htypes] at ht
      obtain ⟨n, rfl, hn⟩ := Id.get?_eq_some_iff.mp ht
      rcases n with _ | _ | n
      · cases hn
        cases hu
      · cases hn
        cases List.mem_singleton.mp hu
        decide
      · cases hn
  have hcompared : ∀ t ∈ Sample.pinned.comparedTypes, f.freeze.store.HoldsType t := by
    intro t ht
    cases List.mem_singleton.mp ht
    exact ⟨.pointer ⟨1⟩, by rw [htypes]; rfl⟩
  obtain ⟨hindex, hreturns⟩ := Run.findAll_index hrun hheld Sample.pinned
  obtain ⟨found, hfound⟩ := hreturns hspellable hcompared
  exact ⟨f, hrun, hheld, hspellable, hcompared, found, hfound, (hindex found hfound).1⟩

/-- The unnamed class goes by the qualified name of its namespace, under which it is not stored: a
scan finds it and the index does not. -/
theorem index_loses_unnamed : ∃ f, Run [Sample.unnamed] false f ∧
    Search.findAll { Sample.inside with useIndex := false } f.freeze (.qualifiedNameEquals "a") =
      .ok [⟨3⟩] ∧
    Search.findAll Sample.inside f.freeze (.qualifiedNameEquals "a") = .ok [] ∧
    Search.count Sample.inside f.freeze (.qualifiedNameEquals "a") = .ok 0 ∧
    Search.exists? Sample.inside f.freeze (.qualifiedNameEquals "a") = .ok true := by
  have h : (fun f : Forest ↦
      (Search.findAll { Sample.inside with useIndex := false } f.freeze (.qualifiedNameEquals "a"),
        Search.findAll Sample.inside f.freeze (.qualifiedNameEquals "a"),
        Search.count Sample.inside f.freeze (.qualifiedNameEquals "a"),
        Search.exists? Sample.inside f.freeze (.qualifiedNameEquals "a"))) <$>
      Forest.ofUnits {} [Sample.unnamed] = .ok (.ok [⟨3⟩], .ok [], .ok 0, .ok true) := by
    cbv
  obtain ⟨f, hf, heq⟩ := Outcome.map_eq_ok h
  simp only [Prod.mk.injEq] at heq
  exact ⟨f, Run.ofUnits hf, heq⟩

end ScopeForest
