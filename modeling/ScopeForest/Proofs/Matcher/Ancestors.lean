import ScopeForest.Matcher.Acceptance
import ScopeForest.Proofs.Types.Expansion

namespace ScopeForest.Store

open Outcome Relation

variable {s : Store} {test : DeclId → Outcome Bool} {seen queue : List DeclId} {c d : DeclId}
  {x : Declaration}

def HasBase (s : Store) (d c : DeclId) : Prop :=
  ∃ x, d.get? s.decls = some x ∧ c ∈ x.bases.map (·.cls)

/-- The class `c` is a direct or indirect base of `d`. -/
def Derives (s : Store) : DeclId → DeclId → Prop := TransGen s.HasBase

theorem HasBase.mem (h : s.HasBase d c) (hx : d.get? s.decls = some x) :
    c ∈ x.bases.map (·.cls) := by
  obtain ⟨y, hy, hc⟩ := h
  rw [hx] at hy
  cases hy
  exact hc

theorem Closed.derives (hs : s.Closed) (h : s.Derives d c) : s.HoldsDecl c := by
  obtain ⟨e, -, y, hy, hc⟩ := TransGen.tail'_iff.mp h
  obtain ⟨b, hb, rfl⟩ := List.mem_map.mp hc
  exact hs.base hy hb

/-- What has been tried does not pass, and the bases of it have been tried or wait to be. -/
structure Frontier (s : Store) (test : DeclId → Outcome Bool) (seen queue : List DeclId) :
    Prop where
  failed : ∀ d ∈ seen, test d = .ok false
  bases : ∀ d ∈ seen, ∀ c, s.HasBase d c → c ∈ seen ∨ c ∈ queue

namespace Frontier

theorem nil : s.Frontier test [] queue :=
  ⟨fun _ hd ↦ absurd hd List.not_mem_nil, fun _ hd ↦ absurd hd List.not_mem_nil⟩

theorem reaches (h : s.Frontier test seen queue) (hd : d ∈ seen)
    (hpath : ReflTransGen s.HasBase d c) :
    c ∈ seen ∨ ∃ e ∈ queue, ReflTransGen s.HasBase e c := by
  induction hpath using ReflTransGen.head_induction_on with
  | refl => exact .inl hd
  | @head d e hstep hrest ih =>
    rcases h.bases d hd e hstep with he | he
    · exact ih he
    · exact .inr ⟨e, he, hrest⟩

theorem skip (h : s.Frontier test seen (d :: queue)) (hd : d ∈ seen) :
    s.Frontier test seen queue := by
  refine ⟨h.failed, fun e he c hc ↦ ?_⟩
  rcases h.bases e he c hc with hmem | hmem
  · exact .inl hmem
  · rcases List.mem_cons.mp hmem with rfl | hmem
    · exact .inl hd
    · exact .inr hmem

theorem visit (h : s.Frontier test seen (d :: queue)) (hx : d.get? s.decls = some x)
    (hfalse : test d = .ok false) :
    s.Frontier test (d :: seen) (queue ++ x.bases.map (·.cls)) := by
  refine ⟨List.forall_mem_cons.mpr ⟨hfalse, h.failed⟩, fun e he c hc ↦ ?_⟩
  rcases List.mem_cons.mp he with rfl | he
  · exact .inr (List.mem_append_right _ (hc.mem hx))
  · rcases h.bases e he c hc with hmem | hmem
    · exact .inl (List.mem_cons_of_mem d hmem)
    · rcases List.mem_cons.mp hmem with rfl | hmem
      · exact .inl List.mem_cons_self
      · exact .inr (List.mem_append_left _ hmem)

end Frontier

/-- Something that passes can be reached from the queue. -/
def Awaits (s : Store) (test : DeclId → Outcome Bool) (queue : List DeclId) : Prop :=
  ∃ e ∈ queue, ∃ c, ReflTransGen s.HasBase e c ∧ test c = .ok true

theorem awaits_skip_iff (h : s.Frontier test seen (d :: queue)) (hd : d ∈ seen) :
    s.Awaits test (d :: queue) ↔ s.Awaits test queue := by
  constructor
  · rintro ⟨e, he, c, hpath, hc⟩
    rcases List.mem_cons.mp he with rfl | he
    · rcases (h.skip hd).reaches hd hpath with hmem | ⟨e', he', hpath'⟩
      · rw [h.failed c hmem] at hc
        cases hc
      · exact ⟨e', he', c, hpath', hc⟩
    · exact ⟨e, he, c, hpath, hc⟩
  · rintro ⟨e, he, c, hpath, hc⟩
    exact ⟨e, List.mem_cons_of_mem d he, c, hpath, hc⟩

theorem awaits_visit_iff (hx : d.get? s.decls = some x) (hfalse : test d = .ok false) :
    s.Awaits test (d :: queue) ↔ s.Awaits test (queue ++ x.bases.map (·.cls)) := by
  constructor
  · rintro ⟨e, he, c, hpath, hc⟩
    rcases List.mem_cons.mp he with rfl | he
    · rcases ReflTransGen.cases_head hpath with rfl | ⟨e', hstep, hrest⟩
      · rw [hfalse] at hc
        cases hc
      · exact ⟨e', List.mem_append_right _ (hstep.mem hx), c, hrest, hc⟩
    · exact ⟨e, List.mem_append_left _ he, c, hpath, hc⟩
  · rintro ⟨e, he, c, hpath, hc⟩
    rcases List.mem_append.mp he with he | he
    · exact ⟨e, List.mem_cons_of_mem d he, c, hpath, hc⟩
    · exact ⟨d, List.mem_cons_self, c, .head ⟨x, hx, he⟩ hpath, hc⟩

theorem searchBases_eq_ok (hfrontier : s.Frontier test seen queue)
    (htest : ∀ e ∈ queue, ∀ c, ReflTransGen s.HasBase e c → s.HoldsDecl c ∧ Returns (test c)) :
    ∃ found, s.searchBases test seen queue = .ok found ∧ (found = true ↔ s.Awaits test queue) := by
  fun_induction searchBases s test seen queue with
  | case1 seen => exact ⟨false, rfl, by simp [Awaits]⟩
  | case2 seen d queue hmem ih =>
    rw [awaits_skip_iff hfrontier hmem]
    exact ih (hfrontier.skip hmem) fun e he ↦ htest e (List.mem_cons_of_mem d he)
  | case3 seen d queue hmem e he =>
    obtain ⟨-, found, hfound⟩ := htest d List.mem_cons_self d .refl
    rw [he] at hfound
    cases hfound
  | case4 seen d queue hmem hfound =>
    exact ⟨true, rfl, by simpa using ⟨d, List.mem_cons_self, d, .refl, hfound⟩⟩
  | case5 seen d queue hmem hfound hnone =>
    obtain ⟨⟨x, hx⟩, -⟩ := htest d List.mem_cons_self d .refl
    rw [hnone] at hx
    cases hx
  | case6 seen d queue hmem hfound x hx ih =>
    rw [awaits_visit_iff hx hfound]
    refine ih (hfrontier.visit hx hfound) fun e he c hc ↦ ?_
    rcases List.mem_append.mp he with he | he
    · exact htest e (List.mem_cons_of_mem d he) c hc
    · exact htest d List.mem_cons_self c (.head ⟨x, hx, he⟩ hc)

/-- The search from the bases of a declaration finds whether one of its direct and indirect bases
passes, if the test gives an answer for all of them. -/
theorem searchBases_bases (hx : d.get? s.decls = some x)
    (htest : ∀ c, s.Derives d c → s.HoldsDecl c ∧ Returns (test c)) :
    ∃ found, s.searchBases test [] (x.bases.map (·.cls)) = .ok found ∧
      (found = true ↔ ∃ c, s.Derives d c ∧ test c = .ok true) := by
  have hreach {c : DeclId} : s.Derives d c ↔
      ∃ e ∈ x.bases.map (·.cls), ReflTransGen s.HasBase e c := by
    refine TransGen.head'_iff.trans ⟨?_, ?_⟩
    · rintro ⟨e, hstep, hrest⟩
      exact ⟨e, hstep.mem hx, hrest⟩
    · rintro ⟨e, he, hrest⟩
      exact ⟨e, ⟨x, hx, he⟩, hrest⟩
  obtain ⟨found, hfound, hiff⟩ :=
    searchBases_eq_ok .nil fun e he c hc ↦ htest c (hreach.mpr ⟨e, he, hc⟩)
  refine ⟨found, hfound, hiff.trans ⟨?_, ?_⟩⟩
  · rintro ⟨e, he, c, hpath, hc⟩
    exact ⟨c, hreach.mpr ⟨e, he, hpath⟩, hc⟩
  · rintro ⟨c, hderives, hc⟩
    obtain ⟨e, he, hpath⟩ := hreach.mp hderives
    exact ⟨e, he, c, hpath, hc⟩

end ScopeForest.Store
