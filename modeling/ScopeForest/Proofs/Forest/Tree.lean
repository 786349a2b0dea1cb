import ScopeForest.Proofs.Forest.Run

namespace ScopeForest

/-- The declarations of a forest are numbered by their places and form one tree, in which scopes
come before their members. -/
structure Forest.IsTree (f : Forest) : Prop where
  id_eq : ∀ {i : Nat} {x : Declaration}, f.store.decls[i]? = some x → x.id.val = i + 1
  empty : f.root = none → f.store.decls = []
  root_mem : ∀ {root : DeclId}, f.root = some root → ∃ x ∈ f.store.decls, x.id = root
  /-- Only the root has no parent. -/
  parent_eq_none : ∀ {root : DeclId} {x : Declaration}, f.root = some root → x ∈ f.store.decls →
    (x.parent = none ↔ x.id = root)
  /-- All others have a scope before them that lists them once, and no other lists them. -/
  owned : ∀ {x : Declaration}, x ∈ f.store.decls → f.root ≠ some x.id →
    ∃ p ∈ f.store.decls, x.parent = some p.id ∧
      p.kind ∈ [.namespaceDecl, .classDecl, .unionDecl, .enumDecl] ∧ p.id.val < x.id.val ∧
      p.members.count x.id = 1 ∧ ∀ q ∈ f.store.decls, x.id ∈ q.members → q = p
  increasing : ∀ {x : Declaration}, x ∈ f.store.decls → x.members.Pairwise (·.val < ·.val)
  member_parent : ∀ {x : Declaration} {m : DeclId}, x ∈ f.store.decls → m ∈ x.members →
    ∃ y ∈ f.store.decls, y.id = m ∧ y.parent = some x.id

namespace Forest.Sound

variable {f : Forest} {x : Declaration}

theorem get?_id (hf : f.Sound) (h : x ∈ f.store.decls) : x.id.get? f.store.decls = some x := by
  obtain ⟨d, hd⟩ := Id.exists_get?_of_mem (k := .decl) h
  rwa [hf.tree.dense hd]

theorem root_ne_none (hf : f.Sound) (h : x ∈ f.store.decls) : f.root ≠ none := by
  induction hn : x.id.val using Nat.strong_induction_on generalizing x with
  | _ n ih =>
    have hx := hf.get?_id h
    cases hp : x.parent with
    | none => simp [hf.tree.orphan hx hp]
    | some p =>
      obtain ⟨y, hy, -, -⟩ := hf.tree.parent hx hp
      have hlt : y.id.val < n := by
        rw [hf.tree.dense hy, ← hn]
        exact hf.earlier hx hp
      exact ih y.id.val hlt (Id.mem_of_get? hy) rfl

theorem nodup_members (hf : f.Sound) (h : x ∈ f.store.decls) : x.members.Nodup :=
  (hf.tree.ordered (hf.get?_id h)).imp fun {a b} hlt hab ↦ by
    rw [hab] at hlt
    exact Nat.lt_irrefl _ hlt

theorem owned (hf : f.Sound) (h : x ∈ f.store.decls) (hroot : f.root ≠ some x.id) :
    ∃ p ∈ f.store.decls, x.parent = some p.id ∧
      p.kind ∈ [.namespaceDecl, .classDecl, .unionDecl, .enumDecl] ∧ p.id.val < x.id.val ∧
      p.members.count x.id = 1 ∧ ∀ q ∈ f.store.decls, x.id ∈ q.members → q = p := by
  have hx := hf.get?_id h
  cases hp : x.parent with
  | none => exact absurd (hf.tree.orphan hx hp) hroot
  | some d =>
    obtain ⟨p, hd, hscope, hmem⟩ := hf.tree.parent hx hp
    have hpmem := Id.mem_of_get? hd
    obtain rfl := hf.tree.dense hd
    refine ⟨p, hpmem, rfl, ?_, hf.earlier hx hp, ?_, fun q hq hmem' ↦ ?_⟩
    · revert hscope
      cases p.kind <;> simp [DeclKind.isScope]
    · exact List.count_eq_one_of_mem (hf.nodup_members hpmem) hmem
    · -- a second owner would be a second parent
      obtain ⟨y, hy, hparent⟩ := hf.tree.member (hf.get?_id hq) hmem'
      rw [hx] at hy
      cases hy
      rw [hp] at hparent
      have hq' := hf.get?_id hq
      rw [← Option.some_inj.mp hparent, hd] at hq'
      exact (Option.some_inj.mp hq').symm

end Forest.Sound

/-- Every forest that a run leads to is a tree. -/
theorem Run.isTree {units : List (List Record)} {lone : Bool} {f : Forest}
    (h : Run units lone f) : f.IsTree := by
  have hf := h.sound
  refine ⟨?_, ?_, ?_, ?_, hf.owned, fun hx ↦ hf.tree.ordered (hf.get?_id hx), ?_⟩
  · intro i x hi
    rw [hf.tree.dense (d := Id.ofIndex i) hi, Id.val_ofIndex]
  · intro hroot
    exact List.eq_nil_iff_forall_not_mem.mpr fun x hx ↦ hf.root_ne_none hx hroot
  · intro root hroot
    obtain ⟨x, hx, -, -⟩ := hf.tree.root_held hroot
    exact ⟨x, Id.mem_of_get? hx, hf.tree.dense hx⟩
  · intro root x hroot hx
    have hget := hf.get?_id hx
    constructor
    · intro hp
      exact Option.some_inj.mp ((hf.tree.orphan hget hp).symm.trans hroot)
    · rintro rfl
      obtain ⟨y, hy, hp, -⟩ := hf.tree.root_held hroot
      rw [hget] at hy
      cases hy
      exact hp
  · intro x m hx hm
    obtain ⟨y, hy, hp⟩ := hf.tree.member (hf.get?_id hx) hm
    exact ⟨y, Id.mem_of_get? hy, hf.tree.dense hy, hp⟩

theorem isTree_sample : ∃ f, Run [Sample.header, Sample.source] false f ∧
    f.store.decls.length = 8 ∧ f.IsTree := by
  have h : (·.store.decls.length) <$> Forest.ofUnits {} [Sample.header, Sample.source] =
      .ok 8 := by
    cbv
  obtain ⟨f, hf, hlength⟩ := Outcome.map_eq_ok h
  exact ⟨f, Run.ofUnits hf, hlength, Run.isTree (Run.ofUnits hf)⟩

end ScopeForest
