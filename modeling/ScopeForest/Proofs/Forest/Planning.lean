import ScopeForest.Proofs.Preorder
import ScopeForest.Proofs.Unit.Resolution

namespace ScopeForest

section Placed

variable {done more : List Placement} {d e : DeclId}

theorem placed?_eq_some (h : placed? done d = some e) :
    ∃ p ∈ done, p.source.id = d ∧ p.target.id = e := by
  obtain ⟨p, hp, rfl⟩ := Option.map_eq_some_iff.mp h
  exact ⟨p, List.mem_of_find?_eq_some hp, by simpa using List.find?_some hp, rfl⟩

theorem placed?_append (h : placed? done d = some e) : placed? (done ++ more) d = some e := by
  obtain ⟨p, hp, rfl⟩ := Option.map_eq_some_iff.mp h
  rw [placed?, List.find?_append, hp]
  rfl

end Placed

namespace Forest

variable {f : Forest} {u : ResolvedUnit} {done : List Placement}

theorem targetOf_joined {shared : Option DeclId} {d : DeclId}
    (h : f.targetOf done shared = .joined d) : shared = some d := by
  unfold targetOf at h
  split at h
  next e he =>
    cases h
    exact (Option.filter_eq_some_iff.mp he).1
  next => cases h

theorem targetOf_new {shared : Option DeclId} {d : DeclId} (h : f.targetOf done shared = .new d) :
    d = f.newId done := by
  unfold targetOf at h
  split at h
  · cases h
  · cases h
    rfl

theorem keyOf_eq_ok {scope : DeclId} {x : Declaration} {key : Option MergeKey}
    (h : f.keyOf u scope x = .ok key) :
    ∀ k ∈ key, k.parent = scope ∧ k.kind = x.kind ∧ x.isAnonymous = false := by
  unfold keyOf at h
  split at h
  next hc =>
    obtain ⟨name, -, h⟩ := Outcome.bind_eq_ok h
    cases h
    intro k hk
    cases hk
    exact ⟨rfl, rfl, by simpa using (Bool.and_eq_true_iff.mp hc).2⟩
  next =>
    cases h
    nofun

inductive Plans (f : Forest) (u : ResolvedUnit) : List Placement → Prop
  | root {x : Declaration} (hx : u.root.get? u.store.decls = some x) :
      Plans f u [⟨x, none, f.targetOf [] f.root⟩]
  | snoc {done : List Placement} {x : Declaration} {p scope : DeclId} {key : Option MergeKey}
      (h : Plans f u done) (hx : x.id.get? u.store.decls = some x)
      (hfresh : ∀ q ∈ done, q.source.id ≠ x.id) (hp : x.parent = some p)
      (hscope : placed? done p = some scope) (hkey : f.keyOf u scope x = .ok key) :
      Plans f u (done ++ [⟨x, key, f.targetOf done (key.bind f.keyed?)⟩])

theorem Plans.get?_source (hu : u.Sound) (h : f.Plans u done) :
    ∀ p ∈ done, p.source.id.get? u.store.decls = some p.source := by
  induction h with
  | root hx =>
    intro p hp
    rw [List.mem_singleton.mp hp]
    have hid := hu.tree.dense hx
    exact hid.symm ▸ hx
  | snoc _ hx _ _ _ _ ih =>
    intro p hp
    rcases List.mem_append.mp hp with hp | hp
    · exact ih p hp
    · rw [List.mem_singleton.mp hp]
      exact hx

theorem Plans.placed?_source (h : f.Plans u done) :
    ∀ p ∈ done, placed? done p.source.id = some p.target.id := by
  induction h with
  | root hx =>
    intro p hp
    rw [List.mem_singleton.mp hp]
    simp [placed?]
  | @snoc done x _ _ _ _ hx hfresh _ _ _ ih =>
    intro p hp
    rcases List.mem_append.mp hp with hp | hp
    · exact placed?_append (ih p hp)
    · rw [List.mem_singleton.mp hp]
      have hnone : done.find? (·.source.id == x.id) = none :=
        List.find?_eq_none.mpr fun q hq ↦ by simpa using hfresh q hq
      simp [placed?, List.find?_append, hnone]

theorem plans_foldlM {xs : List Declaration} {plan : List Placement} (h : f.Plans u done)
    (hsource : ∀ x ∈ xs, x.id.get? u.store.decls = some x) (hnodup : (xs.map (·.id)).Nodup)
    (hfresh : ∀ x ∈ xs, ∀ q ∈ done, q.source.id ≠ x.id) (hparent : ∀ x ∈ xs, x.parent ≠ none)
    (hok : xs.foldlM (f.placeNext u) done = .ok plan) : f.Plans u plan := by
  induction xs generalizing done with
  | nil =>
    cases hok
    exact h
  | cons x xs ih =>
    rw [List.foldlM_cons] at hok
    obtain ⟨next, hnext, hok⟩ := Outcome.bind_eq_ok hok
    rw [List.map_cons, List.nodup_cons] at hnodup
    have hrest := fun y hy ↦ hsource y (List.mem_cons_of_mem x hy)
    have hparents := fun y hy ↦ hparent y (List.mem_cons_of_mem x hy)
    have hold := fun y hy ↦ hfresh y (List.mem_cons_of_mem x hy)
    unfold placeNext at hnext
    split at hnext
    next hnone => exact absurd hnone (hparent x List.mem_cons_self)
    next p hp =>
      split at hnext
      next =>
        cases hnext
        exact ih h hrest hnodup.2 hold hparents hok
      next scope hscope =>
        obtain ⟨key, hkey, hnext⟩ := Outcome.bind_eq_ok hnext
        cases hnext
        have hx := hsource x List.mem_cons_self
        refine ih (h.snoc hx (hfresh x List.mem_cons_self) hp hscope hkey) hrest hnodup.2 ?_
          hparents hok
        intro y hy q hq
        rcases List.mem_append.mp hq with hq | hq
        · exact hold y hy q hq
        · rw [List.mem_singleton.mp hq]
          exact fun he ↦ hnodup.1 (he ▸ List.mem_map_of_mem hy)

theorem order_eq (hu : u.Sound) : ∃ x xs,
    (u.store.preorder u.root).filterMap (·.get? u.store.decls) = x :: xs ∧
      u.root.get? u.store.decls = some x ∧ x.parent = none ∧
      (∀ y ∈ x :: xs, y.id.get? u.store.decls = some y) ∧ ((x :: xs).map (·.id)).Nodup ∧
      ∀ y ∈ xs, y.parent ≠ none := by
  obtain ⟨x, hx, hp, -⟩ := hu.tree.root_held rfl
  obtain ⟨rank, hrank, -⟩ := Store.exists_ranks_of_climb hu.climbs
  have hnodup := Store.nodup_preorder hu.tree hrank hx
  obtain ⟨ds, hds⟩ : ∃ ds, u.store.preorder u.root = u.root :: ds :=
    ⟨_, Store.preorder_eq hu.tree hrank hx⟩
  have hsource : ∀ y ∈ (u.store.preorder u.root).filterMap (·.get? u.store.decls),
      y.id.get? u.store.decls = some y := by
    intro y hy
    obtain ⟨d, -, hd⟩ := List.mem_filterMap.mp hy
    exact (hu.tree.dense hd).symm ▸ hd
  have hids : (((u.store.preorder u.root).filterMap (·.get? u.store.decls)).map (·.id)).Nodup := by
    rw [List.map_filterMap]
    refine hnodup.filterMap fun a b i ha hb ↦ ?_
    obtain ⟨y, hy, rfl⟩ := Option.map_eq_some_iff.mp ha
    obtain ⟨z, hz, hzi⟩ := Option.map_eq_some_iff.mp hb
    rw [← hu.tree.dense hy, ← hu.tree.dense hz, hzi]
  have hcons : (u.root :: ds).filterMap (·.get? u.store.decls) =
      x :: ds.filterMap (·.get? u.store.decls) :=
    List.filterMap_cons_some hx
  rw [hds, hcons] at hsource hids ⊢
  refine ⟨x, _, rfl, hx, hp, hsource, hids, fun y hy hnone ↦ ?_⟩
  have hroot := hu.tree.orphan (hsource y (List.mem_cons_of_mem x hy)) hnone
  rw [List.map_cons, List.nodup_cons, hu.tree.dense hx, Option.some_inj.mp hroot] at hids
  exact hids.1 (List.mem_map_of_mem hy)

theorem plan_eq_ok (hu : u.Sound) {plan : List Placement} (h : f.plan u = .ok plan) :
    f.Plans u plan ∧ ∀ {d : DeclId} {x : Declaration}, d.get? u.store.decls = some x →
      ∃ e, placed? plan d = some e := by
  obtain ⟨placements, hfold, h⟩ := Outcome.bind_eq_ok h
  split at h
  next hall =>
    cases h
    constructor
    · obtain ⟨x, xs, horder, hx, hp, hsource, hnodup, hparents⟩ := order_eq hu
      rw [horder, List.foldlM_cons] at hfold
      obtain ⟨first, hfirst, hfold⟩ := Outcome.bind_eq_ok hfold
      rw [placeNext, hp] at hfirst
      cases hfirst
      rw [List.map_cons, List.nodup_cons] at hnodup
      refine plans_foldlM (.root hx) (fun y hy ↦ hsource y (List.mem_cons_of_mem x hy)) hnodup.2 ?_
        hparents hfold
      intro y hy q hq
      rw [List.mem_singleton.mp hq]
      exact fun he ↦ hnodup.1 (he ▸ List.mem_map_of_mem hy)
    · intro d x hd
      have hsome := List.find?_eq_none.mp hall x (Id.mem_of_get? hd)
      rw [hu.tree.dense hd] at hsome
      exact Option.ne_none_iff_exists'.mp (by simpa using hsome)
  next => cases h

end Forest

end ScopeForest
