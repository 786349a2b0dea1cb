import ScopeForest.Proofs.Forest.Keys

namespace ScopeForest

namespace Forest

variable {f g : Forest} {u : ResolvedUnit} {r : Renaming} {done plan : List Placement}
  {p : Placement} {key : MergeKey} {d : DeclId} {registry : Registry} {summary : MergeSummary}

theorem decl_planRenaming {e : DeclId} (h : placed? plan d = some e) :
    (f.planRenaming u plan).decl d = e :=
  decl_renamingOf h

theorem Plans.merging_carryOut (hf : f.Sound) (hu : u.Sound) (h : f.Plans u done)
    (hinit : done <+: plan) : f.Merging (f.planRenaming u plan) done
      (done.foldl (applyPlacement (f.planRenaming u plan)) (f.typed u plan)) :=
  h.merging hf hu rfl rfl rfl decl_planRenaming hinit

theorem types_carryOut : (f.carryOut u plan registry).store.types =
    f.store.types ++ u.store.types.map (f.planRenaming u plan).ty :=
  (foldl_applyPlacement_frame _ plan (f.typed u plan)).1

section Keys

theorem keyed?_addKey (e : DeclId) (other : MergeKey) : (g.addKey key e).keyed? other =
    (g.keyed? other <|> if key = other then some e else none) := by
  unfold addKey
  split
  next hbound =>
    obtain ⟨d, hd⟩ := Option.isSome_iff_exists.mp hbound
    by_cases hk : key = other
    · subst hk
      simp [hd]
    · simp [hk]
  next hfree =>
    have hnone : g.keyed? key = none := by simpa using hfree
    unfold keyed? at hnone ⊢
    rw [List.lookup_append]
    by_cases hk : key = other
    · subst hk
      simp [hnone]
    · have hne : (other == key) = false := beq_eq_false_iff_ne.mpr fun heq ↦ hk heq.symm
      simp [List.lookup_cons, hne, hk]

theorem keys_addNode (y : Declaration) : (g.addNode y).keys = g.keys := by
  unfold addNode
  split <;> rfl

theorem keyed?_applyPlacement : (applyPlacement r g p).keyed? key =
    (g.keyed? key <|>
      if p.key = some key ∧ p.target.isNew = true then some p.target.id else none) := by
  cases ht : p.target with
  | joined d =>
    rw [applyPlacement, ht]
    simp [setDecls, keyed?, Target.isNew]
  | new d =>
    rw [applyPlacement, ht]
    have hnode : (g.addNode (r.declaration d p.source)).keyed? key = g.keyed? key := by
      rw [keyed?, keys_addNode]
      rfl
    cases hk : p.key with
    | none => simp [hnode]
    | some other => simp [keyed?_addKey, hnode, Target.isNew, Target.id]

def binder? (plan : List Placement) (key : MergeKey) : Option Placement :=
  plan.find? fun p ↦ p.key = some key ∧ p.target.isNew = true

theorem keyed?_foldl : (plan.foldl (applyPlacement r) g).keyed? key =
    (g.keyed? key <|> (binder? plan key).map (·.target.id)) := by
  induction plan generalizing g with
  | nil => simp [binder?]
  | cons p plan ih =>
    rw [List.foldl_cons, ih, keyed?_applyPlacement]
    by_cases hp : p.key = some key ∧ p.target.isNew = true
    · have hbinder : binder? (p :: plan) key = some p := List.find?_cons_of_pos (by simpa using hp)
      rw [if_pos hp, hbinder]
      cases g.keyed? key <;> rfl
    · have hbinder : binder? (p :: plan) key = binder? plan key :=
        List.find?_cons_of_neg (by simpa using hp)
      rw [if_neg hp, hbinder]
      cases g.keyed? key <;> rfl

theorem keyed?_carryOut : (f.carryOut u plan registry).keyed? key =
    (f.keyed? key <|> (binder? plan key).map (·.target.id)) :=
  keyed?_foldl

theorem binder?_of_carriers {first : Placement} {rest : List Placement}
    (hc : carriers plan key = first :: rest) (hnew : first.target.isNew = true) :
    binder? plan key = some first := by
  have hfind : binder? plan key = (carriers plan key).find? (·.target.isNew) := by
    rw [carriers, List.find?_filter]
    simp [binder?]
  rw [hfind, hc, List.find?_cons, hnew]

theorem keyedOnce_empty (settings : BuilderSettings) : Forest.KeyedOnce { settings } :=
  ⟨List.nodup_nil, List.nodup_nil⟩

theorem KeyedOnce.addKey (hg : g.KeyedOnce) {e : DeclId} (he : ∀ k, (k, e) ∉ g.keys) :
    (g.addKey key e).KeyedOnce := by
  unfold Forest.addKey
  split
  next => exact hg
  next hfree =>
    have hnone : g.keyed? key = none := by simpa using hfree
    constructor
    · rw [List.map_append, List.nodup_append]
      refine ⟨hg.keys, List.nodup_singleton _, ?_⟩
      intro a ha b hb hab
      obtain ⟨⟨k, d⟩, hd, rfl⟩ := List.mem_map.mp ha
      rw [List.map_singleton, List.mem_singleton] at hb
      have hk : k = key := hab.trans hb
      rw [hk, ← keyed?_eq_some hg, hnone] at hd
      cases hd
    · rw [List.map_append, List.nodup_append]
      refine ⟨hg.nodes, List.nodup_singleton _, ?_⟩
      intro a ha b hb hab
      obtain ⟨⟨k, d⟩, hd, rfl⟩ := List.mem_map.mp ha
      rw [List.map_singleton, List.mem_singleton] at hb
      have hde : d = e := hab.trans hb
      exact he k (hde ▸ hd)

theorem KeyedOnce.of_keys (hg : g.KeyedOnce) (h : f.keys = g.keys) : f.KeyedOnce :=
  ⟨h ▸ hg.keys, h ▸ hg.nodes⟩

theorem KeyedOnce.applyPlacement (hs : g.Sound) (hg : g.KeyedOnce)
    (hnew : ∀ d, p.target = .new d → g.store.decls.length < d.val) :
    (Forest.applyPlacement r g p).KeyedOnce := by
  cases ht : p.target with
  | joined d =>
    rw [Forest.applyPlacement, ht]
    exact hg.of_keys rfl
  | new d =>
    rw [Forest.applyPlacement, ht]
    have hnode := hg.of_keys (keys_addNode (r.declaration d p.source))
    cases hk : p.key with
    | none => exact hnode
    | some key =>
      refine hnode.addKey fun k hmem ↦ ?_
      rw [keys_addNode] at hmem
      obtain ⟨x, hx, -⟩ := hs.keyed hmem
      have hle := (Id.val_pos_of_get? hx).2
      have hlt := hnew d ht
      omega

theorem Plans.keyedOnce (hf : f.Sound) (hkeys : f.KeyedOnce) (hu : u.Sound) (h : f.Plans u done)
    (hinit : done <+: plan) :
    (done.foldl (Forest.applyPlacement (f.planRenaming u plan)) (f.typed u plan)).KeyedOnce := by
  induction h with
  | root hx =>
    have hstart : f.Merging (f.planRenaming u plan) [] (f.typed u plan) :=
      .start hf rfl rfl rfl
    refine (hkeys.of_keys (f := f.typed u plan) rfl).applyPlacement hstart.sound fun d hd ↦ ?_
    exact (Plans.target_new (.root hx) List.mem_cons_self hd).1
  | @snoc done x _ _ key h hx hfresh hp hscope hkey ih =>
    have hbefore := (List.prefix_append _ _).trans hinit
    have hmerging := h.merging_carryOut hf hu hbefore
    rw [List.foldl_append]
    refine (ih hbefore).applyPlacement hmerging.sound fun d hd ↦ ?_
    rw [hmerging.length, targetOf_new hd, newId_val]
    exact Nat.lt_succ_self _

theorem KeyedOnce.merge (hf : f.Sound) (hkeys : f.KeyedOnce) (hu : u.Sound)
    (h : f.merge u = .ok (g, summary)) : g.KeyedOnce := by
  obtain ⟨-, plan, registry, hplan, -, rfl, -⟩ := merge_eq_ok_iff.mp h
  exact ((plan_eq_ok hu hplan).1.keyedOnce hf hkeys hu List.prefix_rfl).of_keys rfl

theorem keys_reopen (f : Forest) : f.freeze.reopen.keys = f.keys := by
  cases h : f.root with
  | some d => simp [freeze, Graph.reopen, rooted_of_root h]
  | none => simp [freeze, Graph.reopen, rooted_of_none h, keys_addNode]

end Keys

section Sources

theorem foldlM_placeNext_sublist {xs : List Declaration}
    (h : xs.foldlM (f.placeNext u) done = .ok plan) :
    ∃ kept, kept.Sublist xs ∧ plan.map (·.source) = done.map (·.source) ++ kept := by
  induction xs generalizing done with
  | nil =>
    cases h
    exact ⟨[], .slnil, (List.append_nil _).symm⟩
  | cons x xs ih =>
    rw [List.foldlM_cons] at h
    obtain ⟨next, hnext, h⟩ := Outcome.bind_eq_ok h
    obtain ⟨kept, hkept, hmap⟩ := ih h
    have hcases : next = done ∨ next.map (·.source) = done.map (·.source) ++ [x] := by
      unfold placeNext at hnext
      split at hnext
      next =>
        cases hnext
        exact .inr (by simp)
      next =>
        split at hnext
        next =>
          cases hnext
          exact .inl rfl
        next =>
          obtain ⟨key, -, hnext⟩ := Outcome.bind_eq_ok hnext
          cases hnext
          exact .inr (by simp)
    rcases hcases with rfl | hnext
    · exact ⟨kept, hkept.cons x, hmap⟩
    · refine ⟨x :: kept, hkept.cons_cons x, ?_⟩
      rw [hmap, hnext, List.append_assoc]
      rfl

theorem sources_plan (hu : u.Sound) (h : f.plan u = .ok plan) :
    plan.map (·.source) = (u.store.preorder u.root).filterMap (·.get? u.store.decls) := by
  obtain ⟨hplans, hall⟩ := plan_eq_ok hu h
  obtain ⟨placements, hfold, h⟩ := Outcome.bind_eq_ok h
  split at h
  next =>
    cases h
    obtain ⟨kept, hkept, hmap⟩ := foldlM_placeNext_sublist hfold
    rw [List.map_nil, List.nil_append] at hmap
    rw [hmap]
    obtain ⟨x, xs, horder, -, -, hsource, hnodup, -⟩ := order_eq hu
    rw [horder] at hkept ⊢
    have hsubset : x :: xs ⊆ kept := by
      intro y hy
      obtain ⟨e, he⟩ := hall (hsource y hy)
      obtain ⟨q, hq, hid, -⟩ := placed?_eq_some he
      have hqy := hplans.get?_source hu q hq
      rw [hid, hsource y hy] at hqy
      cases hqy
      rw [← hmap]
      exact List.mem_map_of_mem hq
    have hle := (List.subperm_of_subset (List.Nodup.of_map _ hnodup) hsubset).length_le
    exact hkept.eq_of_length_le hle
  next => cases h

theorem exists_placement (hu : u.Sound) (h : f.plan u = .ok plan) {x : Declaration}
    (hd : d.get? u.store.decls = some x) : ∃ p ∈ plan, p.source = x := by
  obtain ⟨hplans, hall⟩ := plan_eq_ok hu h
  obtain ⟨e, he⟩ := hall hd
  obtain ⟨p, hp, hid, -⟩ := placed?_eq_some he
  refine ⟨p, hp, ?_⟩
  have hsource := hplans.get?_source hu p hp
  rw [hid, hd] at hsource
  exact (Option.some_inj.mp hsource).symm

theorem ids_plan (hu : u.Sound) (h : f.plan u = .ok plan) :
    plan.map (·.source.id) = u.store.preorder u.root := by
  obtain ⟨rank, hrank, -⟩ := Store.exists_ranks_of_climb hu.climbs
  have hheld : ∀ d ∈ u.store.preorder u.root, ∃ x, d.get? u.store.decls = some x := by
    intro d hd
    exact Id.exists_get?_of_mem_all ((Store.preorder_perm_all hu.tree hrank).mem_iff.mp hd)
  have hmap : plan.map (·.source.id) = (plan.map (·.source)).map (·.id) := by simp
  rw [hmap, sources_plan hu h, List.map_filterMap]
  generalize u.store.preorder u.root = order at hheld
  induction order with
  | nil => rfl
  | cons d order ih =>
    obtain ⟨x, hx⟩ := hheld d List.mem_cons_self
    have hid : (d.get? u.store.decls).map (·.id) = some d := by
      rw [hx, Option.map_some, hu.tree.dense hx]
    have hrest := ih fun e he ↦ hheld e (List.mem_cons_of_mem d he)
    rw [List.filterMap_cons, hid]
    exact congrArg (d :: ·) hrest

theorem nodup_sources (hu : u.Sound) (h : f.plan u = .ok plan) :
    (plan.map (·.source.id)).Nodup := by
  obtain ⟨rank, hrank, -⟩ := Store.exists_ranks_of_climb hu.climbs
  obtain ⟨x, hx, -⟩ := hu.tree.root_held rfl
  rw [ids_plan hu h]
  exact Store.nodup_preorder hu.tree hrank hx

theorem length_plan (hu : u.Sound) (h : f.plan u = .ok plan) :
    plan.length = u.store.decls.length := by
  obtain ⟨rank, hrank, -⟩ := Store.exists_ranks_of_climb hu.climbs
  have hperm := Store.preorder_perm_all hu.tree hrank
  rw [← ids_plan hu h] at hperm
  simpa using hperm.length_eq

end Sources

end Forest

theorem Run.keyedOnce {units : List (List Record)} {lone : Bool} {f : Forest}
    (h : Run units lone f) : f.KeyedOnce := by
  have hboth : f.Sound ∧ f.KeyedOnce := by
    refine Run.invariant (P := fun _ _ f ↦ f.Sound ∧ f.KeyedOnce) ?_ ?_ ?_ h
    · exact fun settings ↦ ⟨Forest.sound_empty settings, Forest.keyedOnce_empty settings⟩
    · rintro units lone f g settings unit records u summary ⟨hs, hf⟩ hbuild hok
      obtain ⟨hu, -, -⟩ := buildUnit_eq_ok hbuild
      obtain ⟨r, hm⟩ := Forest.merge_eq_ok hs hu hok
      exact ⟨hm.sound, hf.merge hs hu hok⟩
    · rintro units lone f ⟨hs, hf⟩
      exact ⟨hs.reopen.1, hf.of_keys (Forest.keys_reopen f)⟩
  exact hboth.2

end ScopeForest
