import ScopeForest.Proofs.Forest.Run

namespace ScopeForest

/-- What tells the members of a scope apart when units are merged. -/
structure KeyStep where
  kind : DeclKind
  name : String
  signature : Option String
  deriving DecidableEq, Repr

def KeyStep.under (step : KeyStep) (scope : DeclId) : MergeKey :=
  ⟨scope, step.kind, step.name, step.signature⟩

def MergeKey.step (key : MergeKey) : KeyStep := ⟨key.kind, key.name, key.signature⟩

def ResolvedUnit.keyStep (u : ResolvedUnit) (x : Declaration) : Outcome KeyStep := do
  return ⟨x.kind, ← u.keyName x, (x.id.get? u.signatureKeys).join⟩

def carriers (plan : List Placement) (key : MergeKey) : List Placement :=
  plan.filter (·.key = some key)

namespace Forest

variable {f g : Forest} {u : ResolvedUnit} {r : Renaming} {done plan : List Placement}
  {p : Placement} {key : MergeKey} {d : DeclId}

/-- No key is bound twice, and no node is bound to two keys. -/
structure KeyedOnce (f : Forest) : Prop where
  keys : (f.keys.map (·.1)).Nodup
  nodes : (f.keys.map (·.2)).Nodup

theorem keyed?_eq_some (hf : f.KeyedOnce) : f.keyed? key = some d ↔ (key, d) ∈ f.keys := by
  refine ⟨mem_keys_of_keyed?, fun h ↦ ?_⟩
  have hnodup := hf.keys
  unfold keyed?
  clear hf
  generalize f.keys = entries at h hnodup
  induction entries with
  | nil => cases h
  | cons entry entries ih =>
    rw [List.map_cons, List.nodup_cons] at hnodup
    rcases List.mem_cons.mp h with rfl | h
    · exact List.lookup_cons_self
    · have hne : key ≠ entry.1 := by
        intro heq
        exact hnodup.1 (List.mem_map.mpr ⟨_, h, heq⟩)
      rw [List.lookup_cons, beq_eq_false_iff_ne.mpr hne]
      exact ih h hnodup.2

theorem KeyedOnce.key_unique (hf : f.KeyedOnce) {other : MergeKey} (h : (key, d) ∈ f.keys)
    (h' : (other, d) ∈ f.keys) : key = other := by
  have heq := List.inj_on_of_nodup_map hf.nodes h h' rfl
  exact congrArg Prod.fst heq

theorem keyOf_of_join (hjoin : f.settings.joinDeclarations = true) {scope : DeclId}
    {x : Declaration} {key : Option MergeKey} (h : f.keyOf u scope x = .ok key) :
    if x.isAnonymous then key = none
    else ∃ step, u.keyStep x = .ok step ∧ key = some (step.under scope) := by
  unfold keyOf at h
  rw [hjoin] at h
  split at h
  next hc =>
    have hnamed : x.isAnonymous = false := by simpa using hc
    obtain ⟨name, hname, h⟩ := Outcome.bind_eq_ok h
    cases h
    rw [hnamed]
    refine ⟨⟨x.kind, name, (x.id.get? u.signatureKeys).join⟩, ?_, rfl⟩
    rw [ResolvedUnit.keyStep, hname]
    rfl
  next hc =>
    have hanonymous : x.isAnonymous = true := by simpa using hc
    cases h
    rw [hanonymous]
    rfl

section Targets

theorem newId_val : (f.newId done).val = f.store.decls.length + done.countP (·.target.isNew) + 1 :=
  rfl

/-- The new nodes get the ids that a counter hands out which goes on after the nodes of the
forest. -/
theorem Plans.newIds (h : f.Plans u plan) : (plan.filter (·.target.isNew)).map (·.target.id) =
    (IdCounter.after f.store.decls.length).takeMany (plan.countP (·.target.isNew)) := by
  have hsnoc (done : List Placement) {x : Declaration} {key : Option MergeKey}
      (shared : Option DeclId) (hdone : (done.filter (·.target.isNew)).map (·.target.id) =
        (IdCounter.after f.store.decls.length).takeMany (done.countP (·.target.isNew))) :
      let plan := done ++ [⟨x, key, f.targetOf done shared⟩]
      (plan.filter (·.target.isNew)).map (·.target.id) =
        (IdCounter.after f.store.decls.length).takeMany (plan.countP (·.target.isNew)) := by
    dsimp only
    rw [List.filter_append, List.map_append, List.countP_append, hdone]
    cases ht : f.targetOf done shared with
    | new d =>
      rw [targetOf_new ht]
      exact (IdCounter.takeMany_after_succ ..).symm
    | joined d => exact List.append_nil _
  induction h with
  | root hx => exact hsnoc [] f.root rfl
  | @snoc done _ _ _ key _ _ _ _ _ _ ih => exact hsnoc done (key.bind f.keyed?) ih

theorem Plans.joined (h : f.Plans u plan) (hp : p ∈ plan) (ht : p.target = .joined d) :
    p.key = none ∧ f.root = some d ∨ ∃ key, p.key = some key ∧ f.keyed? key = some d := by
  induction h with
  | root hx =>
    rw [List.mem_singleton.mp hp] at ht ⊢
    exact .inl ⟨rfl, targetOf_joined ht⟩
  | snoc _ _ _ _ _ _ ih =>
    rcases List.mem_append.mp hp with hp | hp
    · exact ih hp
    · rw [List.mem_singleton.mp hp] at ht ⊢
      exact .inr (Option.bind_eq_some_iff.mp (targetOf_joined ht))

theorem Plans.get?_joined (hf : f.Sound) (h : f.Plans u plan) (hp : p ∈ plan)
    (ht : p.target = .joined d) : ∃ y, d.get? f.store.decls = some y := by
  rcases h.joined hp ht with ⟨-, hroot⟩ | ⟨key, -, hkey⟩
  · obtain ⟨y, hy, -⟩ := hf.tree.root_held hroot
    exact ⟨y, hy⟩
  · obtain ⟨y, hy, -⟩ := hf.keyed (mem_keys_of_keyed? hkey)
    exact ⟨y, hy⟩

theorem Plans.target_new (h : f.Plans u plan) (hp : p ∈ plan) (ht : p.target = .new d) :
    f.store.decls.length < d.val ∧
      d.val ≤ f.store.decls.length + plan.countP (·.target.isNew) := by
  rw [← IdCounter.mem_takeMany_after, ← h.newIds]
  exact List.mem_map.mpr ⟨p, List.mem_filter.mpr ⟨hp, by rw [ht]; rfl⟩, by rw [ht]; rfl⟩

theorem Plans.isNew_iff (hf : f.Sound) (h : f.Plans u plan) (hp : p ∈ plan) :
    p.target.isNew = true ↔ f.store.decls.length < p.target.id.val := by
  cases ht : p.target with
  | new d => simpa [Target.isNew, Target.id] using (h.target_new hp ht).1
  | joined d =>
    obtain ⟨y, hy⟩ := h.get?_joined hf hp ht
    have hle := (Id.val_pos_of_get? hy).2
    simpa [Target.isNew, Target.id] using hle

theorem Plans.target_le (hf : f.Sound) (h : f.Plans u plan) (hp : p ∈ plan) :
    p.target.id.val ≤ f.store.decls.length + plan.countP (·.target.isNew) := by
  cases ht : p.target with
  | new d => exact (h.target_new hp ht).2
  | joined d =>
    obtain ⟨y, hy⟩ := h.get?_joined hf hp ht
    exact Nat.le_add_right_of_le (Id.val_pos_of_get? hy).2

theorem targetOf_joined_fresh {shared : Option DeclId} (h : f.targetOf done shared = .joined d) :
    ∀ q ∈ done, q.target ≠ .joined d := by
  unfold targetOf at h
  split at h
  next e he =>
    cases h
    have hfree := (Option.filter_eq_some_iff.mp he).2
    simpa using hfree
  next => cases h

theorem Plans.nodup_targets (hf : f.Sound) (h : f.Plans u plan) :
    (plan.map (·.target.id)).Nodup := by
  induction h with
  | root hx => exact List.nodup_singleton _
  | @snoc done x _ _ key h _ _ _ _ _ ih =>
    rw [List.map_append, List.nodup_append]
    refine ⟨ih, List.nodup_singleton _, ?_⟩
    intro a ha b hb
    obtain ⟨q, hq, rfl⟩ := List.mem_map.mp ha
    rw [List.map_singleton, List.mem_singleton] at hb
    subst hb
    cases ht : f.targetOf done (key.bind f.keyed?) with
    | new d =>
      -- the id of the new node is larger than all that went before
      have hle := h.target_le hf hq
      have hval : (f.newId done).val = _ := newId_val
      rw [← targetOf_new ht] at hval
      rintro rfl
      simp only [Target.id] at hle hval
      omega
    | joined d =>
      obtain ⟨k, -, hk⟩ := Option.bind_eq_some_iff.mp (targetOf_joined ht)
      obtain ⟨y, hy, -⟩ := hf.keyed (mem_keys_of_keyed? hk)
      have hheld := (Id.val_pos_of_get? hy).2
      intro heq
      cases hqt : q.target with
      | new e =>
        have hlt := (h.target_new hq hqt).1
        rw [hqt] at heq
        cases heq
        omega
      | joined e =>
        rw [hqt] at heq
        cases heq
        exact targetOf_joined_fresh ht q hq hqt

end Targets

section Carriers

theorem mem_carriers : p ∈ carriers plan key ↔ p ∈ plan ∧ p.key = some key := by
  simp [carriers]

theorem carriers_append (done more : List Placement) (key : MergeKey) :
    carriers (done ++ more) key = carriers done key ++ carriers more key :=
  List.filter_append _ _

theorem Plans.carriers_new (h : f.Plans u plan) (hkey : f.keyed? key = none) :
    ∀ p ∈ carriers plan key, p.target.isNew = true := by
  intro p hp
  obtain ⟨hmem, hpk⟩ := mem_carriers.mp hp
  cases ht : p.target with
  | new d => rfl
  | joined d =>
    exfalso
    rcases h.joined hmem ht with ⟨hnone, -⟩ | ⟨k, hk, hd⟩
    · rw [hpk] at hnone
      cases hnone
    · rw [hpk] at hk
      cases hk
      rw [hkey] at hd
      cases hd

theorem targetOf_claimed {shared : Option DeclId} (hshared : ∀ e ∈ shared, e = d)
    (h : ∃ q ∈ done, q.target = .joined d) : (f.targetOf done shared).isNew = true := by
  cases ht : f.targetOf done shared with
  | new e => rfl
  | joined e =>
    exfalso
    obtain ⟨q, hq, hqd⟩ := h
    have he := hshared e (targetOf_joined ht)
    subst he
    exact targetOf_joined_fresh ht q hq hqd

theorem targetOf_unclaimed (h : ∀ q ∈ done, q.target ≠ .joined d) :
    f.targetOf done (some d) = .joined d := by
  have hfree : (done.any fun q ↦ q.target == .joined d) = false := by
    simpa using h
  simp [targetOf, Option.filter, hfree]

/-- Of the declarations whose key is bound the first one joins the node, and the others become new
nodes. -/
theorem Plans.carriers_joined (hf : f.Sound) (hkeys : f.KeyedOnce) (h : f.Plans u plan)
    (hkey : f.keyed? key = some d) {first : Placement} {rest : List Placement}
    (hc : carriers plan key = first :: rest) :
    first.target = .joined d ∧ ∀ p ∈ rest, p.target.isNew = true := by
  induction h generalizing first rest with
  | root hx => simp [carriers] at hc
  | @snoc done x _ scope k h _ _ _ _ _ ih =>
    rw [carriers_append] at hc
    by_cases hk : k = some key
    · subst hk
      have hlast : carriers [⟨x, some key, f.targetOf done ((some key).bind f.keyed?)⟩] key =
          [⟨x, some key, f.targetOf done (some d)⟩] := by
        simp [carriers, hkey]
      rw [hlast] at hc
      cases hold : carriers done key with
      | nil =>
        rw [hold, List.nil_append] at hc
        cases hc
        refine ⟨targetOf_unclaimed fun q hq hqd ↦ ?_, fun p hp ↦ by cases hp⟩
        -- who joined the node has its key, and the node is not the root
        rcases h.joined hq hqd with ⟨-, hroot⟩ | ⟨l, hl, hld⟩
        · obtain ⟨y, hy, hyp, -⟩ := hf.keyed (mem_keys_of_keyed? hkey)
          obtain ⟨z, hz, hzp, -⟩ := hf.tree.root_held hroot
          rw [hy] at hz
          cases hz
          rw [hyp] at hzp
          cases hzp
        · have hlk : l = key :=
            hkeys.key_unique (mem_keys_of_keyed? hld) (mem_keys_of_keyed? hkey)
          have hmem : q ∈ carriers done key := mem_carriers.mpr ⟨hq, hlk ▸ hl⟩
          rw [hold] at hmem
          cases hmem
      | cons first' rest' =>
        rw [hold, List.cons_append] at hc
        cases hc
        obtain ⟨hfirst, hrest⟩ := ih hold
        refine ⟨hfirst, fun p hp ↦ ?_⟩
        rcases List.mem_append.mp hp with hp | hp
        · exact hrest p hp
        · rw [List.mem_singleton.mp hp]
          have hmem : first ∈ done := (mem_carriers.mp (hold ▸ List.mem_cons_self)).1
          exact targetOf_claimed (by simp) ⟨first, hmem, hfirst⟩
    · have hlast : carriers [⟨x, k, f.targetOf done (k.bind f.keyed?)⟩] key = [] := by
        simp [carriers, hk]
      rw [hlast, List.append_nil] at hc
      exact ih hc

end Carriers

end Forest

end ScopeForest
