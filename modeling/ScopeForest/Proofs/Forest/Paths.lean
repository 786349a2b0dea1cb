import ScopeForest.Proofs.Forest.Idempotence

namespace ScopeForest

/-- The path of a declaration in its unit. -/
inductive ResolvedUnit.HasPath (u : ResolvedUnit) : DeclId → List KeyStep → Prop
  | root : HasPath u u.root []
  | member {d scope : DeclId} {x : Declaration} {step : KeyStep} {path : List KeyStep}
      (hx : d.get? u.store.decls = some x) (hparent : x.parent = some scope)
      (hstep : u.keyStep x = .ok step) (h : HasPath u scope path) : HasPath u d (path ++ [step])

/-- The path of a node, read off the keys of the nodes that lead to it. -/
inductive Forest.HasPath (f : Forest) : DeclId → List KeyStep → Prop
  | root {d : DeclId} (h : f.root = some d) : HasPath f d []
  | node {key : MergeKey} {d : DeclId} {path : List KeyStep} (hkey : (key, d) ∈ f.keys)
      (h : HasPath f key.parent path) : HasPath f d (path ++ [key.step])

namespace ResolvedUnit

variable {u : ResolvedUnit} {d e : DeclId} {path path' : List KeyStep}

def DistinctPaths (u : ResolvedUnit) : Prop :=
  ∀ ⦃d e : DeclId⦄ ⦃path : List KeyStep⦄, u.HasPath d path → u.HasPath e path → d = e

theorem HasPath.held (hu : u.Sound) (h : u.HasPath d path) :
    ∃ x, d.get? u.store.decls = some x := by
  cases h with
  | root =>
    obtain ⟨x, hx, -⟩ := hu.tree.root_held rfl
    exact ⟨x, hx⟩
  | member hx _ _ _ => exact ⟨_, hx⟩

theorem HasPath.unique (hu : u.Sound) (h : u.HasPath d path) (h' : u.HasPath d path') :
    path = path' := by
  obtain ⟨y, hy, hroot, -⟩ := hu.tree.root_held rfl
  induction h generalizing path' with
  | root =>
    cases h' with
    | root => rfl
    | member hx hparent _ _ =>
      rw [hy] at hx
      cases hx
      rw [hroot] at hparent
      cases hparent
  | member hx hparent hstep _ ih =>
    cases h' with
    | root =>
      rw [hy] at hx
      cases hx
      rw [hroot] at hparent
      cases hparent
    | member hx' hparent' hstep' h' =>
      rw [hx] at hx'
      cases hx'
      rw [hparent] at hparent'
      cases hparent'
      rw [hstep] at hstep'
      cases hstep'
      rw [ih h']

theorem hasPath_inUnit (j : UnitId) : (u.inUnit j).HasPath d path ↔ u.HasPath d path := by
  have hget (d : DeclId) : d.get? (u.inUnit j).store.decls =
      (d.get? u.store.decls).map (·.inUnit j) := Store.get?_mapDecls d
  constructor
  · intro h
    induction h with
    | root => exact .root
    | member hx hparent hstep _ ih =>
      rw [hget] at hx
      obtain ⟨y, hy, rfl⟩ := Option.map_eq_some_iff.mp hx
      rw [keyStep_inUnit] at hstep
      exact .member hy hparent hstep ih
  · intro h
    induction h with
    | root => exact .root
    | @member d scope x step path hx hparent hstep _ ih =>
      refine .member (x := x.inUnit j) ?_ hparent ?_ ih
      · rw [hget, hx]
        rfl
      · rw [keyStep_inUnit, hstep]

theorem Separate.distinctPaths (hu : u.Sound) (h : u.Separate) : u.DistinctPaths := by
  intro d e path hd he
  induction hd generalizing e with
  | root =>
    generalize hp : ([] : List KeyStep) = path at he
    cases he with
    | root => rfl
    | member => simp at hp
  | @member d scope x step path hx hparent hstep _ ih =>
    generalize hp : path ++ [step] = other at he
    cases he with
    | root => simp at hp
    | @member _ scope' y step' path' hy hparent' hstep' hscope' =>
      obtain ⟨rfl, hlast⟩ := List.append_inj' hp rfl
      cases hlast
      have hscope := ih hscope'
      have hxy : x = y := by
        refine h x (Id.mem_of_get? hx) y (Id.mem_of_get? hy) ?_ ?_
        · rw [hparent, hparent', hscope]
        · rw [hstep, hstep']
      rw [← hu.tree.dense hx, ← hu.tree.dense hy, hxy]

end ResolvedUnit

namespace Forest

variable {f g : Forest} {d e : DeclId} {x : Declaration} {path path' : List KeyStep}

theorem HasPath.held (hf : f.Sound) (h : f.HasPath d path) :
    ∃ x, d.get? f.store.decls = some x := by
  cases h with
  | root hroot =>
    obtain ⟨x, hx, -⟩ := hf.tree.root_held hroot
    exact ⟨x, hx⟩
  | node hkey _ =>
    obtain ⟨x, hx, -⟩ := hf.keyed hkey
    exact ⟨x, hx⟩

theorem not_root_of_keyed (hf : f.Sound) {key : MergeKey} (hkey : (key, d) ∈ f.keys) :
    f.root ≠ some d := by
  intro hroot
  obtain ⟨x, hx, hparent, -⟩ := hf.keyed hkey
  obtain ⟨y, hy, hnone, -⟩ := hf.tree.root_held hroot
  rw [hx] at hy
  cases hy
  rw [hparent] at hnone
  cases hnone

theorem HasPath.unique (hf : f.Sound) (hkeys : f.KeyedOnce) (h : f.HasPath d path)
    (h' : f.HasPath d path') : path = path' := by
  induction h generalizing path' with
  | root hroot =>
    cases h' with
    | root => rfl
    | node hkey _ => exact absurd hroot (not_root_of_keyed hf hkey)
  | node hkey _ ih =>
    cases h' with
    | root hroot => exact absurd hroot (not_root_of_keyed hf hkey)
    | node hkey' h' =>
      have hsame := hkeys.key_unique hkey hkey'
      subst hsame
      rw [ih h']

theorem HasPath.injective (hkeys : f.KeyedOnce) (h : f.HasPath d path) (h' : f.HasPath e path) :
    d = e := by
  induction h generalizing e with
  | root hroot =>
    generalize hp : ([] : List KeyStep) = path at h'
    cases h' with
    | root hroot' => exact Option.some_inj.mp (hroot.symm.trans hroot')
    | node => simp at hp
  | @node key d path hkey _ ih =>
    generalize hp : path ++ [key.step] = other at h'
    cases h' with
    | root => simp at hp
    | @node key' _ path' hkey' hscope' =>
      obtain ⟨rfl, hlast⟩ := List.append_inj' hp rfl
      have hscope := ih hscope'
      have hstep : key.step = key'.step := List.singleton_inj.mp hlast
      have hsame : key = key' := by
        rcases key with ⟨parent, kind, name, signature⟩
        rcases key' with ⟨parent', kind', name', signature'⟩
        simp only [MergeKey.step, KeyStep.mk.injEq] at hstep
        obtain ⟨rfl, rfl, rfl⟩ := hstep
        simp only at hscope
        rw [hscope]
      subst hsame
      rw [← keyed?_eq_some hkeys] at hkey hkey'
      exact Option.some_inj.mp (hkey.symm.trans hkey')

def AllKeyed (f : Forest) : Prop := ∀ ⦃d : DeclId⦄ ⦃x : Declaration⦄,
  d.get? f.store.decls = some x → x.parent ≠ none → ∃ key, (key, d) ∈ f.keys

theorem AllKeyed.exists_path (hf : f.Sound) (h : f.AllKeyed)
    (hd : d.get? f.store.decls = some x) : ∃ path, f.HasPath d path := by
  -- scopes come before their members
  induction hn : d.val using Nat.strong_induction_on generalizing d x with
  | _ n ih =>
    cases hparent : x.parent with
    | none => exact ⟨[], .root (hf.tree.orphan hd hparent)⟩
    | some scope =>
      obtain ⟨key, hkey⟩ := h hd (by rw [hparent]; exact Option.some_ne_none scope)
      obtain ⟨y, hy, hyparent, -⟩ := hf.keyed hkey
      rw [hd] at hy
      cases hy
      obtain ⟨z, hz, -⟩ := hf.tree.parent hd hyparent
      have hlt := hf.earlier hd hyparent
      obtain ⟨path, hpath⟩ := ih _ (hn ▸ hlt) hz rfl
      exact ⟨path ++ [key.step], .node hkey hpath⟩

theorem exists_paths (hf : f.Sound) (hkeys : f.KeyedOnce) (h : f.AllKeyed) :
    ∃ paths : List (List KeyStep), paths.Nodup ∧ paths.length = f.store.decls.length ∧
      ∀ path, path ∈ paths ↔ ∃ d, f.HasPath d path := by
  have hchoice (d : DeclId) : ∃ path, ∀ x, d.get? f.store.decls = some x → f.HasPath d path := by
    cases hd : d.get? f.store.decls with
    | none => exact ⟨[], fun x hx ↦ by cases hx⟩
    | some x =>
      obtain ⟨path, hpath⟩ := h.exists_path hf hd
      exact ⟨path, fun _ _ ↦ hpath⟩
  choose pathOf hpathOf using hchoice
  have hheld {d : DeclId} (hd : d ∈ Id.all f.store.decls) : f.HasPath d (pathOf d) := by
    obtain ⟨n, hn, rfl⟩ := List.mem_map.mp hd
    exact hpathOf _ _ (List.getElem?_eq_getElem (List.mem_range.mp hn))
  refine ⟨(Id.all f.store.decls).map pathOf, ?_, by simp [Id.all], fun path ↦ ?_⟩
  · have hall : (Id.all f.store.decls : List DeclId).Nodup :=
      List.nodup_range.map fun _ _ ↦ Id.ofIndex_injective
    refine hall.map_on fun d hd e he heq ↦ ?_
    exact (hheld hd).injective hkeys (heq ▸ hheld he)
  · constructor
    · intro hpath
      obtain ⟨d, hd, rfl⟩ := List.mem_map.mp hpath
      exact ⟨d, hheld hd⟩
    · rintro ⟨d, hd⟩
      obtain ⟨x, hx⟩ := hd.held hf
      have heq := hd.unique hf hkeys (hpathOf d x hx)
      exact List.mem_map.mpr ⟨d, Id.mem_all_of_get? hx, heq.symm⟩

section Merging

variable {u : ResolvedUnit} {plan done : List Placement} {p : Placement} (registry : Registry)
  (hf : f.Sound) (hkeys : f.KeyedOnce) (hjoin : f.settings.joinDeclarations = true) (hu : u.Sound)
  (hnamed : ∀ x ∈ u.store.decls, x.isAnonymous = false) (hplan : f.plan u = .ok plan)

include hjoin hu hnamed in
theorem Plans.exists_path (h : f.Plans u done) :
    ∀ p ∈ done, ∃ path, u.HasPath p.source.id path := by
  induction h with
  | root hx =>
    intro p hp
    rw [List.mem_singleton.mp hp, hu.tree.dense hx]
    exact ⟨[], .root⟩
  | @snoc done x q scope key _ hx _ hq hscope hkey ih =>
    intro p hp
    rcases List.mem_append.mp hp with hp | hp
    · exact ih p hp
    · rw [List.mem_singleton.mp hp]
      obtain ⟨o, ho, rfl, -⟩ := placed?_eq_some hscope
      obtain ⟨path, hpath⟩ := ih o ho
      have hcases := keyOf_of_join hjoin hkey
      rw [hnamed x (Id.mem_of_get? hx)] at hcases
      obtain ⟨step, hstep, -⟩ := hcases
      exact ⟨path ++ [step], .member hx hq hstep hpath⟩

include hjoin hu hnamed hplan in
theorem exists_unitPath (hd : d.get? u.store.decls = some x) : ∃ path, u.HasPath d path := by
  obtain ⟨p, hp, rfl⟩ := exists_placement hu hplan hd
  rw [← hu.tree.dense hd]
  exact (plan_eq_ok hu hplan).1.exists_path hjoin hu hnamed p hp

include hjoin hu hnamed hplan in
theorem separate_of_distinctPaths (h : u.DistinctPaths) : u.Separate := by
  intro x hx y hy hparent hstep
  obtain ⟨d, hd⟩ := Id.exists_get?_of_mem (k := .decl) hx
  obtain ⟨e, he⟩ := Id.exists_get?_of_mem (k := .decl) hy
  have hde : d = e := by
    obtain ⟨path, hpath⟩ := exists_unitPath hjoin hu hnamed hplan hd
    cases hpath with
    | root =>
      obtain ⟨z, hz, hnone, -⟩ := hu.tree.root_held rfl
      rw [hd] at hz
      cases hz
      rw [hparent] at hnone
      exact Option.some_inj.mp (hu.tree.orphan he hnone)
    | member hd' hscope hstep' hpath =>
      rw [hd] at hd'
      cases hd'
      exact h (.member hd hscope hstep' hpath)
        (.member he (hparent ▸ hscope) (hstep ▸ hstep') hpath)
  rw [hde, he] at hd
  exact (Option.some_inj.mp hd).symm

include hf hu hplan in
theorem sound_carryOut : (f.carryOut u plan registry).Sound := by
  have hm := (plan_eq_ok hu hplan).1.merging_carryOut hf hu List.prefix_rfl
  exact ⟨hm.sound.tree, hm.sound.earlier, hm.sound.keyed⟩

include hf hkeys hu hplan in
theorem keyedOnce_carryOut : (f.carryOut u plan registry).KeyedOnce :=
  ((plan_eq_ok hu hplan).1.keyedOnce hf hkeys hu List.prefix_rfl).of_keys rfl

include hf hkeys hu hplan in
theorem mem_keys_carryOut {key : MergeKey} : (key, d) ∈ (f.carryOut u plan registry).keys ↔
    (f.carryOut u plan registry).keyed? key = some d :=
  (keyed?_eq_some (keyedOnce_carryOut registry hf hkeys hu hplan)).symm

include hf hkeys hu hplan in
theorem mem_keys_carryOut_of_mem {key : MergeKey} (h : (key, d) ∈ f.keys) :
    (key, d) ∈ (f.carryOut u plan registry).keys := by
  rw [mem_keys_carryOut registry hf hkeys hu hplan, keyed?_carryOut, (keyed?_eq_some hkeys).mpr h]
  rfl

include hf hkeys hu hplan in
theorem HasPath.carryOut (h : f.HasPath d path) : (f.carryOut u plan registry).HasPath d path := by
  obtain ⟨hplans, -⟩ := plan_eq_ok hu hplan
  induction h with
  | root hroot => exact .root ((hplans.merging_carryOut hf hu List.prefix_rfl).root hroot)
  | node hkey _ ih =>
    exact .node (mem_keys_carryOut_of_mem registry hf hkeys hu hplan hkey) ih

variable (hsep : u.Separate)

include hf hkeys hjoin hu hnamed hplan hsep

theorem hasPath_target (h : u.HasPath d path) (hp : p ∈ plan) (hd : p.source.id = d) :
    (f.carryOut u plan registry).HasPath p.target.id path := by
  obtain ⟨hplans, -⟩ := plan_eq_ok hu hplan
  have hm := hplans.merging_carryOut hf hu List.prefix_rfl
  induction h generalizing p with
  | root =>
    obtain ⟨x, hx, hparent, -⟩ := hu.tree.root_held rfl
    have hsource := hplans.get?_source hu p hp
    rw [hd, hx] at hsource
    cases hsource
    obtain ⟨y, hy, -, hyparent⟩ := hm.node p hp
    rw [hparent] at hyparent
    exact .root (hm.sound.tree.orphan hy hyparent)
  | @member d scope x step path hx hparent hstep _ ih =>
    have hsource := hplans.get?_source hu p hp
    rw [hd, hx] at hsource
    cases hsource
    obtain ⟨o, ho, hoscope, step', hstep', hkey⟩ := key_of_named hjoin hu hnamed hplan hp hparent
    rw [hstep] at hstep'
    cases hstep'
    have hbound := keyed?_of_separate hf hjoin hu hnamed hplan registry hkeys hsep hp hkey
    rw [← mem_keys_carryOut registry hf hkeys hu hplan] at hbound
    exact .node hbound (ih ho hoscope)

theorem allKeyed_carryOut (h : f.AllKeyed) : (f.carryOut u plan registry).AllKeyed := by
  obtain ⟨hplans, -⟩ := plan_eq_ok hu hplan
  have hm := hplans.merging_carryOut hf hu List.prefix_rfl
  intro d y hd hparent
  rcases hm.created hd with ⟨x, hx, hgrows⟩ | ⟨p, hp, htarget, -, -⟩
  · obtain ⟨key, hkey⟩ := h hx (hgrows.parent ▸ hparent)
    exact ⟨key, mem_keys_carryOut_of_mem registry hf hkeys hu hplan hkey⟩
  · obtain ⟨z, hz, -, hzparent⟩ := hm.node p hp
    rw [htarget] at hz
    have hyz : y = z := Option.some_inj.mp (hd.symm.trans hz)
    cases hscope : p.source.parent with
    | none =>
      rw [hyz, hzparent, hscope] at hparent
      exact absurd rfl hparent
    | some scope =>
      obtain ⟨o, -, -, step, -, hkey⟩ := key_of_named hjoin hu hnamed hplan hp hscope
      have hbound := keyed?_of_separate hf hjoin hu hnamed hplan registry hkeys hsep hp hkey
      rw [htarget] at hbound
      exact ⟨_, (mem_keys_carryOut registry hf hkeys hu hplan).mpr hbound⟩

/-- A merge adds just the paths of its unit. -/
theorem hasPath_carryOut_iff (h : f.AllKeyed) : (∃ d, (f.carryOut u plan registry).HasPath d path) ↔
    (∃ d, f.HasPath d path) ∨ ∃ d, u.HasPath d path := by
  obtain ⟨hplans, -⟩ := plan_eq_ok hu hplan
  have hsound := sound_carryOut registry hf hu hplan
  have honce := keyedOnce_carryOut registry hf hkeys hu hplan
  constructor
  · rintro ⟨d, hd⟩
    cases hd with
    | root => exact .inr ⟨u.root, .root⟩
    | @node key d path hkey hscope =>
      rw [mem_keys_carryOut registry hf hkeys hu hplan, keyed?_carryOut] at hkey
      cases hold : f.keyed? key with
      | some e =>
        -- the scope of an old node is an old node
        left
        have hmem := mem_keys_of_keyed? hold
        obtain ⟨x, hx, hparent, -⟩ := hf.keyed hmem
        obtain ⟨y, hy, -⟩ := hf.tree.parent hx hparent
        obtain ⟨path', hpath'⟩ := h.exists_path hf hy
        have heq := (hpath'.carryOut registry hf hkeys hu hplan).unique hsound honce hscope
        exact ⟨e, .node hmem (heq ▸ hpath')⟩
      | none =>
        right
        rw [hold] at hkey
        obtain ⟨p, hbinder, -⟩ := Option.map_eq_some_iff.mp hkey
        have hp := List.mem_of_find?_eq_some hbinder
        have hpkey : p.key = some key := by
          have hfound := List.find?_some hbinder
          simp only [decide_eq_true_eq] at hfound
          exact hfound.1
        obtain ⟨o, ho, hparent, step, hstep, rfl⟩ := exists_scope hjoin hu hnamed hplan hp hpkey
        obtain ⟨path', hpath'⟩ := hplans.exists_path hjoin hu hnamed o ho
        have hnode := hasPath_target registry hf hkeys hjoin hu hnamed hplan hsep hpath' ho rfl
        have heq := hnode.unique hsound honce hscope
        exact ⟨p.source.id, .member (hplans.get?_source hu p hp) hparent hstep (heq ▸ hpath')⟩
  · rintro (⟨d, hd⟩ | ⟨d, hd⟩)
    · exact ⟨d, hd.carryOut registry hf hkeys hu hplan⟩
    · obtain ⟨x, hx⟩ := hd.held hu
      obtain ⟨p, hp, rfl⟩ := exists_placement hu hplan hx
      exact ⟨p.target.id, hasPath_target registry hf hkeys hjoin hu hnamed hplan hsep hd hp
        (hu.tree.dense hx)⟩

/-- A declaration has one path, and the unit's registry binds its id to the node with that path. -/
theorem sighted_carryOut (hregistry : u.registry.rebind (f.planRenaming u plan).node = .ok registry)
    (hd : d.get? u.store.decls = some x) : ∃ path, (∀ other, u.HasPath d other ↔ other = path) ∧
      ∃ e, registry.NamesDecl x.externalId e ∧ (f.carryOut u plan registry).HasPath e path := by
  obtain ⟨hplans, -⟩ := plan_eq_ok hu hplan
  obtain ⟨path, hpath⟩ := exists_unitPath hjoin hu hnamed hplan hd
  obtain ⟨p, hp, rfl⟩ := exists_placement hu hplan hd
  refine ⟨path, fun other ↦ ?_, p.target.id, ?_, ?_⟩
  · exact ⟨fun hother ↦ hother.unique hu hpath, fun heq ↦ heq ▸ hpath⟩
  · rw [Registry.NamesDecl, get?_rebind hregistry, hu.named (hplans.get?_source hu p hp),
      Option.map_some, Renaming.node, decl_planRenaming (hplans.placed?_source p hp)]
  · exact hasPath_target registry hf hkeys hjoin hu hnamed hplan hsep hpath hp (hu.tree.dense hd)

end Merging

/-- The nodes of the forest are just the entities that its units tell apart by their paths. -/
structure Unites (settings : BuilderSettings) (units : List (List Record)) (f : Forest) : Prop where
  path : ∀ {d : DeclId} {x : Declaration}, d.get? f.store.decls = some x → ∃! path, f.HasPath d path
  injective : ∀ {d e : DeclId} {path : List KeyStep}, f.HasPath d path → f.HasPath e path → d = e
  union : ∀ path, (∃ d, f.HasPath d path) ↔ ∃ records ∈ units, ∃ i u d,
    buildUnit settings i records = .ok u ∧ u.HasPath d path
  /-- A declaration of a unit has one path, and its node has the same one. -/
  sighted : ∀ {n : Nat} {records : List Record} {u : ResolvedUnit} {d : DeclId} {x : Declaration},
    units[n]? = some records → buildUnit settings (Id.ofIndex n) records = .ok u →
      d.get? u.store.decls = some x → ∃ path, (∀ other, u.HasPath d other ↔ other = path) ∧
        ∃ registry e, f.registries[n]? = some registry ∧ registry.NamesDecl x.externalId e ∧
          f.HasPath e path

/-- What adding units one after the other keeps. -/
structure Collects (settings : BuilderSettings) (units : List (List Record)) (f : Forest) :
    Prop where
  same : f.settings = settings
  sound : f.Sound
  keyedOnce : f.KeyedOnce
  allKeyed : f.AllKeyed
  count : f.registries.length = units.length
  unites : f.Unites settings units

section Units

variable {settings : BuilderSettings} {units done : List (List Record)} {records : List Record}
  {i : UnitId} (hjoin : settings.joinDeclarations = true)

theorem collects_empty (settings : BuilderSettings) :
    Forest.Collects settings [] { settings } where
  same := rfl
  sound := sound_empty settings
  keyedOnce := keyedOnce_empty settings
  allKeyed := fun _ _ hd ↦ absurd (Id.mem_of_get? hd) List.not_mem_nil
  count := rfl
  unites := {
    path := fun hd ↦ absurd (Id.mem_of_get? hd) List.not_mem_nil
    injective := fun h ↦ by
      obtain ⟨x, hx⟩ := h.held (sound_empty settings)
      exact absurd (Id.mem_of_get? hx) List.not_mem_nil
    union := fun path ↦ by
      constructor
      · rintro ⟨d, h⟩
        obtain ⟨x, hx⟩ := h.held (sound_empty settings)
        exact absurd (Id.mem_of_get? hx) List.not_mem_nil
      · rintro ⟨records, hmem, -⟩
        exact absurd hmem List.not_mem_nil
    sighted := fun hn ↦ by cases hn }

include hjoin

theorem Collects.addUnit (h : f.Collects settings done) (hnamed : NamedScopes records)
    (hdistinct : ∀ i u, buildUnit settings i records = .ok u → u.DistinctPaths)
    (hok : f.addUnit records = .ok (g, i)) : g.Collects settings (done ++ [records]) := by
  obtain ⟨u, summary, hbuild, hmerge⟩ := addUnit_eq_ok hok
  rw [h.same] at hbuild
  have hjoin' : f.settings.joinDeclarations = true := h.same ▸ hjoin
  obtain ⟨hu, -, -⟩ := buildUnit_eq_ok hbuild
  obtain ⟨-, plan, registry, hplan, hregistry, rfl, -⟩ := merge_eq_ok_iff.mp hmerge
  have hsound := sound_carryOut registry h.sound hu hplan
  have hkeyedOnce := keyedOnce_carryOut registry h.sound h.keyedOnce hu hplan
  have hnone := hnamed.isAnonymous hbuild
  have hsep := separate_of_distinctPaths hjoin' hu hnone hplan (hdistinct _ u hbuild)
  have hall := allKeyed_carryOut registry h.sound h.keyedOnce hjoin' hu hnone hplan hsep h.allKeyed
  refine ⟨(settings_carryOut ..).trans h.same, hsound, hkeyedOnce, hall, ?_, ?_⟩
  · rw [length_merge hmerge, h.count, List.length_append]
    rfl
  constructor
  case path =>
    intro d x hd
    obtain ⟨path, hpath⟩ := hall.exists_path hsound hd
    exact ⟨path, hpath, fun other hother ↦ hother.unique hsound hkeyedOnce hpath⟩
  case injective => exact fun hd he ↦ hd.injective hkeyedOnce he
  case union =>
    intro path
    rw [hasPath_carryOut_iff registry h.sound h.keyedOnce hjoin' hu hnone hplan hsep h.allKeyed,
      h.unites.union]
    constructor
    · rintro (⟨other, hother, hpath⟩ | ⟨d, hd⟩)
      · exact ⟨other, List.mem_append_left _ hother, hpath⟩
      · exact ⟨records, List.mem_append_right _ List.mem_cons_self, _, u, d, hbuild, hd⟩
    · rintro ⟨other, hother, j, v, d, hv, hd⟩
      rcases List.mem_append.mp hother with hother | hother
      · exact .inl ⟨other, hother, j, v, d, hv, hd⟩
      · -- the same records under another number
        rw [List.mem_singleton.mp hother, hnamed.buildUnit_inUnit j hbuild] at hv
        cases hv
        exact .inr ⟨d, (ResolvedUnit.hasPath_inUnit j).mp hd⟩
  case sighted =>
    intro n other v d x hn hv hd
    have hregistries : (f.carryOut u plan registry).registries = f.registries ++ [registry] := rfl
    rw [hregistries]
    rcases Id.get?_append_singleton (i := (Id.ofIndex n : UnitId)) hn with hn | ⟨hlast, rfl⟩
    · obtain ⟨path, hpath, kept, e, hkept, hnames, he⟩ := h.unites.sighted hn hv hd
      have hlt := (List.getElem?_eq_some_iff.mp hkept).1
      refine ⟨path, hpath, kept, e, ?_, hnames, he.carryOut registry h.sound h.keyedOnce hu hplan⟩
      rw [List.getElem?_append_left hlt, hkept]
    · have hn : n = f.registries.length := by
        simpa only [Id.ofIndex, Id.next_eq, Id.mk.injEq, Nat.add_right_cancel_iff, h.count] using hlast
      subst hn
      cases hv.symm.trans hbuild
      obtain ⟨path, hpath, e, hnames, he⟩ := sighted_carryOut registry h.sound h.keyedOnce hjoin' hu
        hnone hplan hsep hregistry hd
      exact ⟨path, hpath, registry, e, List.getElem?_concat_length, hnames, he⟩

theorem Collects.foldlM (h : f.Collects settings done)
    (hnamed : ∀ records ∈ units, NamedScopes records)
    (hdistinct : ∀ records ∈ units, ∀ i u, buildUnit settings i records = .ok u → u.DistinctPaths)
    (hok : units.foldlM (fun f records ↦ Prod.fst <$> f.addUnit records) f = .ok g) :
    g.Collects settings (done ++ units) := by
  induction units generalizing done f with
  | nil =>
    cases hok
    rwa [List.append_nil]
  | cons records units ih =>
    rw [List.foldlM_cons] at hok
    obtain ⟨next, hnext, hok⟩ := Outcome.bind_eq_ok hok
    obtain ⟨⟨next, unit⟩, hadd, rfl⟩ := Outcome.map_eq_ok hnext
    rw [List.append_cons]
    refine ih (h.addUnit hjoin (hnamed records List.mem_cons_self)
      (hdistinct records List.mem_cons_self) hadd) ?_ ?_ hok
    · exact fun other hother ↦ hnamed other (List.mem_cons_of_mem records hother)
    · exact fun other hother ↦ hdistinct other (List.mem_cons_of_mem records hother)

/-- Adding units without unnamed scopes to an empty forest, each with distinct paths, gives one node
for each path that some unit has. So every order of the units is accepted and gives the same
paths and as many declarations. -/
theorem paths_ofUnits (hnamed : ∀ records ∈ units, NamedScopes records)
    (hdistinct : ∀ records ∈ units, ∀ i u, buildUnit settings i records = .ok u → u.DistinctPaths)
    (h : ofUnits settings units = .ok f) :
    f.Unites settings units ∧ ∀ units', units.Perm units' →
      ∃ f', ofUnits settings units' = .ok f' ∧ f'.Unites settings units' ∧
        (∀ path, (∃ d, f'.HasPath d path) ↔ ∃ d, f.HasPath d path) ∧
        f'.store.decls.length = f.store.decls.length := by
  have hf := (collects_empty settings).foldlM hjoin hnamed hdistinct h
  refine ⟨hf.unites, fun units' hperm ↦ ?_⟩
  obtain ⟨f', h'⟩ := returns_ofUnits_of_perm hjoin hnamed h hperm
  have hf' := (collects_empty settings).foldlM hjoin
    (fun records hr ↦ hnamed records (hperm.mem_iff.mpr hr))
    (fun records hr ↦ hdistinct records (hperm.mem_iff.mpr hr)) h'
  have hsame (path : List KeyStep) : (∃ d, f'.HasPath d path) ↔ ∃ d, f.HasPath d path := by
    have hunits (records : List Record) : records ∈ [] ++ units' ↔ records ∈ [] ++ units :=
      hperm.mem_iff.symm
    rw [hf'.unites.union, hf.unites.union]
    simp only [hunits]
  refine ⟨f', h', hf'.unites, hsame, ?_⟩
  obtain ⟨paths, hnodup, hlength, hmem⟩ := exists_paths hf.sound hf.keyedOnce hf.allKeyed
  obtain ⟨paths', hnodup', hlength', hmem'⟩ := exists_paths hf'.sound hf'.keyedOnce hf'.allKeyed
  have hpaths : paths'.Perm paths := by
    rw [List.perm_ext_iff_of_nodup hnodup' hnodup]
    intro path
    rw [hmem', hmem, hsame]
  rw [← hlength, ← hlength', hpaths.length_eq]

end Units

end Forest

theorem NamedScopes.distinctPaths {settings : BuilderSettings} {records : List Record} {i : UnitId}
    {u : ResolvedUnit} (hnamed : NamedScopes records) (h : buildUnit settings i records = .ok u)
    (hsep : u.Separate) :
    ∀ j v, buildUnit settings j records = .ok v → v.DistinctPaths := by
  intro j v hv
  rw [hnamed.buildUnit_inUnit j h] at hv
  cases hv
  have hu := hsep.distinctPaths (buildUnit_eq_ok h).1
  exact fun d e path hd he ↦
    hu ((ResolvedUnit.hasPath_inUnit j).mp hd) ((ResolvedUnit.hasPath_inUnit j).mp he)

namespace Sample

def namespaces : List Record :=
  [({ tag := .namespaceTag, id := "n" } : Record).withLiteral Field.name "::",
    (({ tag := .namespaceTag, id := "a" } : Record).withLiteral Field.name "a").withRef
      Field.context "n",
    (({ tag := .namespaceTag, id := "b" } : Record).withLiteral Field.name "b").withRef
      Field.context "a"]

end Sample

theorem paths_ofUnits_sample : ∃ f f', Forest.ofUnits {} [Sample.header, Sample.namespaces] = .ok f ∧
    Forest.ofUnits {} [Sample.namespaces, Sample.header] = .ok f' ∧
    f.Unites {} [Sample.header, Sample.namespaces] ∧
    f.store.decls.length = 5 ∧ f'.store.decls.length = 5 := by
  have hok : (·.store.decls.length) <$> Forest.ofUnits {} [Sample.header, Sample.namespaces] =
      .ok 5 := by
    cbv
  have hheader : (fun u ↦ decide u.Separate) <$> buildUnit {} ⟨1⟩ Sample.header = .ok true := by cbv
  have hnamespaces : (fun u ↦ decide u.Separate) <$> buildUnit {} ⟨1⟩ Sample.namespaces =
      .ok true := by
    cbv
  obtain ⟨f, hf, hlength⟩ := Outcome.map_eq_ok hok
  obtain ⟨u, hu, husep⟩ := Outcome.map_eq_ok hheader
  obtain ⟨v, hv, hvsep⟩ := Outcome.map_eq_ok hnamespaces
  have hnamed : NamedScopes Sample.header := namedScopes_of_all (by cbv)
  have hnamed' : NamedScopes Sample.namespaces := namedScopes_of_all (by cbv)
  have hall : ∀ records ∈ [Sample.header, Sample.namespaces], NamedScopes records ∧
      ∀ i u, buildUnit {} i records = .ok u → u.DistinctPaths := by
    intro records hr
    rcases List.mem_cons.mp hr with rfl | hr
    · exact ⟨hnamed, hnamed.distinctPaths hu (of_decide_eq_true husep)⟩
    · rw [List.mem_singleton.mp hr]
      exact ⟨hnamed', hnamed'.distinctPaths hv (of_decide_eq_true hvsep)⟩
  obtain ⟨hunites, hperm⟩ := Forest.paths_ofUnits rfl (fun records hr ↦ (hall records hr).1)
    (fun records hr ↦ (hall records hr).2) hf
  obtain ⟨f', hf', -, -, hlength'⟩ := hperm _ (.swap Sample.namespaces Sample.header [])
  exact ⟨f, f', hf, hf', hunites, hlength, hlength'.trans hlength⟩

end ScopeForest
