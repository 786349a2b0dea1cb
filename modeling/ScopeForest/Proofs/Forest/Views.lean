import ScopeForest.Proofs.Forest.Run

namespace ScopeForest

variable {f g : Forest} {u : ResolvedUnit} {r : Renaming} {units : List (List Record)} {lone : Bool}

theorem Faithful.grows {records : List Record} {registry kept : Registry}
    (h : Faithful records registry f.store) (hfg : f.Grows g)
    (hkept : kept.bindings = registry.bindings) : Faithful records kept g.store := by
  refine h.rename .refl (fun x ↦ ?_) (fun {d x} hd ↦ ?_) fun {t node} ht ↦ ?_
  · have hnode : Renaming.refl.node = id := by
      funext node
      cases node <;> rfl
    rw [hnode, Option.map_id, Registry.get?, hkept]
    rfl
  · obtain ⟨y, hy, hxy⟩ := hfg.decls hd
    exact ⟨y, hy, hxy.kind, hxy.parent.trans (Option.map_id_apply).symm⟩
  · rw [Renaming.ty_refl]
    exact Id.get?_of_prefix ht hfg.types

namespace Forest

/-- The registries of a forest are views of its units, and every declaration goes by the name that
it has in its unit. Only a root that no unit declares, which `lone` tells of, has no such name. -/
structure Views (units : List (List Record)) (lone : Bool) (f : Forest) : Prop where
  count : f.registries.length = units.length
  faithful : ∀ {unit : UnitId} {records : List Record}, unit.get? units = some records →
    ∃ registry, unit.get? f.registries = some registry ∧ Faithful records registry f.store
  named : ∀ {d : DeclId} {x : Declaration}, d.get? f.store.decls = some x →
    (lone = true → f.root ≠ some d) →
    ∃ registry, x.unit.get? f.registries = some registry ∧ registry.NamesDecl x.externalId x.id

theorem views_empty (settings : BuilderSettings) : Views [] false { settings } where
  count := rfl
  faithful h := absurd (Id.mem_of_get? h) List.not_mem_nil
  named h := absurd (Id.mem_of_get? h) List.not_mem_nil

theorem Grows.named (h : f.Grows g) {x y : Declaration} (hxy : x.Grows y)
    (hx : ∃ registry, x.unit.get? f.registries = some registry ∧
      registry.NamesDecl x.externalId x.id) :
    ∃ registry, y.unit.get? g.registries = some registry ∧
      registry.NamesDecl y.externalId y.id := by
  obtain ⟨registry, hunit, hname⟩ := hx
  obtain ⟨kept, hkept, hbindings⟩ := h.registries hunit
  refine ⟨kept, hxy.unit ▸ hkept, ?_⟩
  rw [hxy.externalId, hxy.id, Registry.NamesDecl, Registry.get?, hbindings]
  exact hname

/-- Views last as long as no declaration is added but a root that no unit declares. -/
theorem Views.grows {alone : Bool} (hf : f.Views units lone) (h : f.Grows g)
    (hcount : g.registries.length = f.registries.length) (hlone : lone = true → alone = true)
    (hnew : ∀ {d : DeclId} {y : Declaration}, d.get? g.store.decls = some y →
      (∃ x, d.get? f.store.decls = some x ∧ x.Grows y) ∨ alone = true ∧ g.root = some d) :
    g.Views units alone where
  count := hcount.trans hf.count
  faithful hunit := by
    obtain ⟨registry, hget, hfaithful⟩ := hf.faithful hunit
    obtain ⟨kept, hkept, hbindings⟩ := h.registries hget
    exact ⟨kept, hkept, hfaithful.grows h hbindings⟩
  named {d y} hd hroot := by
    obtain ⟨x, hx, hxy⟩ | ⟨halone, hd⟩ := hnew hd
    · exact h.named hxy (hf.named hx fun hl hr ↦ hroot (hlone hl) (h.root hr))
    · exact absurd hd (hroot halone)

theorem Views.merge {records : List Record} (hf : f.Views units lone) (hu : u.Sound)
    (hfaithful : Faithful records u.registry u.store) (h : f.Merged u r g) :
    g.Views (units ++ [records]) lone := by
  obtain ⟨registry, hregistries, hget⟩ := h.registry
  have hlast : (Id.next f.registries : UnitId).get? g.registries = some registry := by
    rw [hregistries]
    exact Id.get?_next_append
  refine ⟨by simp [hregistries, hf.count], fun {unit found} hunit ↦ ?_, fun {d y} hd hroot ↦ ?_⟩
  · -- the registry of the new unit is the last one, under the id that the unit was built for
    rcases Id.get?_append_singleton hunit with hunit | ⟨rfl, rfl⟩
    · obtain ⟨old, hold, hview⟩ := hf.faithful hunit
      obtain ⟨kept, hkept, hbindings⟩ := h.grows.registries hold
      exact ⟨kept, hkept, hview.grows h.grows hbindings⟩
    · refine ⟨registry, ?_, hfaithful.rename r hget h.node h.type⟩
      rw [← hlast]
      simp [Id.next_eq, hf.count]
  · obtain ⟨x, hx, hxy⟩ | ⟨e, x, hx, rfl, hunit, hid⟩ := h.created hd
    · exact h.grows.named hxy (hf.named hx fun hl hr ↦ hroot hl (h.grows.root hr))
    · refine ⟨registry, ?_, ?_⟩
      · rw [hunit, hu.unit hx, h.unit]
        exact hlast
      · rw [hid, h.sound.tree.dense hd, Registry.NamesDecl, hget, hu.named hx]
        rfl

theorem registries_freeze (f : Forest) :
    f.freeze.forest.registries = f.registries.map Registry.freeze := by
  have hrooted : f.rooted.1.registries = f.registries := by
    cases h : f.root with
    | some d => rw [rooted_of_root h]
    | none => rw [rooted_of_none h]; rfl
  rw [← hrooted]
  rfl

theorem length_registries_freeze (f : Forest) :
    f.freeze.forest.registries.length = f.registries.length := by
  rw [registries_freeze, List.length_map]

theorem origin_freeze {d : DeclId} {y : Declaration}
    (h : d.get? f.freeze.forest.store.decls = some y) :
    (∃ x, d.get? f.store.decls = some x ∧ x.Grows y) ∨
      f.root = none ∧ f.freeze.forest.root = some d := by
  obtain ⟨x, hx, hxy, -⟩ := (sameTree_freeze f).origin h
  cases hroot : f.root with
  | some e =>
    rw [rooted_of_root hroot] at hx
    exact .inl ⟨x, hx, hxy⟩
  | none =>
    have hrooted : f.freeze.forest.root = f.rooted.1.root := rfl
    rw [hrooted]
    rw [rooted_of_none hroot] at hx ⊢
    rcases Id.get?_append_singleton (show d.get? (f.store.decls ++ _) = some x from hx) with
      hx | ⟨rfl, -⟩
    · exact .inl ⟨x, hx, hxy⟩
    · exact .inr ⟨rfl, rfl⟩

theorem Views.freeze (hs : f.Sound) (hf : f.Views units lone) (hroot : f.root = none → units = []) :
    f.freeze.forest.Views units (lone || units.isEmpty) := by
  refine hf.grows hs.freeze.2.2 (length_registries_freeze f) (fun h ↦ by rw [h]; rfl)
    fun {d y} hd ↦ ?_
  obtain hx | ⟨hnone, hd⟩ := origin_freeze hd
  · exact .inl hx
  · refine .inr ⟨?_, hd⟩
    rw [hroot hnone]
    exact Bool.or_true lone

theorem Views.reopen {g : Graph} (hf : g.forest.Views units lone)
    (hroot : g.forest.root = some g.root) : g.reopen.Views units lone := by
  refine hf.grows (grows_reopen hroot) rfl id fun {d y} hd ↦ ?_
  obtain ⟨x, hx, hxy, -⟩ := (sameTree_reopen g).origin hd
  exact .inl ⟨x, hx, hxy⟩

end Forest

theorem Graph.resolve_of_named {g : Graph} {unit : UnitId} {registry : Registry} {id : ExternalId}
    {d : DeclId} (hunit : unit.get? g.forest.registries = some registry)
    (hid : registry.NamesDecl id d) : g.resolve unit id = .ok (.decl d) := by
  have hpos := Id.val_pos_of_get? hunit
  rw [resolve, if_neg (by omega), hunit]
  simp only [Registry.resolve, Registry.resolveFrom]
  rw [hid]
  rfl

theorem Run.viewed (h : Run units lone f) :
    f.Sound ∧ f.Views units lone ∧ (f.root = none → units = []) := by
  refine Run.invariant
    (P := fun units lone f ↦ f.Sound ∧ f.Views units lone ∧ (f.root = none → units = [])) ?_ ?_ ?_ h
  · exact fun settings ↦ ⟨Forest.sound_empty settings, Forest.views_empty settings, fun _ ↦ rfl⟩
  · rintro units lone f g settings unit records u summary ⟨hs, hf, -⟩ hbuild hok
    obtain ⟨hu, -, hfaithful⟩ := buildUnit_eq_ok hbuild
    obtain ⟨r, hm⟩ := Forest.merge_eq_ok hs hu hok
    exact ⟨hm.sound, hf.merge hu hfaithful hm, fun hroot ↦ absurd hroot hm.rooted⟩
  · rintro units lone f ⟨hs, hf, hroot⟩
    exact ⟨hs.reopen.1, (hf.freeze hs hroot).reopen hs.freeze.2.1, nofun⟩

/-- Each unit sees its records, in the forest and in the graph that freezing makes of it. -/
structure Forest.KeepsViews (units : List (List Record)) (lone : Bool) (f : Forest) : Prop where
  views : f.Views units lone
  frozen : f.freeze.forest.Views units (lone || units.isEmpty)
  /-- A declaration is found by its unit and its id there, all but a root that no unit declares. -/
  resolve : ∀ {d : DeclId} {x : Declaration}, f.freeze.get? d = some x →
    ((lone || units.isEmpty) = true → d ≠ f.freeze.root) →
    f.freeze.resolve x.unit x.externalId = .ok (.decl x.id)
  /-- No step takes away or changes what a view shows. -/
  freeze : f.Grows f.freeze.forest
  reopen : f.Grows f.freeze.reopen
  merge : ∀ {settings : BuilderSettings} {unit : UnitId} {records : List Record}
    {u : ResolvedUnit} {g : Forest} {summary : MergeSummary},
    buildUnit settings unit records = .ok u → f.merge u = .ok (g, summary) → f.Grows g

/-- At every point of a run the registry of each unit is a faithful view of its records. -/
theorem Run.keepsViews (h : Run units lone f) : f.KeepsViews units lone := by
  obtain ⟨hs, hviews, hroot⟩ := h.viewed
  obtain ⟨-, hfrozen, hgrows⟩ := hs.freeze
  have hgraph := hviews.freeze hs hroot
  refine ⟨hviews, hgraph, fun {d x} hd hlone ↦ ?_, hgrows, hs.reopen.2, fun hbuild hok ↦ ?_⟩
  · obtain ⟨registry, hunit, hname⟩ := hgraph.named hd fun hl hr ↦
      hlone hl (Option.some.inj (hr.symm.trans hfrozen))
    exact Graph.resolve_of_named hunit hname
  · obtain ⟨r, hm⟩ := Forest.merge_eq_ok hs (buildUnit_eq_ok hbuild).1 hok
    exact hm.grows

/-- Two units that share a namespace and a class: the second knows its enumerator by its own id. -/
theorem keepsViews_sample : ∃ f, Run [Sample.header, Sample.source] false f ∧
    f.freeze.resolve ⟨2⟩ (enumeratorId "e" 0) = .ok (.decl ⟨7⟩) ∧
    f.KeepsViews [Sample.header, Sample.source] false := by
  have h : (·.freeze.resolve ⟨2⟩ (enumeratorId "e" 0)) <$>
      Forest.ofUnits {} [Sample.header, Sample.source] = .ok (.ok (.decl ⟨7⟩)) := by
    cbv
  obtain ⟨f, hf, hresolve⟩ := Outcome.map_eq_ok h
  exact ⟨f, Run.ofUnits hf, hresolve, Run.keepsViews (Run.ofUnits hf)⟩

end ScopeForest
