import ScopeForest.Proofs.Forest.Acyclic
import ScopeForest.Proofs.Forest.Sessions
import ScopeForest.Proofs.Types.Mirror

namespace ScopeForest

variable {r : Renaming} {x y : Declaration}

theorem Declaration.neutral_withMembers (members : List DeclId) :
    Declaration.Neutral (·.withMembers members) := by
  constructor
  all_goals
    rintro ⟨_, _, _, _, _, _, _, _, _, details⟩
    cases details <;> rfl

theorem Declaration.Fitting.exists_scope (h : x.Fitting) (hk : x.kind = .namespaceDecl) :
    ∃ members, x.details = .scope members := by
  rcases x with ⟨_, kind, _, _, _, _, _, _, _, details⟩
  simp only at hk
  subst hk
  cases details with
  | scope members => exact ⟨members, rfl⟩
  | _ => simp [Declaration.Fitting, Details.Fits, DeclKind.isCallable] at h

theorem Renaming.alike_of_namespaces (hx : x.Fitting) (hxk : x.kind = .namespaceDecl)
    (hy : y.Fitting) (hyk : y.kind = .namespaceDecl) (hname : y.name = x.name)
    (hparent : y.parent = x.parent.map r.decl) (hanonymous : y.anonymous = x.anonymous) :
    r.Alike x y := by
  obtain ⟨_, hxd⟩ := hx.exists_scope hxk
  obtain ⟨_, hyd⟩ := hy.exists_scope hyk
  refine ⟨hname, hparent, hanonymous, ?_, ?_, ?_⟩ <;>
    simp [Declaration.aliased?, Declaration.instantiates?, Declaration.classDetails?,
      Declaration.callableDetails?, hxd, hyd]

namespace Forest

variable {f g : Forest} {u : ResolvedUnit} {plan : List Placement} {p : Placement} {d e : DeclId}
  {registry : Registry} {summary : MergeSummary}

theorem Plans.alike_new (hf : f.Sound) (hu : u.Sound) (h : f.Plans u plan) (hp : p ∈ plan)
    (ht : p.target = .new d) (hd : d.get? (f.carryOut u plan registry).store.decls = some y) :
    (f.planRenaming u plan).Alike p.source y := by
  obtain ⟨z, members, hz, rfl⟩ := h.arises_carryOut hf hu hd
  have hlt := (h.target_new hp ht).1
  cases hz with
  | kept hx _ =>
    have hle := (Id.val_pos_of_get? hx).2
    omega
  | joined hx _ _ =>
    have hle := (Id.val_pos_of_get? hx).2
    omega
  | @new q hq hqt =>
    have heq : q.target.id = p.target.id := by rw [ht, hqt]
    cases List.inj_on_of_nodup_map (h.nodup_targets hf) hq hp heq
    have hcopy := Renaming.alike_declaration (f.planRenaming u plan) d p.source
    exact hcopy.neutral (Declaration.neutral_withMembers members)

theorem Plans.target_of_orphan (h : f.Plans u plan) (hp : p ∈ plan)
    (hparent : p.source.parent = none) : p.target = f.targetOf [] f.root := by
  induction h with
  | root hx => rw [List.mem_singleton.mp hp]
  | snoc _ _ _ hscope _ _ ih =>
    rcases List.mem_append.mp hp with hp | hp
    · exact ih hp
    · rw [List.mem_singleton.mp hp] at hparent
      rw [hscope] at hparent
      cases hparent

theorem keyOf_of_not_join (hjoin : f.settings.joinDeclarations = false) {key : Option MergeKey}
    (h : f.keyOf u e x = .ok key) : key = none := by
  unfold keyOf at h
  rw [hjoin] at h
  cases h
  rfl

theorem Plans.root_of_joined (hapart : f.settings.joinDeclarations = false ∨ f.keys = [])
    (h : f.Plans u plan) (hp : p ∈ plan) (ht : p.target = .joined d) :
    u.root.get? u.store.decls = some p.source ∧ f.root = some d := by
  induction h with
  | root hx =>
    rw [List.mem_singleton.mp hp] at ht ⊢
    exact ⟨hx, targetOf_joined ht⟩
  | snoc _ _ _ _ _ hkey ih =>
    rcases List.mem_append.mp hp with hp | hp
    · exact ih hp
    · exfalso
      rw [List.mem_singleton.mp hp] at ht
      obtain ⟨key, rfl, hd⟩ := Option.bind_eq_some_iff.mp (targetOf_joined ht)
      rcases hapart with hjoin | hnil
      · cases keyOf_of_not_join hjoin hkey
      · have hmem := mem_keys_of_keyed? hd
        rw [hnil] at hmem
        cases hmem

def RootNamed (f : Forest) : Prop :=
  ∀ d x, f.root = some d → d.get? f.store.decls = some x → x.name = "::" ∧ x.anonymous = none

theorem RootNamed.grows (h : f.RootNamed) (hf : f.Sound) (hroot : f.root = some e)
    (hg : f.Grows g) : g.RootNamed := by
  intro d y hd hy
  rw [hg.root hroot] at hd
  cases hd
  obtain ⟨x, hx, -⟩ := hf.tree.root_held hroot
  obtain ⟨z, hz, hxz⟩ := hg.decls hx
  rw [hy] at hz
  cases hz
  rw [hxz.name, hxz.anonymous]
  exact h e x hroot hx

theorem RootNamed.rooted (h : f.RootNamed) : f.rooted.1.RootNamed := by
  cases hroot : f.root with
  | some e =>
    rw [rooted_of_root hroot]
    exact h
  | none =>
    rw [rooted_of_none hroot]
    intro d x hd hx
    have hid : d = Id.next f.store.decls := (Option.some_inj.mp hd).symm
    have hlast : d.get? (f.store.decls ++ [loneRoot (Id.next f.store.decls)]) = some x := hx
    rw [hid, Id.get?_next_append] at hlast
    cases hlast
    exact ⟨rfl, rfl⟩

theorem RootNamed.reopen (h : f.RootNamed) (hf : f.Sound) : f.freeze.reopen.RootNamed := by
  obtain ⟨hsound, hroot, -⟩ := hf.rooted
  exact h.rooted.grows hsound hroot ((grows_freeze f).trans (grows_reopen hf.freeze.2.1))

theorem RootNamed.merge (h : f.RootNamed) (hf : f.Sound) (hu : u.Sound)
    (hname : ∀ {x}, u.root.get? u.store.decls = some x → x.name = "::" ∧ x.anonymous = none)
    (hok : f.merge u = .ok (g, summary)) : g.RootNamed := by
  obtain ⟨r, hmerged⟩ := merge_eq_ok hf hu hok
  cases hroot : f.root with
  | some e => exact h.grows hf hroot hmerged.grows
  | none =>
    -- the root of the unit becomes that of the forest
    obtain ⟨-, plan, registry, hplan, -, rfl, -⟩ := merge_eq_ok_iff.mp hok
    obtain ⟨hplans, -⟩ := plan_eq_ok hu hplan
    obtain ⟨x, hx, hparent, -⟩ := hu.tree.root_held rfl
    obtain ⟨p, hp, rfl⟩ := exists_placement hu hplan hx
    obtain ⟨y, hy, -, hyp⟩ := (hplans.merging_carryOut hf hu List.prefix_rfl).node p hp
    rw [hparent, Option.map_none] at hyp
    have hnew : p.target = .new (f.newId []) := by
      rw [hplans.target_of_orphan hp hparent, hroot]
      rfl
    have hy : p.target.id.get? (f.carryOut u plan registry).store.decls = some y := hy
    rw [hnew] at hy
    intro d z hd hz
    have hid := hmerged.sound.tree.orphan hy hyp
    rw [hd] at hid
    cases hid
    rw [hy] at hz
    cases hz
    have halike := hplans.alike_new hf hu hp hnew hy
    rw [halike.name, halike.anonymous]
    exact hname hx

theorem length_le_carryOut (hf : f.Sound) (hu : u.Sound) (hplan : f.plan u = .ok plan) :
    u.store.decls.length ≤ (f.carryOut u plan registry).store.decls.length := by
  obtain ⟨hplans, -⟩ := plan_eq_ok hu hplan
  have hsub : plan.map (·.target.id) ⊆ Id.all (f.carryOut u plan registry).store.decls := by
    intro d hd
    obtain ⟨p, hp, rfl⟩ := List.mem_map.mp hd
    obtain ⟨y, hy, -⟩ := (hplans.merging_carryOut hf hu List.prefix_rfl).node p hp
    exact Id.mem_all_of_get? hy
  have hle := (List.subperm_of_subset (hplans.nodup_targets hf) hsub).length_le
  rw [List.length_map, length_plan hu hplan, Id.length_all] at hle
  exact hle

/-- Under the renaming of a merge without joins the arena of the unit lies inside that of the
forest. -/
theorem embeds_carryOut (hf : f.Sound) (hnamed : f.RootNamed) (hu : u.Sound)
    (hname : ∀ {x}, u.root.get? u.store.decls = some x → x.name = "::" ∧ x.anonymous = none)
    (hplan : f.plan u = .ok plan)
    (hapart : f.settings.joinDeclarations = false ∨ f.keys = []) :
    u.store.Embeds (f.planRenaming u plan) (f.carryOut u plan registry).store := by
  obtain ⟨hplans, -⟩ := plan_eq_ok hu hplan
  have hmerging := hplans.merging_carryOut hf hu List.prefix_rfl
  constructor
  case type =>
    intro t node ht
    rw [types_carryOut]
    exact type_renamingOf ht
  case decl =>
    intro d x hd
    obtain ⟨p, hp, rfl, -, htarget⟩ := exists_image hu hplan hd
    obtain ⟨y, hy, hkind, hparent⟩ := hmerging.node p hp
    rw [htarget]
    refine ⟨y, hy, ?_⟩
    cases ht : p.target with
    | new e =>
      rw [ht] at hy
      have hcopy : e.get? (f.carryOut u plan registry).store.decls = some y := hy
      exact hplans.alike_new hf hu hp ht hcopy
    | joined e =>
      obtain ⟨hroot, he⟩ := hplans.root_of_joined hapart hp ht
      obtain ⟨x, hx, -, hspace⟩ := hu.tree.root_held rfl
      rw [hroot] at hx
      cases hx
      obtain ⟨z, hz, -⟩ := hf.tree.root_held he
      obtain ⟨w, hw, hzw⟩ := hmerging.grows hz
      rw [ht] at hy
      cases hw.symm.trans hy
      refine Renaming.alike_of_namespaces (hu.tree.fitting hroot) hspace
        (hmerging.sound.tree.fitting hy) (hkind.trans hspace) ?_ hparent ?_
      · rw [hzw.name, (hnamed e z he hz).1, (hname hroot).1]
      · rw [hzw.anonymous, (hnamed e z he hz).2, (hname hroot).2]
  case injective =>
    rintro d e ⟨x, hx⟩ ⟨y, hy⟩ heq
    exact decl_planRenaming_inj hf hu hplan hx hy heq
  case types =>
    rw [types_carryOut, List.length_append, List.length_map]
    exact Nat.le_add_left _ _
  case decls => exact length_le_carryOut hf hu hplan

theorem embeds_freeze {s : Store} {r : Renaming} (hs : f.Sound) (h : s.Embeds r f.store)
    (hroot : f.root = some d) : s.Embeds r f.freeze.store := by
  obtain ⟨change, hneutral, hstore⟩ := exists_neutral_freeze hs
  rw [hstore, rooted_of_root hroot]
  exact h.mapDecls hneutral

end Forest

namespace Run

variable {units : List (List Record)} {lone : Bool} {f g : Forest} {settings : BuilderSettings}
  {unit : UnitId} {records : List Record} {u : ResolvedUnit} {summary : MergeSummary}

theorem rootNamed (h : Run units lone f) : f.RootNamed := by
  have hboth : f.Sound ∧ f.RootNamed := by
    refine Run.invariant (P := fun _ _ f ↦ f.Sound ∧ f.RootNamed) ?_ ?_ ?_ h
    · intro settings
      refine ⟨Forest.sound_empty settings, fun d x hd ↦ ?_⟩
      cases hd
    · rintro units lone f g settings unit records u summary ⟨hs, hf⟩ hbuild hok
      obtain ⟨hu, -, -⟩ := buildUnit_eq_ok hbuild
      obtain ⟨r, hmerged⟩ := Forest.merge_eq_ok hs hu hok
      exact ⟨hmerged.sound, hf.merge hs hu (root_of_buildUnit hbuild) hok⟩
    · rintro units lone f ⟨hs, hf⟩
      exact ⟨hs.reopen.1, hf.reopen hs⟩
  exact hboth.2

theorem keys_eq_nil (h : Run units lone f) (hunits : units = []) : f.keys = [] := by
  refine Run.invariant (P := fun units _ f ↦ units = [] → f.keys = []) ?_ ?_ ?_ h hunits
  · exact fun settings _ ↦ rfl
  · intro units lone f g settings unit records u summary _ _ _ hnil
    simp at hnil
  · intro units lone f hf hnil
    rw [Forest.keys_reopen]
    exact hf hnil

/-- A unit that is merged without joins, or as the first one, looks in the frozen graph as it did on
its own. -/
theorem mirrors_merge (h : Run units lone f) (hbuild : buildUnit settings unit records = .ok u)
    (hapart : f.settings.joinDeclarations = false ∨ units = [])
    (hok : f.merge u = .ok (g, summary)) : ∃ plan registry, f.plan u = .ok plan ∧
      u.registry.rebind (f.planRenaming u plan).node = .ok registry ∧
        g.registries = f.registries ++ [registry] ∧
          u.store.Mirrors (f.planRenaming u plan) g.freeze.store := by
  obtain ⟨hu, -, -⟩ := buildUnit_eq_ok hbuild
  obtain ⟨r, hmerged⟩ := Forest.merge_eq_ok h.sound hu hok
  have hsound := (h.merge hbuild hok).sound
  obtain ⟨-, plan, registry, hplan, hregistry, rfl, -⟩ := Forest.merge_eq_ok_iff.mp hok
  refine ⟨plan, registry, hplan, hregistry, rfl, ?_⟩
  have hembeds : u.store.Embeds (f.planRenaming u plan) (f.carryOut u plan registry).store :=
    Forest.embeds_carryOut h.sound h.rootNamed hu (root_of_buildUnit hbuild) hplan
      (hapart.imp_right h.keys_eq_nil)
  obtain ⟨d, hroot⟩ := Option.ne_none_iff_exists'.mp hmerged.rooted
  refine (Forest.embeds_freeze hsound hembeds hroot).mirrors hu.closed (acyclic_of_buildUnit hbuild)
    Forest.type_planRenaming_injective fun ⟨x, hx⟩ ↦ ?_
  obtain ⟨key, -, hkey⟩ := get?_signatureKeys hbuild hx
  exact ⟨key, hkey⟩

end Run

theorem mirrors_sample : ∃ f u g summary, Run [Sample.aliased] false f ∧
    buildUnit f.settings f.nextUnit Sample.aliased = .ok u ∧
    f.settings.joinDeclarations = false ∧ f.merge u = .ok (g, summary) ∧ summary.added = 2 ∧
    u.store.spell false ⟨2⟩ = .ok "t" ∧ g.freeze.store.spell false ⟨4⟩ = .ok "t" := by
  have h : (fun k : MergeStep × MergeStep ↦ (k.2.before.settings.joinDeclarations,
        k.2.summary.added, k.2.before.store.types.length, k.2.unit.store.types,
        k.2.unit.store.spell false ⟨2⟩)) <$> (do
      let m ← Forest.mergeStep { settings := { joinDeclarations := false } } Sample.aliased
      let n ← m.after.mergeStep Sample.aliased
      return (m, n)) = .ok (false, 2, 2, [.declared ⟨2⟩, .declared ⟨3⟩], .ok "t") := by
    cbv
  obtain ⟨⟨m, n⟩, hboth, hdata⟩ := Outcome.map_eq_ok h
  obtain ⟨k, hm, hboth⟩ := Outcome.bind_eq_ok hboth
  obtain ⟨l, hn, hboth⟩ := Outcome.bind_eq_ok hboth
  cases hboth
  simp only [Prod.mk.injEq] at hdata
  obtain ⟨hjoin, hadded, hlength, htypes, htext⟩ := hdata
  obtain ⟨-, -, -, hbuild, hplan, hok⟩ := Forest.mergeStep_eq_ok hm
  obtain ⟨hbefore, -, -, hbuild', hplan', hok'⟩ := Forest.mergeStep_eq_ok hn
  rw [hbefore] at hjoin hlength
  have hrun : Run [Sample.aliased] false m.after := (Run.start _).merge hbuild hok
  obtain ⟨plan, registry, -, -, -, hmirrors⟩ := hrun.mirrors_merge hbuild' (.inl hjoin) hok'
  have hheld : n.unit.store.HoldsType ⟨2⟩ := ⟨.declared ⟨3⟩, by rw [htypes]; rfl⟩
  have himage : (m.after.planRenaming n.unit plan).type ⟨2⟩ = ⟨4⟩ :=
    congrArg (fun n ↦ Id.mk (2 + n)) hlength
  refine ⟨m.after, n.unit, n.after, n.summary, hrun, hbuild', hjoin, hok', hadded, htext, ?_⟩
  rw [← himage]
  exact (hmirrors.spell hheld false "t").mpr htext

end ScopeForest
