import ScopeForest.Proofs.Forest.History
import ScopeForest.Proofs.Forest.Nodes
import ScopeForest.Proofs.Forest.Views

namespace ScopeForest

namespace MergeStep

variable {m : MergeStep} {p q : Placement} {d e : DeclId} {x y : Declaration}

def remap (m : MergeStep) : Renaming := m.before.planRenaming m.unit m.plan

/-- A merge as it occurs in a run. -/
structure Valid (m : MergeStep) : Prop where
  sound : m.before.Sound
  built : buildUnit m.settings m.unit.unit m.records = .ok m.unit
  planned : m.before.plan m.unit = .ok m.plan
  merged : m.before.merge m.unit = .ok (m.after, m.summary)

namespace Valid

variable (h : m.Valid)

include h

theorem unit : m.unit.Sound := (buildUnit_eq_ok h.built).1

theorem plans : m.before.Plans m.unit m.plan := (Forest.plan_eq_ok h.unit h.planned).1

theorem source (hp : p ∈ m.plan) : p.source.id.get? m.unit.store.decls = some p.source :=
  h.plans.get?_source h.unit p hp

theorem remap_source (hp : p ∈ m.plan) : m.remap.decl p.source.id = p.target.id :=
  Forest.decl_planRenaming (h.plans.placed?_source p hp)

theorem image (hd : d.get? m.unit.store.decls = some x) :
    ∃ p ∈ m.plan, p.source = x ∧ p.source.id = d ∧ m.remap.decl d = p.target.id :=
  Forest.exists_image h.unit h.planned hd

theorem remap_inj (hd : d.get? m.unit.store.decls = some x)
    (he : e.get? m.unit.store.decls = some y) (heq : m.remap.decl d = m.remap.decl e) : d = e :=
  Forest.decl_planRenaming_inj h.sound h.unit h.planned hd he heq

theorem nodup_targets : (m.plan.map (·.target.id)).Nodup := h.plans.nodup_targets h.sound

theorem eq_of_target (hp : p ∈ m.plan) (hq : q ∈ m.plan) (heq : p.target.id = q.target.id) :
    p = q :=
  List.inj_on_of_nodup_map h.nodup_targets hp hq heq

theorem new_lt (hp : p ∈ m.plan) (ht : p.target = .new d) :
    m.before.store.decls.length < d.val :=
  (h.plans.target_new hp ht).1

theorem grows : m.before.Grows m.after := by
  obtain ⟨r, hmerged⟩ := Forest.merge_eq_ok h.sound h.unit h.merged
  exact hmerged.grows

theorem node (hp : p ∈ m.plan) : ∃ y, p.target.id.get? m.after.store.decls = some y ∧
    y.kind = p.source.kind ∧ y.parent = p.source.parent.map m.remap.decl := by
  obtain ⟨registry, -, hafter, -⟩ := m.carryOut_plan h.planned h.merged
  rw [hafter]
  exact (h.plans.merging_carryOut h.sound h.unit List.prefix_rfl).node p hp

theorem kind_joined (hx : d.get? m.before.store.decls = some x) (hp : p ∈ m.plan)
    (hd : p.target.id = d) : p.source.kind = x.kind := by
  obtain ⟨y, hy, hkind, -⟩ := h.node hp
  obtain ⟨z, hz, hgrows⟩ := h.grows.decls hx
  rw [hd, hz] at hy
  cases hy
  exact hkind.symm.trans hgrows.kind

theorem file {i : FileId} {path : String} (hi : i.get? m.unit.files = some path) :
    (m.remap.file i).get? m.after.files = some path := by
  obtain ⟨registry, -, hafter, -⟩ := m.carryOut_plan h.planned h.merged
  have hfiles : m.after.files = internFiles m.before.files m.unit.files := by
    rw [hafter]
    exact (Forest.foldl_applyPlacement_frame _ m.plan (m.before.typed m.unit m.plan)).2.1
  rw [hfiles]
  exact Forest.file_renamingOf hi

theorem arises (hd : d.get? m.after.store.decls = some y) :
    ∃ x members, m.before.Arises m.remap m.plan d x ∧ y = x.withMembers members := by
  obtain ⟨registry, -, hafter, -⟩ := m.carryOut_plan h.planned h.merged
  rw [hafter] at hd
  exact h.plans.arises_carryOut h.sound h.unit hd

end Valid

end MergeStep

namespace History

variable {steps : List MergeStep} {f : Forest} {m n : MergeStep} {p : Placement} {d : DeclId}
  {y : Declaration}

theorem sound (h : History steps f) : f.Sound := by
  obtain ⟨lone, hrun⟩ := h.run
  exact hrun.sound

theorem valid (h : History steps f) (hm : m ∈ steps) : m.Valid := by
  obtain ⟨done, -, hbefore, hbuild, hplan, hok⟩ := h.exists_before hm
  exact ⟨hbefore.sound, hbuild, hplan, hok⟩

theorem valid_merge {unit : UnitId} (h : History steps m.before)
    (hbuild : buildUnit m.settings unit m.records = .ok m.unit)
    (hplan : m.before.plan m.unit = .ok m.plan)
    (hok : m.before.merge m.unit = .ok (m.after, m.summary)) : m.Valid :=
  (h.merge hbuild hplan hok).valid (List.mem_append_right _ List.mem_cons_self)

theorem order (h : History steps f) (hm : m ∈ steps) (hn : n ∈ steps) : n = m ∨
    (∃ done, History done m.before ∧ n ∈ done) ∨ ∃ done, History done n.before ∧ m ∈ done := by
  induction h with
  | start settings => cases hm
  | merge hbefore _ _ _ ih =>
    rcases List.mem_append.mp hm with hm | hm <;> rcases List.mem_append.mp hn with hn | hn
    · exact ih hm hn
    · rw [List.mem_singleton.mp hn]
      exact .inr (.inr ⟨_, hbefore, hm⟩)
    · rw [List.mem_singleton.mp hm]
      exact .inr (.inl ⟨_, hbefore, hn⟩)
    · exact .inl ((List.mem_singleton.mp hn).trans (List.mem_singleton.mp hm).symm)
  | reopen _ ih => exact ih hm hn

theorem grows (h : History steps f) (hm : m ∈ steps) : m.after.Grows f := by
  induction h with
  | start settings => cases hm
  | merge hbefore hbuild hplan hok ih =>
    rcases List.mem_append.mp hm with hm | hm
    · exact (ih hm).trans (hbefore.valid_merge hbuild hplan hok).grows
    · rw [List.mem_singleton.mp hm]
      exact .refl _
  | reopen hbefore ih => exact (ih hm).trans hbefore.sound.reopen.2

theorem unit_le (h : History steps f) :
    ∀ m ∈ steps, m.unit.unit.val ≤ f.registries.length := by
  induction h with
  | start settings => exact fun m hm ↦ absurd hm List.not_mem_nil
  | @merge steps m _ hbefore _ _ hok ih =>
    have hlength := Forest.length_merge hok
    have hunit := (Forest.merge_eq_ok_iff.mp hok).1
    intro n hn
    rw [hlength]
    rcases List.mem_append.mp hn with hn | hn
    · exact Nat.le_succ_of_le (ih n hn)
    · rw [List.mem_singleton.mp hn, hunit]
      exact Nat.le_refl _
  | @reopen _ f _ ih =>
    have hlength : f.freeze.reopen.registries.length = f.registries.length :=
      Forest.length_registries_freeze f
    rw [hlength]
    exact ih

/-- Every declaration that was merged still has its node, inside that of its scope. -/
theorem node (h : History steps f) (hm : m ∈ steps) (hp : p ∈ m.plan) :
    ∃ y, p.target.id.get? f.store.decls = some y ∧ y.kind = p.source.kind ∧
      y.parent = p.source.parent.map m.remap.decl := by
  obtain ⟨x, hx, hkind, hparent⟩ := (h.valid hm).node hp
  obtain ⟨y, hy, hxy⟩ := (h.grows hm).decls hx
  exact ⟨y, hy, hxy.kind.trans hkind, hxy.parent.trans hparent⟩

theorem exists_created (h : History steps f) (hd : d.get? f.store.decls = some y)
    (hparent : y.parent ≠ none) : ∃ m ∈ steps, ∃ p ∈ m.plan, p.target = .new d := by
  induction h generalizing y with
  | start settings => exact absurd (Id.mem_of_get? hd) List.not_mem_nil
  | @merge steps m _ hbefore hbuild hplan hok ih =>
    have hold {x : Declaration} (hx : d.get? m.before.store.decls = some x)
        (hxp : x.parent ≠ none) : ∃ n ∈ steps ++ [m], ∃ p ∈ n.plan, p.target = .new d := by
      obtain ⟨n, hn, hrest⟩ := ih hx hxp
      exact ⟨n, List.mem_append_left _ hn, hrest⟩
    obtain ⟨z, members, hz, rfl⟩ := (hbefore.valid_merge hbuild hplan hok).arises hd
    cases hz with
    | kept hx _ => exact hold hx hparent
    | @joined x p hx _ _ =>
      exact hold hx fun hnone ↦ hparent ((x.grows_absorb _).parent.trans hnone)
    | @new p hp ht => exact ⟨m, List.mem_append_right _ List.mem_cons_self, p, hp, ht⟩
  | reopen _ ih =>
    rcases Forest.reopen_cases hd with ⟨x, hx, rfl⟩ | ⟨-, rfl⟩
    · exact ih hx hparent
    · exact absurd rfl hparent

end History

end ScopeForest
