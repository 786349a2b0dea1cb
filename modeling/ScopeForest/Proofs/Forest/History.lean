import ScopeForest.Proofs.Forest.Placed

namespace ScopeForest

/-- A merge: the unit with what it was built from, the plan, and the forests around it. -/
structure MergeStep where
  records : List Record
  settings : BuilderSettings
  unit : ResolvedUnit
  plan : List Placement
  before : Forest
  after : Forest
  summary : MergeSummary

/-- The merges that led to a forest, in order. -/
inductive History : List MergeStep → Forest → Prop
  | start (settings : BuilderSettings) : History [] { settings }
  | merge {steps : List MergeStep} {m : MergeStep} {unit : UnitId} (h : History steps m.before)
      (hbuild : buildUnit m.settings unit m.records = .ok m.unit)
      (hplan : m.before.plan m.unit = .ok m.plan)
      (hok : m.before.merge m.unit = .ok (m.after, m.summary)) : History (steps ++ [m]) m.after
  | reopen {steps : List MergeStep} {f : Forest} (h : History steps f) :
      History steps f.freeze.reopen

theorem Run.history {units : List (List Record)} {lone : Bool} {f : Forest}
    (h : Run units lone f) : ∃ steps, History steps f ∧ steps.map (·.records) = units := by
  refine Run.invariant
    (P := fun units _ f ↦ ∃ steps, History steps f ∧ steps.map (·.records) = units) ?_ ?_ ?_ h
  · exact fun settings ↦ ⟨[], .start settings, rfl⟩
  · rintro units lone f g settings unit records u summary ⟨steps, hsteps, rfl⟩ hbuild hok
    obtain ⟨-, plan, registry, hplan, -⟩ := Forest.merge_eq_ok_iff.mp hok
    let m : MergeStep := ⟨records, settings, u, plan, f, g, summary⟩
    exact ⟨steps ++ [m], .merge (m := m) hsteps hbuild hplan hok, by simp [m]⟩
  · rintro units lone f ⟨steps, hsteps, rfl⟩
    exact ⟨steps, hsteps.reopen, rfl⟩

theorem History.run {steps : List MergeStep} {f : Forest} (h : History steps f) :
    ∃ lone, Run (steps.map (·.records)) lone f := by
  induction h with
  | start settings => exact ⟨false, .start settings⟩
  | merge _ hbuild _ hok ih =>
    obtain ⟨lone, hrun⟩ := ih
    rw [List.map_append]
    exact ⟨lone, hrun.merge hbuild hok⟩
  | reopen _ ih =>
    obtain ⟨lone, hrun⟩ := ih
    exact ⟨_, hrun.reopen⟩

def Forest.mergeStep (f : Forest) (records : List Record) : Outcome MergeStep := do
  let unit ← buildUnit f.settings f.nextUnit records
  let plan ← f.plan unit
  let (after, summary) ← f.merge unit
  return ⟨records, f.settings, unit, plan, f, after, summary⟩

theorem Forest.mergeStep_eq_ok {f : Forest} {records : List Record} {m : MergeStep}
    (h : f.mergeStep records = .ok m) : m.before = f ∧ m.records = records ∧
      m.settings = f.settings ∧ buildUnit f.settings f.nextUnit records = .ok m.unit ∧
      f.plan m.unit = .ok m.plan ∧ f.merge m.unit = .ok (m.after, m.summary) := by
  obtain ⟨u, hbuild, h⟩ := Outcome.bind_eq_ok h
  obtain ⟨plan, hplan, h⟩ := Outcome.bind_eq_ok h
  obtain ⟨⟨after, summary⟩, hok, h⟩ := Outcome.bind_eq_ok h
  cases h
  exact ⟨rfl, rfl, rfl, hbuild, hplan, hok⟩

theorem History.mergeStep {steps : List MergeStep} {f : Forest} {records : List Record}
    {m : MergeStep} (h : History steps f) (hm : f.mergeStep records = .ok m) :
    History (steps ++ [m]) m.after := by
  obtain ⟨hbefore, hrecords, hsettings, hbuild, hplan, hok⟩ := Forest.mergeStep_eq_ok hm
  subst hbefore hrecords
  rw [← hsettings] at hbuild
  exact h.merge hbuild hplan hok

namespace MergeStep

def carriers (m : MergeStep) (key : MergeKey) : List Placement := ScopeForest.carriers m.plan key

def created (m : MergeStep) (key : MergeKey) : List DeclId :=
  ((m.carriers key).filter (·.target.isNew)).map (·.target.id)

/-- A merge gives each declaration of its unit a node of its own, and only the first one with a key
may share the node of that key with other units. -/
structure Lossless (m : MergeStep) : Prop where
  order : m.plan.map (·.source.id) = m.unit.store.preorder m.unit.root
  complete : ∀ x ∈ m.unit.store.decls, ∃ p ∈ m.plan, p.source = x
  /-- The plan is the view that the unit has of the forest. -/
  bound : ∃ registry, m.after.registries = m.before.registries ++ [registry] ∧
    ∀ p ∈ m.plan, registry.NamesDecl p.source.externalId p.target.id
  injective : (m.plan.map (·.target.id)).Nodup
  fresh : ∀ p ∈ m.plan, p.target.isNew = true ↔ p.target.id.get? m.before.store.decls = none
  total : m.summary.added + m.summary.joined = m.unit.store.decls.length
  grows : m.after.store.decls.length = m.before.store.decls.length + m.summary.added
  /-- A key is the node of the scope, the kind, the name and the signature; the root and unnamed
  scopes have none. -/
  key : ∀ p ∈ m.plan, match p.source.parent with
    | none => p.key = none
    | some scope => if p.source.isAnonymous then p.key = none
      else ∃ q ∈ m.plan, q.source.id = scope ∧
        ∃ step, m.unit.keyStep p.source = .ok step ∧ p.key = some (step.under q.target.id)
  joins : ∀ {key : MergeKey} {d : DeclId} {first : Placement} {rest : List Placement},
    m.before.keyed? key = some d → m.carriers key = first :: rest →
      first.target = .joined d ∧ (∀ p ∈ rest, p.target.isNew = true) ∧ m.after.keyed? key = some d
  starts : ∀ {key : MergeKey} {first : Placement} {rest : List Placement},
    m.before.keyed? key = none → m.carriers key = first :: rest →
      (∀ p ∈ first :: rest, p.target.isNew = true) ∧ m.after.keyed? key = some first.target.id

end MergeStep

namespace Forest

variable {f : Forest} {u : ResolvedUnit} {plan : List Placement}

theorem Plans.key (hjoin : f.settings.joinDeclarations = true) (hu : u.Sound) (h : f.Plans u plan) :
    ∀ p ∈ plan, match p.source.parent with
      | none => p.key = none
      | some scope => if p.source.isAnonymous then p.key = none
        else ∃ q ∈ plan, q.source.id = scope ∧
          ∃ step, u.keyStep p.source = .ok step ∧ p.key = some (step.under q.target.id) := by
  induction h with
  | root hx =>
    intro p hp
    rw [List.mem_singleton.mp hp]
    obtain ⟨y, hy, hparent, -⟩ := hu.tree.root_held rfl
    rw [hx] at hy
    cases hy
    simp [hparent]
  | @snoc done x q scope key h hx _ hq hscope hkey ih =>
    intro p hp
    rcases List.mem_append.mp hp with hp | hp
    · have hold := ih p hp
      split at hold
      next => exact hold
      next =>
        split at hold
        next hanonymous => exact if_pos hanonymous ▸ hold
        next hnamed =>
          obtain ⟨o, ho, hoid, hstep⟩ := hold
          rw [if_neg hnamed]
          exact ⟨o, List.mem_append_left _ ho, hoid, hstep⟩
    · rw [List.mem_singleton.mp hp]
      simp only [hq]
      have hcases := keyOf_of_join hjoin hkey
      split at hcases
      next hanonymous =>
        rw [if_pos hanonymous]
        exact hcases
      next hnamed =>
        obtain ⟨step, hstep, hkey⟩ := hcases
        obtain ⟨o, ho, hoid, rfl⟩ := placed?_eq_some hscope
        rw [if_neg hnamed]
        exact ⟨o, List.mem_append_left _ ho, hoid, step, hstep, hkey⟩

theorem added_add_joined (hu : u.Sound) (h : f.plan u = .ok plan) :
    (summary u plan).added + (summary u plan).joined = u.store.decls.length := by
  have hlength := List.length_eq_countP_add_countP (·.target.isNew) (l := plan)
  rw [← length_plan hu h, hlength]
  simp [summary]

end Forest

namespace History

variable {steps : List MergeStep} {f : Forest} {m : MergeStep}

theorem settings_eq (h : History steps f) : ∀ m ∈ steps, m.before.settings = f.settings := by
  induction h with
  | start settings => exact fun m hm ↦ absurd hm List.not_mem_nil
  | @merge steps m _ hbefore hbuild _ hok ih =>
    obtain ⟨lone, hrun⟩ := hbefore.run
    obtain ⟨r, hmerged⟩ := Forest.merge_eq_ok hrun.sound (buildUnit_eq_ok hbuild).1 hok
    intro n hn
    rw [hmerged.settings]
    rcases List.mem_append.mp hn with hn | hn
    · exact ih n hn
    · rw [List.mem_singleton.mp hn]
  | @reopen _ f _ ih =>
    have hsettings : f.freeze.reopen.settings = f.settings := by
      cases hroot : f.root with
      | some d => simp [Forest.freeze, Graph.reopen, Forest.rooted_of_root hroot]
      | none => simp [Forest.freeze, Graph.reopen, Forest.rooted_of_none hroot, Forest.addNode,
          loneRoot, Forest.setDecls]
    intro n hn
    rw [hsettings]
    exact ih n hn

theorem exists_before (h : History steps f) (hm : m ∈ steps) :
    ∃ done, done ++ [m] <+: steps ∧ History done m.before ∧
      buildUnit m.settings m.unit.unit m.records = .ok m.unit ∧
      m.before.plan m.unit = .ok m.plan ∧ m.before.merge m.unit = .ok (m.after, m.summary) := by
  induction h with
  | start settings => cases hm
  | merge hbefore hbuild hplan hok ih =>
    rcases List.mem_append.mp hm with hm | hm
    · obtain ⟨done, hdone, hrest⟩ := ih hm
      exact ⟨done, hdone.trans (List.prefix_append _ _), hrest⟩
    · rw [List.mem_singleton.mp hm]
      have hunit := (buildUnit_eq_ok hbuild).2.1
      exact ⟨_, List.prefix_rfl, hbefore, hunit ▸ hbuild, hplan, hok⟩
  | reopen _ ih => exact ih hm

end History

namespace MergeStep

variable {m : MergeStep}

theorem carryOut_plan (hplan : m.before.plan m.unit = .ok m.plan)
    (hok : m.before.merge m.unit = .ok (m.after, m.summary)) :
    ∃ registry, m.unit.registry.rebind (m.before.planRenaming m.unit m.plan).node = .ok registry ∧
      m.after = m.before.carryOut m.unit m.plan registry ∧
      m.summary = Forest.summary m.unit m.plan := by
  obtain ⟨-, plan, registry, hplan', hregistry, hafter, hsummary⟩ := Forest.merge_eq_ok_iff.mp hok
  rw [hplan] at hplan'
  cases hplan'
  exact ⟨registry, hregistry, hafter, hsummary⟩

theorem lossless_of_merge (hjoin : m.before.settings.joinDeclarations = true) (hf : m.before.Sound)
    (hkeys : m.before.KeyedOnce) (hu : m.unit.Sound)
    (hplan : m.before.plan m.unit = .ok m.plan)
    (hok : m.before.merge m.unit = .ok (m.after, m.summary)) : m.Lossless := by
  obtain ⟨registry, hregistry, hafter, hsummary⟩ := carryOut_plan hplan hok
  obtain ⟨hplans, -⟩ := Forest.plan_eq_ok hu hplan
  constructor
  case order => exact Forest.ids_plan hu hplan
  case complete =>
    intro x hx
    obtain ⟨d, hd⟩ := Id.exists_get?_of_mem (k := .decl) hx
    exact Forest.exists_placement hu hplan hd
  case bound =>
    refine ⟨registry, by rw [hafter, Forest.carryOut], fun p hp ↦ ?_⟩
    rw [Registry.NamesDecl, Forest.get?_rebind hregistry,
      hu.named (hplans.get?_source hu p hp), Option.map_some, Renaming.node,
      Forest.decl_planRenaming (hplans.placed?_source p hp)]
  case injective => exact hplans.nodup_targets hf
  case fresh =>
    intro p hp
    rw [hplans.isNew_iff hf hp]
    constructor
    · intro hlt
      rw [← Option.not_isSome_iff_eq_none, Option.isSome_iff_exists, Id.exists_get?_iff]
      omega
    · intro hnone
      have hpos : 0 < p.target.id.val := by
        obtain ⟨y, hy, -⟩ := (hplans.merging_carryOut hf hu List.prefix_rfl).node p hp
        exact (Id.val_pos_of_get? hy).1
      have hnot : ¬∃ y, p.target.id.get? m.before.store.decls = some y := by simp [hnone]
      rw [Id.exists_get?_iff] at hnot
      omega
  case total =>
    rw [hsummary]
    exact Forest.added_add_joined hu hplan
  case grows =>
    rw [hafter, hsummary]
    exact (hplans.merging_carryOut hf hu List.prefix_rfl).length
  case key => exact hplans.key hjoin hu
  case joins =>
    intro key d first rest hkey hc
    obtain ⟨hfirst, hrest⟩ := hplans.carriers_joined hf hkeys hkey hc
    refine ⟨hfirst, hrest, ?_⟩
    rw [hafter, Forest.keyed?_carryOut, hkey]
    rfl
  case starts =>
    intro key first rest hkey hc
    have hnew := hplans.carriers_new hkey
    rw [show ScopeForest.carriers m.plan key = first :: rest from hc] at hnew
    refine ⟨hnew, ?_⟩
    rw [hafter, Forest.keyed?_carryOut, hkey,
      Forest.binder?_of_carriers hc (hnew first List.mem_cons_self)]
    rfl

theorem length_created_of_bound (h : m.Lossless) {key : MergeKey} {d : DeclId}
    (hkey : m.before.keyed? key = some d) :
    (m.created key).length = (m.carriers key).length - 1 := by
  unfold created
  cases hc : m.carriers key with
  | nil => rfl
  | cons first rest =>
    obtain ⟨hfirst, hrest, -⟩ := h.joins hkey hc
    have hnot : first.target.isNew = false := by simp [hfirst, Target.isNew]
    rw [List.filter_cons, hnot, List.filter_eq_self.mpr hrest]
    simp

theorem length_created_of_free (h : m.Lossless) {key : MergeKey}
    (hkey : m.before.keyed? key = none) : (m.created key).length = (m.carriers key).length := by
  unfold created
  cases hc : m.carriers key with
  | nil => rfl
  | cons first rest =>
    rw [List.filter_eq_self.mpr (h.starts hkey hc).1]
    simp

theorem nodup_created (h : m.Lossless) (key : MergeKey) : (m.created key).Nodup := by
  have hsublist : ((m.carriers key).filter (·.target.isNew)).Sublist m.plan :=
    List.filter_sublist.trans List.filter_sublist
  exact h.injective.sublist (hsublist.map _)

theorem mem_created {key : MergeKey} {d : DeclId} : d ∈ m.created key ↔
    ∃ p ∈ m.plan, p.key = some key ∧ p.target = .new d := by
  simp only [created, carriers, List.mem_map, List.mem_filter, Forest.mem_carriers]
  constructor
  · rintro ⟨p, ⟨⟨hp, hkey⟩, hnew⟩, rfl⟩
    refine ⟨p, hp, hkey, ?_⟩
    cases ht : p.target with
    | new d => rfl
    | joined d => simp [ht, Target.isNew] at hnew
  · rintro ⟨p, hp, hkey, ht⟩
    exact ⟨p, ⟨⟨hp, hkey⟩, by simp [ht, Target.isNew]⟩, by simp [ht, Target.id]⟩

end MergeStep

section Counting

variable {steps : List MergeStep} {f : Forest} {m : MergeStep} {key : MergeKey}

def createdUnder (steps : List MergeStep) (key : MergeKey) : List DeclId :=
  steps.flatMap (·.created key)

def repeated (steps : List MergeStep) (key : MergeKey) : Nat :=
  (steps.map fun m ↦ (m.carriers key).length - 1).sum

theorem createdUnder_append (steps : List MergeStep) (m : MergeStep) (key : MergeKey) :
    createdUnder (steps ++ [m]) key = createdUnder steps key ++ m.created key := by
  simp [createdUnder]

theorem repeated_append (steps : List MergeStep) (m : MergeStep) (key : MergeKey) :
    repeated (steps ++ [m]) key = repeated steps key + ((m.carriers key).length - 1) := by
  simp [repeated]

theorem History.get?_created (h : History steps f) :
    ∀ d ∈ createdUnder steps key, ∃ x, d.get? f.store.decls = some x := by
  induction h with
  | start settings => exact fun d hd ↦ absurd hd List.not_mem_nil
  | @merge steps m _ hbefore hbuild hplan hok ih =>
    obtain ⟨lone, hrun⟩ := hbefore.run
    obtain ⟨hu, -⟩ := buildUnit_eq_ok hbuild
    obtain ⟨r, hmerged⟩ := Forest.merge_eq_ok hrun.sound hu hok
    obtain ⟨registry, -, hafter, -⟩ := m.carryOut_plan hplan hok
    intro d hd
    rw [createdUnder_append] at hd
    rcases List.mem_append.mp hd with hd | hd
    · obtain ⟨x, hx⟩ := ih d hd
      obtain ⟨y, hy, -⟩ := hmerged.grows.decls hx
      exact ⟨y, hy⟩
    · obtain ⟨p, hp, -, ht⟩ := MergeStep.mem_created.mp hd
      have hplans := (Forest.plan_eq_ok hu hplan).1
      obtain ⟨y, hy, -⟩ := (hplans.merging_carryOut hrun.sound hu List.prefix_rfl).node p hp
      rw [ht] at hy
      rw [hafter]
      exact ⟨y, hy⟩
  | reopen h ih =>
    obtain ⟨lone, hrun⟩ := h.run
    intro d hd
    obtain ⟨x, hx⟩ := ih d hd
    obtain ⟨y, hy, -⟩ := hrun.sound.reopen.2.decls hx
    exact ⟨y, hy⟩

theorem History.forall_lossless (h : History steps f)
    (hjoin : f.settings.joinDeclarations = true) : ∀ m ∈ steps, m.Lossless := by
  intro m hm
  obtain ⟨done, -, hbefore, hbuild, hplan, hok⟩ := h.exists_before hm
  obtain ⟨lone, hrun⟩ := hbefore.run
  rw [← h.settings_eq m hm] at hjoin
  exact m.lossless_of_merge hjoin hrun.sound hrun.keyedOnce (buildUnit_eq_ok hbuild).1 hplan hok

theorem History.nodup_createdUnder (h : History steps f)
    (hlossless : ∀ m ∈ steps, m.Lossless) : (createdUnder steps key).Nodup := by
  induction h with
  | start settings => exact List.nodup_nil
  | @merge steps m _ hbefore _ _ _ ih =>
    have hm := hlossless m (List.mem_append_right _ List.mem_cons_self)
    have hsteps := ih fun n hn ↦ hlossless n (List.mem_append_left _ hn)
    rw [createdUnder_append, List.nodup_append]
    refine ⟨hsteps, MergeStep.nodup_created hm key, ?_⟩
    -- what was created before is held, and a new node is not
    rintro d hd e he rfl
    obtain ⟨x, hx⟩ := hbefore.get?_created d hd
    obtain ⟨p, hp, -, ht⟩ := MergeStep.mem_created.mp he
    have hfree := (hm.fresh p hp).mp (by simp [ht, Target.isNew])
    rw [ht, Target.id, hx] at hfree
    cases hfree
  | reopen _ ih => exact ih hlossless

/-- The first unit that presents a key has one node more for it than it repeats the key, and the
others just as many as they repeat it. -/
theorem History.length_createdUnder (h : History steps f) (hlossless : ∀ m ∈ steps, m.Lossless)
    (key : MergeKey) :
    (createdUnder steps key).length =
      (if f.keyed? key = none then 0 else 1) + repeated steps key ∧
        (f.keyed? key = none ↔ ∀ m ∈ steps, m.carriers key = []) := by
  induction h with
  | start settings => simp [createdUnder, repeated, Forest.keyed?]
  | @merge steps m _ hbefore _ hplan hok ih =>
    have hm := hlossless m (List.mem_append_right _ List.mem_cons_self)
    obtain ⟨hcount, hfree⟩ := ih fun n hn ↦ hlossless n (List.mem_append_left _ hn)
    obtain ⟨registry, -, hafter, -⟩ := m.carryOut_plan hplan hok
    rw [createdUnder_append, List.length_append, repeated_append, hcount]
    simp only [List.forall_mem_append, List.forall_mem_singleton, ← hfree]
    cases hkey : m.before.keyed? key with
    | some d =>
      have hkept : m.after.keyed? key = some d := by
        rw [hafter, Forest.keyed?_carryOut, hkey]
        rfl
      rw [MergeStep.length_created_of_bound hm hkey, hkept]
      simp
      omega
    | none =>
      rw [MergeStep.length_created_of_free hm hkey]
      cases hc : m.carriers key with
      | nil =>
        have hnobody : Forest.binder? m.plan key = none := by
          have hall : ∀ p ∈ m.plan, ¬p.key = some key := by
            intro p hp hpk
            have hmem : p ∈ m.carriers key := Forest.mem_carriers.mpr ⟨hp, hpk⟩
            rw [hc] at hmem
            cases hmem
          rw [Forest.binder?, List.find?_eq_none]
          intro p hp
          simp [hall p hp]
        have hstill : m.after.keyed? key = none := by
          rw [hafter, Forest.keyed?_carryOut, hkey, hnobody]
          rfl
        simp [hstill]
      | cons first rest =>
        rw [(hm.starts hkey hc).2]
        simp
        omega
  | @reopen _ f _ ih =>
    rw [Forest.keyed?, Forest.keys_reopen]
    exact ih hlossless

end Counting

/-- No merge of a run loses a declaration or lets two of them share a node, and over the whole run
the nodes created under a key are one and one more for each declaration that repeats the key in its
unit. -/
theorem Run.lossless {units : List (List Record)} {lone : Bool} {f : Forest}
    (h : Run units lone f) (hjoin : f.settings.joinDeclarations = true) :
    (∃ steps, History steps f ∧ steps.map (·.records) = units) ∧ ∀ steps, History steps f →
      (∀ m ∈ steps, m.Lossless) ∧ ∀ key, (∃ m ∈ steps, m.carriers key ≠ []) →
        (createdUnder steps key).Nodup ∧
          (∀ d ∈ createdUnder steps key, ∃ x, d.get? f.store.decls = some x) ∧
          (createdUnder steps key).length = 1 + repeated steps key := by
  refine ⟨h.history, fun steps hsteps ↦ ?_⟩
  have hlossless := hsteps.forall_lossless hjoin
  refine ⟨hlossless, fun key hkey ↦ ⟨hsteps.nodup_createdUnder hlossless, hsteps.get?_created, ?_⟩⟩
  obtain ⟨hcount, hfree⟩ := hsteps.length_createdUnder hlossless key
  have hbound : ¬f.keyed? key = none := by
    intro hnone
    obtain ⟨m, hm, hc⟩ := hkey
    exact hc (hfree.mp hnone m hm)
  rw [hcount, if_neg hbound]

theorem lossless_sample : ∃ f steps, Run [Sample.header, Sample.source] false f ∧
    f.settings.joinDeclarations = true ∧ History steps f ∧
    f.keyed? ⟨⟨1⟩, .namespaceDecl, "a", none⟩ = some ⟨2⟩ ∧
    (createdUnder steps ⟨⟨1⟩, .namespaceDecl, "a", none⟩).length =
      1 + repeated steps ⟨⟨1⟩, .namespaceDecl, "a", none⟩ := by
  have h : (fun f ↦ (f.settings.joinDeclarations, f.keyed? ⟨⟨1⟩, .namespaceDecl, "a", none⟩)) <$>
      Forest.ofUnits {} [Sample.header, Sample.source] = .ok (true, some ⟨2⟩) := by
    cbv
  obtain ⟨f, hf, hpair⟩ := Outcome.map_eq_ok h
  obtain ⟨hjoin, hkey⟩ := Prod.mk.inj hpair
  have hrun := Run.ofUnits hf
  obtain ⟨⟨steps, hsteps, -⟩, hall⟩ := Run.lossless hrun hjoin
  obtain ⟨hlossless, hcount⟩ := hall steps hsteps
  refine ⟨f, steps, hrun, hjoin, hsteps, hkey, (hcount _ ?_).2.2⟩
  -- a key that is bound was presented by some unit
  by_contra hnone
  have hfree := (hsteps.length_createdUnder hlossless _).2.mpr fun m hm ↦
    by_contra fun hc ↦ hnone ⟨m, hm, hc⟩
  rw [hkey] at hfree
  cases hfree

end ScopeForest
