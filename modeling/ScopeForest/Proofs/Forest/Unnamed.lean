import ScopeForest.Proofs.Forest.Steps
import ScopeForest.Proofs.Types.Unnamed
import ScopeForest.Proofs.Unit.Rendering

namespace ScopeForest

variable {steps : List MergeStep} {f : Forest} {m : MergeStep} {p : Placement} {key : MergeKey}
  {d : DeclId}

theorem Forest.Plans.signature {u : ResolvedUnit} {plan : List Placement} (h : f.Plans u plan)
    (hp : p ∈ plan) (hkey : p.key = some key) :
    key.signature = (p.source.id.get? u.signatureKeys).join := by
  induction h with
  | root hx =>
    rw [List.mem_singleton.mp hp] at hkey
    cases hkey
  | snoc _ _ _ _ _ hok ih =>
    rcases List.mem_append.mp hp with hp | hp
    · exact ih hp
    · rw [List.mem_singleton.mp hp] at hkey ⊢
      simp only at hkey
      subst hkey
      unfold Forest.keyOf at hok
      split at hok
      next =>
        obtain ⟨name, -, hok⟩ := Outcome.bind_eq_ok hok
        cases hok
        rfl
      next => cases hok

theorem History.key_origin (h : History steps f) (hkey : f.keyed? key = some d) :
    ∃ m ∈ steps, ∃ p ∈ m.plan, p.key = some key ∧ p.target = .new d := by
  induction h with
  | start settings => cases hkey
  | @merge steps m _ hbefore hbuild hplan hok ih =>
    obtain ⟨registry, -, hafter, -⟩ := m.carryOut_plan hplan hok
    rw [hafter, Forest.keyed?_carryOut] at hkey
    cases hold : m.before.keyed? key with
    | some e =>
      rw [hold] at hkey
      cases hkey
      obtain ⟨n, hn, hrest⟩ := ih hold
      exact ⟨n, List.mem_append_left _ hn, hrest⟩
    | none =>
      rw [hold] at hkey
      obtain ⟨p, hp, hd⟩ := Option.map_eq_some_iff.mp hkey
      have hprop := List.find?_some hp
      simp only [decide_eq_true_eq] at hprop
      refine ⟨m, List.mem_append_right _ List.mem_cons_self, p, List.mem_of_find?_eq_some hp,
        hprop.1, ?_⟩
      cases ht : p.target with
      | new e =>
        rw [ht] at hd
        rw [← hd]
        rfl
      | joined e =>
        rw [ht] at hprop
        cases hprop.2
  | @reopen _ f _ ih =>
    rw [Forest.keyed?, Forest.keys_reopen] at hkey
    exact ih hkey

/-- The key of a callable ends in a tag of names that its unit made up, and the tag is there if a
parameter leads to an unnamed scope. -/
theorem MergeStep.tag_of_key (hbuild : buildUnit m.settings m.unit.unit m.records = .ok m.unit)
    (hplan : m.before.plan m.unit = .ok m.plan) (hids : ∀ r ∈ m.records, '[' ∉ r.id.toList)
    (hp : p ∈ m.plan) (hkey : p.key = some key) {c : CallableDetails}
    (hc : p.source.callableDetails? = some c) :
    ∃ text names, key.signature = some (text ++ anonymousTag names) ∧
      text.toList.getLast? ≠ some ']' ∧
      (∀ name ∈ names, IsMadeUp m.settings.anonymousPrefix m.unit.unit name) ∧
      ∀ q ∈ c.parameters, m.unit.store.ReachesUnnamed Eq q.type → names ≠ [] := by
  obtain ⟨hu, -⟩ := buildUnit_eq_ok hbuild
  have hplans := (Forest.plan_eq_ok hu hplan).1
  have hsource := hplans.get?_source hu p hp
  obtain ⟨signature, hsignature, hok⟩ := get?_signatureKeys hbuild hsource
  obtain ⟨text, names, htext, hlast, hnames, hreach⟩ := Store.signatureKey_eq_ok hok hsource hc
  refine ⟨text, names, ?_, hlast, fun name hname ↦ ?_, hreach⟩
  · rw [hplans.signature hp hkey, hsignature, htext]
    rfl
  · obtain ⟨y, hy, hyname⟩ := hnames name hname
    obtain ⟨r, hr, -, -, heq⟩ := anonymous_of_buildUnit hbuild hy hyname
    exact ⟨r.id, heq, hids r hr⟩

theorem MergeStep.callableDetails?_of_key
    (hbuild : buildUnit m.settings m.unit.unit m.records = .ok m.unit)
    (hplan : m.before.plan m.unit = .ok m.plan) (hp : p ∈ m.plan) (hkey : p.key = some key)
    {text : String} (htext : key.signature = some text) :
    ∃ c, p.source.callableDetails? = some c := by
  obtain ⟨hu, -⟩ := buildUnit_eq_ok hbuild
  have hplans := (Forest.plan_eq_ok hu hplan).1
  have hsource := hplans.get?_source hu p hp
  obtain ⟨signature, hsignature, hok⟩ := get?_signatureKeys hbuild hsource
  rw [hplans.signature hp hkey, hsignature] at htext
  cases signature with
  | none => cases htext
  | some text => exact Store.callableDetails?_of_signatureKey hok hsource

theorem Forest.Plans.joined_callable {u : ResolvedUnit} {plan : List Placement} (hu : u.Sound)
    (h : f.Plans u plan) (hp : p ∈ plan) (hjoined : p.target.isNew = false) {c : CallableDetails}
    (hc : p.source.callableDetails? = some c) : ∃ key d, p.key = some key ∧ f.keyed? key = some d := by
  induction h with
  | @root x hx =>
    exfalso
    rw [List.mem_singleton.mp hp] at hc
    obtain ⟨y, hy, -, hkind⟩ := hu.tree.root_held rfl
    rw [hx] at hy
    cases hy
    have hfits := hu.tree.fitting hx
    rcases x with ⟨_, _, _, _, _, _, _, _, _, details⟩
    cases details with
    | callable c =>
      simp only at hkind
      subst hkind
      cases hfits
    | _ => cases hc
  | @snoc done _ _ _ key _ _ _ _ _ _ ih =>
    rcases List.mem_append.mp hp with hp | hp
    · exact ih hp
    · rw [List.mem_singleton.mp hp] at hjoined ⊢
      simp only at hjoined
      cases ht : f.targetOf done (key.bind f.keyed?) with
      | new d =>
        rw [ht] at hjoined
        cases hjoined
      | joined d =>
        obtain ⟨k, hk, hd⟩ := Option.bind_eq_some_iff.mp (Forest.targetOf_joined ht)
        exact ⟨k, d, hk, hd⟩

/-- A callable joins a node of another unit only if no parameter leads to an unnamed scope, template
arguments of classes around a declaration left aside. -/
theorem History.not_reachesUnnamed_of_joined (h : History steps f)
    (hstem : '[' ∉ f.settings.anonymousPrefix.toList)
    (hbuilt : ∀ m ∈ steps, m.settings.anonymousPrefix = f.settings.anonymousPrefix ∧
      ∀ r ∈ m.records, '[' ∉ r.id.toList) :
    ∀ m ∈ steps, ∀ p ∈ m.plan, p.target.isNew = false → ∀ c ∈ p.source.callableDetails?,
      ∀ q ∈ c.parameters, ¬m.unit.store.ReachesUnnamed Eq q.type := by
  intro m hm p hp hjoined c hc q hq hreach
  obtain ⟨done, hdone, hbefore, hbuild, hplan, hok⟩ := h.exists_before hm
  obtain ⟨hu, -⟩ := buildUnit_eq_ok hbuild
  obtain ⟨hstem', hids⟩ := hbuilt m hm
  obtain ⟨key, d, hkey, hd⟩ := (Forest.plan_eq_ok hu hplan).1.joined_callable hu hp hjoined hc
  obtain ⟨text, names, hsignature, -, hnames, hne⟩ :=
    MergeStep.tag_of_key hbuild hplan hids hp hkey hc
  -- the node was created by an earlier unit, whose key is the same
  obtain ⟨m', hm', p', hp', hkey', -⟩ := hbefore.key_origin hd
  have hsub : m' ∈ steps := hdone.subset (List.mem_append_left _ hm')
  obtain ⟨-, -, -, hbuild', hplan', -⟩ := h.exists_before hsub
  obtain ⟨hstem'', hids'⟩ := hbuilt m' hsub
  obtain ⟨c', hc'⟩ := MergeStep.callableDetails?_of_key hbuild' hplan' hp' hkey' hsignature
  obtain ⟨text', names', hsignature', hlast', hnames', -⟩ :=
    MergeStep.tag_of_key hbuild' hplan' hids' hp' hkey' hc'
  rw [hsignature] at hsignature'
  rw [hstem'] at hnames
  rw [hstem''] at hnames'
  have hunits := eq_of_anonymousTag_eq hstem hnames hnames' (hne q hq hreach) hlast'
    (Option.some_inj.mp hsignature')
  have hle := hbefore.unit_le m' hm'
  rw [← hunits, (Forest.merge_eq_ok_iff.mp hok).1] at hle
  exact absurd hle (Nat.not_succ_le_self _)

def mergeTwice (records : List Record) : Outcome (MergeStep × MergeStep) := do
  let m ← Forest.mergeStep {} records
  let n ← m.after.mergeStep records
  return (m, n)

theorem history_of_mergeTwice {records : List Record} {m n : MergeStep}
    (h : mergeTwice records = .ok (m, n)) (hids : ∀ r ∈ records, '[' ∉ r.id.toList) :
    History [m, n] n.after ∧ '[' ∉ n.after.settings.anonymousPrefix.toList ∧
      ∀ k ∈ [m, n], k.settings.anonymousPrefix = n.after.settings.anonymousPrefix ∧
        ∀ r ∈ k.records, '[' ∉ r.id.toList := by
  obtain ⟨k, hm, h⟩ := Outcome.bind_eq_ok h
  obtain ⟨l, hn, h⟩ := Outcome.bind_eq_ok h
  cases h
  have hpair : History [m, n] n.after := ((History.start {}).mergeStep hm).mergeStep hn
  obtain ⟨hbefore, hrecords, hsettings, -⟩ := Forest.mergeStep_eq_ok hm
  obtain ⟨hbefore', hrecords', hsettings', -⟩ := Forest.mergeStep_eq_ok hn
  have hfirst := hpair.settings_eq m (by simp)
  have hsecond := hpair.settings_eq n (by simp)
  rw [hbefore] at hfirst
  rw [hbefore'] at hsecond
  refine ⟨hpair, ?_, fun k hk ↦ ?_⟩
  · rw [← hfirst]
    decide
  · rcases List.mem_cons.mp hk with rfl | hk
    · rw [hsettings, ← hfirst, hrecords]
      exact ⟨rfl, hids⟩
    · rw [List.mem_singleton.mp hk, hsettings', hsecond, hrecords']
      exact ⟨rfl, hids⟩

def MergeStep.lastCallable? (m : MergeStep) : Option (Target × List TypeId) := do
  let p ← m.plan.getLast?
  let c ← p.source.callableDetails?
  return (p.target, c.parameters.map (·.type))

theorem MergeStep.lastCallable?_eq_some {target : Target} {types : List TypeId}
    (h : m.lastCallable? = some (target, types)) : ∃ p ∈ m.plan, p.target = target ∧
      ∃ c ∈ p.source.callableDetails?, c.parameters.map (·.type) = types := by
  obtain ⟨p, hp, h⟩ := Option.bind_eq_some_iff.mp h
  obtain ⟨c, hc, h⟩ := Option.bind_eq_some_iff.mp h
  cases h
  exact ⟨p, List.mem_of_getLast? hp, rfl, c, hc, rfl⟩

/-- Merging a unit a second time joins its function on pointers to a class. -/
theorem not_reachesUnnamed_sample : ∃ f steps, History steps f ∧ ∃ m ∈ steps, ∃ p ∈ m.plan,
    p.target = .joined ⟨4⟩ ∧ ∃ c ∈ p.source.callableDetails?,
      c.parameters.map (·.type) = [⟨2⟩] ∧ ¬m.unit.store.ReachesUnnamed Eq ⟨2⟩ := by
  have h : (·.2.lastCallable?) <$> mergeTwice Sample.header =
      .ok (some (.joined ⟨4⟩, [⟨2⟩])) := by
    cbv
  obtain ⟨⟨m, n⟩, htwice, hlast⟩ := Outcome.map_eq_ok h
  obtain ⟨hsteps, hstem, hbuilt⟩ := history_of_mergeTwice htwice (by decide)
  obtain ⟨p, hp, htarget, c, hc, htypes⟩ := MergeStep.lastCallable?_eq_some hlast
  refine ⟨n.after, [m, n], hsteps, n, by simp, p, hp, htarget, c, hc, htypes, ?_⟩
  obtain ⟨q, hq, hqt⟩ := List.mem_map.mp (htypes ▸ List.mem_cons_self : (⟨2⟩ : TypeId) ∈ _)
  rw [← hqt]
  exact History.not_reachesUnnamed_of_joined hsteps hstem hbuilt n (by simp) p hp
    (by rw [htarget]; rfl) c hc q hq

namespace Sample

def nested : List Record :=
  [({ tag := .namespaceTag, id := "n" } : Record).withLiteral Field.name "::",
    ({ tag := .structTag, id := "a" } : Record).withRef Field.context "n",
    (({ tag := .classTag, id := "v" } : Record).withLiteral Field.name "v").withRef
      Field.context "n",
    (({ tag := .templateInstantiation, id := "t" } : Record).withRef Field.template "v").withChild
      { kind := .templateArgument, attrs := NameMap.ofList [(Field.type, .ref "a")] },
    ((({ tag := .classTag, id := "w" } : Record).withLiteral Field.name "w").withRef
      Field.context "n").withRef Field.instantiates "t",
    (({ tag := .classTag, id := "i" } : Record).withLiteral Field.name "i").withRef
      Field.context "w",
    ((({ tag := .function, id := "f" } : Record).withLiteral Field.name "f").withRef
      Field.context "n").withChild
        { kind := .argument, attrs := NameMap.ofList [(Field.type, .ref "i")] }]

end Sample

theorem reachesUnnamed_nested {s : Store}
    (htypes : s.types = [.declared ⟨2⟩, .declared ⟨3⟩, .instantiation ⟨3⟩ [.type ⟨1⟩],
      .declared ⟨4⟩, .declared ⟨5⟩])
    (hdecls : s.decls.map Sample.outline =
      [(none, false, none, none), (some ⟨1⟩, true, none, none), (some ⟨1⟩, false, none, none),
        (some ⟨1⟩, false, some ⟨3⟩, some ⟨3⟩), (some ⟨4⟩, false, none, none),
        (some ⟨1⟩, false, none, none)]) : s.ReachesUnnamed s.Below ⟨5⟩ := by
  have hget (d : DeclId) : d.get? (s.decls.map Sample.outline) = _ := Id.get?_map _
  rw [hdecls] at hget
  obtain ⟨unnamed, hunnamed, hdata⟩ := Option.map_eq_some_iff.mp (hget ⟨2⟩).symm
  obtain ⟨around, haround, hdata'⟩ := Option.map_eq_some_iff.mp (hget ⟨4⟩).symm
  obtain ⟨inner, hinner, hdata''⟩ := Option.map_eq_some_iff.mp (hget ⟨5⟩).symm
  simp only [Sample.outline, Prod.mk.injEq] at hdata hdata' hdata''
  have hargument : s.ReachesUnnamed s.Below ⟨1⟩ := by
    have hnames := Store.names_of_declared (t := ⟨1⟩) (by rw [htypes]; rfl) hunnamed hdata.2.2.1
    exact .inside hnames .refl hunnamed hdata.2.1
  have hnames := Store.names_of_declared (t := ⟨5⟩) (by rw [htypes]; rfl) hinner hdata''.2.2.1
  have hargs : (⟨3⟩ : TypeId).get? s.types = some (.instantiation ⟨3⟩ [.type ⟨1⟩]) := by
    rw [htypes]
    rfl
  exact .argument hnames (.step hinner hdata''.1 .refl) haround hdata'.2.2.2 hargs
    List.mem_cons_self hargument

/-- The argument of the class around the inner class leads to an unnamed structure of each unit, and
still the function of the second unit joins that of the first. -/
theorem joined_of_unnamed_around : ∃ f steps, History steps f ∧
    '[' ∉ f.settings.anonymousPrefix.toList ∧
    (∀ m ∈ steps, m.settings.anonymousPrefix = f.settings.anonymousPrefix ∧
      ∀ r ∈ m.records, '[' ∉ r.id.toList) ∧
    ∃ m ∈ steps, ∃ p ∈ m.plan, p.target.isNew = false ∧ ∃ c ∈ p.source.callableDetails?,
      ∃ q ∈ c.parameters, m.unit.store.ReachesUnnamed m.unit.store.Below q.type := by
  have h : (fun k ↦ (k.2.lastCallable?, k.2.unit.store.types,
        k.2.unit.store.decls.map Sample.outline)) <$> mergeTwice Sample.nested =
      .ok (some (.joined ⟨6⟩, [⟨5⟩]),
        [.declared ⟨2⟩, .declared ⟨3⟩, .instantiation ⟨3⟩ [.type ⟨1⟩], .declared ⟨4⟩, .declared ⟨5⟩],
        [(none, false, none, none), (some ⟨1⟩, true, none, none), (some ⟨1⟩, false, none, none),
          (some ⟨1⟩, false, some ⟨3⟩, some ⟨3⟩), (some ⟨4⟩, false, none, none),
          (some ⟨1⟩, false, none, none)]) := by
    cbv
  obtain ⟨⟨m, n⟩, htwice, hdata⟩ := Outcome.map_eq_ok h
  simp only [Prod.mk.injEq] at hdata
  obtain ⟨hlast, htypes, hdecls⟩ := hdata
  obtain ⟨hsteps, hstem, hbuilt⟩ := history_of_mergeTwice htwice (by decide)
  obtain ⟨p, hp, htarget, c, hc, hparams⟩ := MergeStep.lastCallable?_eq_some hlast
  obtain ⟨q, hq, hqt⟩ := List.mem_map.mp (hparams ▸ List.mem_cons_self : (⟨5⟩ : TypeId) ∈ _)
  refine ⟨n.after, [m, n], hsteps, hstem, hbuilt, n, by simp, p, hp, by rw [htarget]; rfl, c, hc,
    q, hq, ?_⟩
  rw [hqt]
  exact reachesUnnamed_nested htypes hdecls

end ScopeForest
