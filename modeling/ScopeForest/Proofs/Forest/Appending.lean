import ScopeForest.Proofs.Forest.History

namespace ScopeForest

/-- The class `c` is `k` with what later sightings add. -/
structure ClassDetails.Extends (k c : ClassDetails) : Prop where
  members : k.members <+: c.members
  bases : k.bases <+: c.bases
  aliases : c.aliases = k.aliases
  complete : k.isComplete = true → c.isComplete = true
  /-- A definition is never replaced. -/
  defined : k.isComplete = true → c.key = k.key ∧ c.isAbstract = k.isAbstract ∧ c.size = k.size ∧
    c.instantiates = k.instantiates

/-- Details that are no class change by members at the end, if they have any. -/
inductive Details.Extends : Details → Details → Prop
  | refl (details : Details) : Extends details details
  | scope {members more : List DeclId} (h : members <+: more) :
      Extends (.scope members) (.scope more)
  | enumeration {values more : List DeclId} (h : values <+: more) :
      Extends (.enumeration values) (.enumeration more)
  | cls {k c : ClassDetails} (h : k.Extends c) : Extends (.cls k) (.cls c)

/-- The declaration `y` is `x` with what later sightings and members add. -/
structure Declaration.Extends (x y : Declaration) : Prop where
  entity : x.Grows y
  location : x.location.isSome = true → y.location.isSome = true
  details : x.details.Extends y.details

theorem prefix_foldl_addBase (bases more : List BaseSpec) : bases <+: more.foldl addBase bases := by
  induction more generalizing bases with
  | nil => exact List.prefix_rfl
  | cons b more ih =>
    refine List.IsPrefix.trans ?_ (ih (addBase bases b))
    unfold addBase
    split
    · exact List.prefix_rfl
    · exact List.prefix_append _ _

namespace ClassDetails

theorem Extends.trans {k c e : ClassDetails} (h : k.Extends c) (h' : c.Extends e) :
    k.Extends e where
  members := h.members.trans h'.members
  bases := h.bases.trans h'.bases
  aliases := h'.aliases.trans h.aliases
  complete hk := h'.complete (h.complete hk)
  defined hk := by
    obtain ⟨hkey, habstract, hsize, hinst⟩ := h.defined hk
    obtain ⟨hkey', habstract', hsize', hinst'⟩ := h'.defined (h.complete hk)
    exact ⟨hkey'.trans hkey, habstract'.trans habstract, hsize'.trans hsize, hinst'.trans hinst⟩

theorem extends_absorb (k seen : ClassDetails) : k.Extends (k.absorb seen) := by
  have hbases := prefix_foldl_addBase k.bases seen.bases
  unfold absorb
  split
  next hdefined =>
    -- a definition is only taken over by a class that has none
    have hincomplete : k.isComplete ≠ true := by
      rw [isDefinedBy, Bool.and_eq_true] at hdefined
      simpa using hdefined.1
    exact ⟨List.prefix_rfl, hbases, rfl, fun _ ↦ rfl, fun hk ↦ absurd hk hincomplete⟩
  next => exact ⟨List.prefix_rfl, hbases, rfl, fun hk ↦ hk, fun _ ↦ ⟨rfl, rfl, rfl, rfl⟩⟩

end ClassDetails

namespace Details

theorem Extends.trans {a b c : Details} (h : a.Extends b) (h' : b.Extends c) : a.Extends c := by
  cases h with
  | refl => exact h'
  | scope hm =>
    cases h' with
    | refl => exact .scope hm
    | scope hm' => exact .scope (hm.trans hm')
  | enumeration hm =>
    cases h' with
    | refl => exact .enumeration hm
    | enumeration hm' => exact .enumeration (hm.trans hm')
  | cls hk =>
    cases h' with
    | refl => exact .cls hk
    | cls hk' => exact .cls (hk.trans hk')

end Details

namespace Declaration

theorem Extends.refl (x : Declaration) : x.Extends x := ⟨.refl x, fun h ↦ h, .refl _⟩

theorem Extends.trans {x y z : Declaration} (h : x.Extends y) (h' : y.Extends z) : x.Extends z :=
  ⟨h.entity.trans h'.entity, fun hx ↦ h'.location (h.location hx), h.details.trans h'.details⟩

theorem extends_addMember (x : Declaration) (m : DeclId) : x.Extends (x.addMember m) := by
  refine ⟨grows_addMember x m, fun h ↦ h, ?_⟩
  rcases x with ⟨_, _, _, _, _, _, _, _, _, details⟩
  cases details with
  | scope members => exact .scope (List.prefix_append _ _)
  | enumeration values => exact .enumeration (List.prefix_append _ _)
  | cls k =>
    exact .cls ⟨List.prefix_append _ _, List.prefix_rfl, rfl, fun h ↦ h, fun _ ↦
      ⟨rfl, rfl, rfl, rfl⟩⟩
  | _ => exact .refl _

theorem extends_absorb (x seen : Declaration) : x.Extends (x.absorb seen) := by
  refine ⟨grows_absorb x seen, fun h ↦ ?_, ?_⟩
  · unfold absorb
    split
    · simp only
      split <;> simp [Option.isSome_or, h]
    · simp [Option.isSome_or, h]
  · unfold absorb
    split
    next k s hk hs =>
      rw [hk]
      exact .cls (k.extends_absorb s)
    next => exact .refl _

end Declaration

namespace Forest

/-- The forest `g` holds all that `f` holds, at the same places, and more behind it. -/
structure Appends (f g : Forest) : Prop where
  settings : g.settings = f.settings
  types : f.store.types <+: g.store.types
  files : f.files <+: g.files
  registries : f.registries <+: g.registries
  keys : f.keys <+: g.keys
  length : f.store.decls.length ≤ g.store.decls.length
  decls : ∀ {d : DeclId} {x : Declaration}, d.get? f.store.decls = some x →
    ∃ y, d.get? g.store.decls = some y ∧ x.Extends y

namespace Appends

variable {f g h : Forest}

theorem refl (f : Forest) : f.Appends f :=
  ⟨rfl, List.prefix_rfl, List.prefix_rfl, List.prefix_rfl, List.prefix_rfl, Nat.le_refl _,
    fun hd ↦ ⟨_, hd, .refl _⟩⟩

theorem trans (hfg : f.Appends g) (hgh : g.Appends h) : f.Appends h where
  settings := hgh.settings.trans hfg.settings
  types := hfg.types.trans hgh.types
  files := hfg.files.trans hgh.files
  registries := hfg.registries.trans hgh.registries
  keys := hfg.keys.trans hgh.keys
  length := Nat.le_trans hfg.length hgh.length
  decls hd := by
    obtain ⟨y, hy, hxy⟩ := hfg.decls hd
    obtain ⟨z, hz, hyz⟩ := hgh.decls hy
    exact ⟨z, hz, hxy.trans hyz⟩

theorem keyed? (hfg : f.Appends g) {key : MergeKey} {d : DeclId} (hd : f.keyed? key = some d) :
    g.keyed? key = some d := by
  obtain ⟨more, hmore⟩ := hfg.keys
  unfold Forest.keyed? at hd ⊢
  rw [← hmore, List.lookup_append, hd]
  rfl

theorem idxOf_file (hfg : f.Appends g) {path : String} (hpath : path ∈ f.files) :
    g.files.idxOf path = f.files.idxOf path := by
  obtain ⟨more, hmore⟩ := hfg.files
  rw [← hmore, List.idxOf_append_of_mem hpath]

end Appends

variable {f g : Forest} {u : ResolvedUnit} {summary : MergeSummary}

theorem appends_addNode (f : Forest) (y : Declaration) : f.Appends (f.addNode y) := by
  obtain ⟨htypes, hfiles, hregistries, hsettings⟩ := addNode_frame f y
  constructor
  case settings => exact hsettings
  case types => exact htypes ▸ List.prefix_rfl
  case files => exact hfiles ▸ List.prefix_rfl
  case registries => exact hregistries ▸ List.prefix_rfl
  case keys => exact keys_addNode (g := f) y ▸ List.prefix_rfl
  case length =>
    rw [length_addNode]
    exact Nat.le_succ _
  case decls =>
    intro d x hd
    refine ⟨_, get?_addNode_old hd, ?_⟩
    split
    · exact x.extends_addMember y.id
    · exact .refl x

theorem appends_addKey (f : Forest) (key : MergeKey) (d : DeclId) : f.Appends (f.addKey key d) := by
  unfold addKey
  split
  · exact .refl f
  · exact ⟨rfl, List.prefix_rfl, List.prefix_rfl, List.prefix_rfl, List.prefix_append _ _,
      Nat.le_refl _, fun hd ↦ ⟨_, hd, .refl _⟩⟩

theorem appends_applyPlacement (r : Renaming) (f : Forest) (p : Placement) :
    f.Appends (applyPlacement r f p) := by
  unfold applyPlacement
  split
  next d _ =>
    have hnode := f.appends_addNode (r.declaration d p.source)
    split
    next => exact hnode
    next key _ => exact hnode.trans (appends_addKey _ key d)
  next d _ =>
    refine ⟨rfl, List.prefix_rfl, List.prefix_rfl, List.prefix_rfl, List.prefix_rfl, ?_, ?_⟩
    · exact Nat.le_of_eq (Id.length_modify _).symm
    · intro e x he
      by_cases hde : d = e
      · refine ⟨_, ?_, x.extends_absorb (r.declaration d p.source)⟩
        simp only [setDecls, Id.get?_modify, if_pos hde, he, Option.map_some]
      · refine ⟨x, ?_, .refl x⟩
        simp only [setDecls, Id.get?_modify, if_neg hde, he]

theorem appends_foldl (r : Renaming) (plan : List Placement) (f : Forest) :
    f.Appends (plan.foldl (applyPlacement r) f) := by
  induction plan generalizing f with
  | nil => exact .refl f
  | cons p plan ih => exact (f.appends_applyPlacement r p).trans (ih _)

/-- A merge changes nothing that was there, except that declarations gain what the unit adds to them;
the indexes by key and by path still find what they found. -/
theorem appends_merge (h : f.merge u = .ok (g, summary)) : f.Appends g ∧
    (∀ {key d}, f.keyed? key = some d → g.keyed? key = some d) ∧
      ∀ path ∈ f.files, g.files.idxOf path = f.files.idxOf path := by
  obtain ⟨-, plan, registry, -, -, rfl, -⟩ := merge_eq_ok_iff.mp h
  have htyped : f.Appends (f.typed u plan) :=
    ⟨rfl, List.prefix_append _ _, prefix_internFiles _ _, List.prefix_rfl, List.prefix_rfl,
      Nat.le_refl _, fun hd ↦ ⟨_, hd, .refl _⟩⟩
  have hgrown := htyped.trans (appends_foldl (f.planRenaming u plan) plan _)
  have happends : f.Appends (f.carryOut u plan registry) :=
    ⟨hgrown.settings, hgrown.types, hgrown.files, List.prefix_append _ _, hgrown.keys,
      hgrown.length, hgrown.decls⟩
  exact ⟨happends, happends.keyed?, fun path hpath ↦ happends.idxOf_file hpath⟩

end Forest

/-- The second unit defines a class that the first one declares: the node of the class takes the
definition over, and the namespace around it is still found by its key. -/
theorem appends_merge_sample : ∃ (f g : Forest) (u : ResolvedUnit) (summary : MergeSummary),
    f.merge u = .ok (g, summary) ∧ summary.joined = 3 ∧ f.Appends g ∧
      g.keyed? ⟨⟨1⟩, .namespaceDecl, "a", none⟩ = some ⟨2⟩ ∧
      f.store.decls.map (fun x ↦ x.classDetails?.map (·.isComplete)) =
        [none, none, some false, none] ∧
      g.store.decls.map (fun x ↦ x.classDetails?.map (·.isComplete)) =
        [none, none, some true, none, none, none, none, none] := by
  have h : (fun m : MergeStep ↦ (m.summary.joined,
        m.before.keyed? ⟨⟨1⟩, .namespaceDecl, "a", none⟩,
        m.before.store.decls.map (fun x ↦ x.classDetails?.map (·.isComplete)),
        m.after.store.decls.map (fun x ↦ x.classDetails?.map (·.isComplete)))) <$> (do
      let f ← Forest.ofUnits {} [Sample.header]
      f.mergeStep Sample.source) = .ok (3, some ⟨2⟩, [none, none, some false, none],
        [none, none, some true, none, none, none, none, none]) := by
    cbv
  obtain ⟨m, hm, hdata⟩ := Outcome.map_eq_ok h
  obtain ⟨f, -, hm⟩ := Outcome.bind_eq_ok hm
  simp only [Prod.mk.injEq] at hdata
  obtain ⟨hjoined, hkey, hbefore, hafter⟩ := hdata
  obtain ⟨hfirst, -, -, -, -, hok⟩ := Forest.mergeStep_eq_ok hm
  rw [hfirst] at hkey hbefore
  obtain ⟨happends, hkeyed, -⟩ := Forest.appends_merge hok
  exact ⟨f, m.after, m.unit, m.summary, hok, hjoined, happends, hkeyed hkey, hbefore, hafter⟩

end ScopeForest
