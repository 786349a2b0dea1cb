import ScopeForest.Proofs.Forest.Steps
import ScopeForest.Proofs.Forest.Tree
import ScopeForest.Proofs.Unit.Bases

namespace ScopeForest

section Bases

variable {bases more : List BaseSpec} {d : DeclId}

theorem map_addBase (bases : List BaseSpec) (b : BaseSpec) : (addBase bases b).map (·.cls) =
    if b.cls ∈ bases.map (·.cls) then bases.map (·.cls) else bases.map (·.cls) ++ [b.cls] := by
  unfold addBase
  by_cases hmem : b.cls ∈ bases.map (·.cls)
  · rw [if_pos hmem, if_pos (by simpa using hmem)]
  · rw [if_neg hmem, if_neg (by simpa using hmem), List.map_append]
    rfl

theorem count_foldl_addBase : ((more.foldl addBase bases).map (·.cls)).count d =
    (bases.map (·.cls)).count d +
      if d ∉ bases.map (·.cls) ∧ d ∈ more.map (·.cls) then 1 else 0 := by
  induction more generalizing bases with
  | nil => simp
  | cons b more ih =>
    rw [List.foldl_cons, ih, map_addBase]
    by_cases hmem : b.cls ∈ bases.map (·.cls)
    · have hiff : d ∉ bases.map (·.cls) ∧ d ∈ (b :: more).map (·.cls) ↔
          d ∉ bases.map (·.cls) ∧ d ∈ more.map (·.cls) := by
        refine and_congr_right fun hd ↦ ?_
        have hne : d ≠ b.cls := fun heq ↦ hd (heq ▸ hmem)
        simp [hne]
      simp only [hmem, if_true, hiff]
    · by_cases hd : d = b.cls
      · subst hd
        simp [hmem]
      · simp [hmem, hd, Ne.symm hd]

theorem mem_map_foldl_addBase : d ∈ (more.foldl addBase bases).map (·.cls) ↔
    d ∈ bases.map (·.cls) ∨ d ∈ more.map (·.cls) := by
  rw [← List.count_pos_iff, count_foldl_addBase]
  by_cases hd : d ∈ bases.map (·.cls)
  · simp [hd]
  · rw [List.count_eq_zero_of_not_mem hd]
    by_cases hmore : d ∈ more.map (·.cls) <;> simp only [hd, hmore] <;> simp

end Bases

namespace Declaration

variable {x y : Declaration}

theorem baseClasses_declaration (r : Renaming) (d : DeclId) (x : Declaration) :
    (r.declaration d x).baseClasses = x.baseClasses.map r.decl := by
  rcases x with ⟨_, _, _, _, _, _, _, _, _, details⟩
  cases details with
  | cls c => simp [baseClasses, bases, classDetails?, Renaming.declaration, Renaming.details,
      Renaming.classDetails, Renaming.base]
  | _ => rfl

@[simp] theorem baseClasses_withAliases (x : Declaration) (aliases : List DeclId) :
    (x.withAliases aliases).baseClasses = x.baseClasses := by
  rcases x with ⟨_, _, _, _, _, _, _, _, _, details⟩
  cases details <;> rfl

theorem Fitting.bases_eq_nil (h : x.Fitting) (hkind : ¬x.kind.IsClass) : x.bases = [] := by
  rcases x with ⟨_, _, _, _, _, _, _, _, _, details⟩
  cases details with
  | cls c => exact absurd h hkind
  | _ => rfl

theorem Fitting.exists_class (h : x.Fitting) (hkind : x.kind.IsClass) :
    ∃ c, x.details = .cls c := by
  rcases x with ⟨_, _, _, _, _, _, _, _, _, details⟩
  cases details with
  | cls c => exact ⟨c, rfl⟩
  | _ => rcases hkind with hkind | hkind <;>
      simp_all [Fitting, Details.Fits, DeclKind.isCallable]

theorem bases_absorb (hx : x.Fitting) (hy : y.Fitting) (hkind : y.kind = x.kind) :
    (x.absorb y).bases = y.bases.foldl addBase x.bases := by
  by_cases hclass : x.kind.IsClass
  · obtain ⟨k, hk⟩ := hx.exists_class hclass
    obtain ⟨c, hc⟩ := hy.exists_class (hkind ▸ hclass)
    simp only [absorb, bases, classDetails?, hk, hc, ClassDetails.absorb, Option.map_some,
      Option.getD_some]
    split <;> rfl
  · have hgrows := x.grows_absorb y
    rw [(hgrows.fitting hx).bases_eq_nil (hgrows.kind ▸ hclass), hx.bases_eq_nil hclass,
      hy.bases_eq_nil (hkind ▸ hclass)]
    rfl

end Declaration

section Sightings

variable {steps : List MergeStep} {m : MergeStep} {p : Placement} {d e : DeclId}
  {seen : List (MergeStep × Placement)} {s : MergeStep × Placement}

/-- The declarations that were mapped onto a node, with their merges and in the order of these. -/
def sightings (steps : List MergeStep) (d : DeclId) : List (MergeStep × Placement) :=
  steps.flatMap fun m ↦ (m.plan.filter (·.target.id = d)).map (m, ·)

theorem mem_sightings : (m, p) ∈ sightings steps d ↔ m ∈ steps ∧ p ∈ m.plan ∧ p.target.id = d := by
  simp only [sightings, List.mem_flatMap, List.mem_map, List.mem_filter, decide_eq_true_eq,
    Prod.mk.injEq]
  constructor
  · rintro ⟨n, hn, q, ⟨hq, hd⟩, rfl, rfl⟩
    exact ⟨hn, hq, hd⟩
  · rintro ⟨hm, hp, hd⟩
    exact ⟨m, hm, p, ⟨hp, hd⟩, rfl, rfl⟩

theorem sightings_append (steps : List MergeStep) (m : MergeStep) (d : DeclId) :
    sightings (steps ++ [m]) d =
      sightings steps d ++ (m.plan.filter (·.target.id = d)).map (m, ·) := by
  simp [sightings]

theorem sightings_append_of_free (hfree : ∀ p ∈ m.plan, p.target.id ≠ d) :
    sightings (steps ++ [m]) d = sightings steps d := by
  have hnone : m.plan.filter (·.target.id = d) = [] := by simpa using hfree
  rw [sightings_append, hnone, List.map_nil, List.append_nil]

theorem sightings_append_of_mem (hnodup : (m.plan.map (·.target.id)).Nodup) (hp : p ∈ m.plan)
    (hd : p.target.id = d) : sightings (steps ++ [m]) d = sightings steps d ++ [(m, p)] := by
  have hone : m.plan.filter (·.target.id = d) = [p] := by
    refine List.perm_singleton.mp ((List.perm_ext_iff_of_nodup (hnodup.of_map.filter _)
      (List.nodup_singleton p)).mpr fun q ↦ ?_)
    simp only [List.mem_filter, decide_eq_true_eq, List.mem_singleton]
    constructor
    · rintro ⟨hq, hqd⟩
      exact List.inj_on_of_nodup_map hnodup hq hp (hqd.trans hd.symm)
    · rintro rfl
      exact ⟨hp, hd⟩
  rw [sightings_append, hone, List.map_singleton]

def RepeatsBase (s : MergeStep × Placement) (e : DeclId) : Prop :=
  ∃ r ∈ s.1.records, r.id = s.2.source.externalId ∧ ∃ id l, s.1.unit.registry.NamesDecl id l ∧
    s.1.remap.decl l = e ∧ 1 < r.baseIds.count id

/-- The bases of a node with these sightings. -/
structure CollectsBases (seen : List (MergeStep × Placement)) (classes : List DeclId) : Prop where
  mem_iff : ∀ {e}, e ∈ classes ↔ ∃ s ∈ seen, e ∈ s.2.source.baseClasses.map s.1.remap.decl
  repeated : ∀ {e}, 1 < classes.count e → ∃ s ∈ seen.head?, RepeatsBase s e

theorem collectsBases_nil : CollectsBases [] [] := ⟨by simp, by simp⟩

theorem CollectsBases.join {bases more : List BaseSpec}
    (h : CollectsBases seen (bases.map (·.cls)))
    (hmore : more.map (·.cls) = s.2.source.baseClasses.map s.1.remap.decl) :
    CollectsBases (seen ++ [s]) ((more.foldl addBase bases).map (·.cls)) where
  mem_iff := by
    intro e
    rw [mem_map_foldl_addBase, h.mem_iff, hmore]
    simp [or_and_right, exists_or]
  repeated := by
    intro e he
    have hmem : e ∈ bases.map (·.cls) := by
      by_contra hnot
      rw [count_foldl_addBase, List.count_eq_zero_of_not_mem hnot] at he
      split at he <;> omega
    rw [count_foldl_addBase, if_neg fun hnot ↦ hnot.1 hmem] at he
    obtain ⟨first, hfirst, hrepeats⟩ := h.repeated he
    exact ⟨first, by rw [List.head?_append, hfirst]; rfl, hrepeats⟩

end Sightings

theorem MergeStep.Valid.collectsBases {m : MergeStep} {p : Placement} (h : m.Valid)
    (hp : p ∈ m.plan) : CollectsBases [(m, p)] (p.source.baseClasses.map m.remap.decl) where
  mem_iff := by simp
  repeated := by
    intro e he
    have hheld {l : DeclId} (hl : l ∈ p.source.baseClasses) : m.unit.store.HoldsDecl l := by
      obtain ⟨b, hb, rfl⟩ := List.mem_map.mp hl
      exact h.unit.closed.base (h.source hp) hb
    have hinj : ∀ i ∈ p.source.baseClasses, ∀ j ∈ p.source.baseClasses,
        m.remap.decl i = m.remap.decl j → i = j := by
      intro i hi j hj hij
      obtain ⟨x, hx⟩ := hheld hi
      obtain ⟨y, hy⟩ := hheld hj
      exact h.remap_inj hx hy hij
    obtain ⟨l, -, hle, hcount⟩ := exists_count_of_map hinj he
    obtain ⟨r, hr, hrid, id, hid, hrepeated⟩ := repeated_of_buildUnit h.built (h.source hp) hcount
    exact ⟨(m, p), rfl, r, hr, hrid, id, l, hid, hle, hrepeated⟩

namespace History

variable {steps : List MergeStep} {f : Forest} {d e : DeclId} {x y : Declaration}

theorem sightings_eq_nil (h : History steps f) (hd : f.store.decls.length < d.val) :
    sightings steps d = [] := by
  refine List.eq_nil_iff_forall_not_mem.mpr fun ⟨m, p⟩ hmem ↦ ?_
  obtain ⟨hm, hp, rfl⟩ := mem_sightings.mp hmem
  obtain ⟨y, hy, -⟩ := h.node hm hp
  have hle := (Id.val_pos_of_get? hy).2
  omega

theorem collectsBases (h : History steps f) (hd : d.get? f.store.decls = some y) :
    CollectsBases (sightings steps d) y.baseClasses := by
  induction h generalizing y with
  | start settings => exact absurd (Id.mem_of_get? hd) List.not_mem_nil
  | @merge steps m _ hbefore hbuild hplan hok ih =>
    have hm := hbefore.valid_merge hbuild hplan hok
    obtain ⟨z, members, hz, rfl⟩ := hm.arises hd
    rw [Declaration.baseClasses_withMembers]
    cases hz with
    | kept hx hfree =>
      rw [sightings_append_of_free hfree]
      exact ih hx
    | @joined x p hx hp ht =>
      have hid : p.target.id = d := congrArg Target.id ht
      rw [sightings_append_of_mem hm.nodup_targets hp hid]
      have hkind := hm.kind_joined hx hp hid
      have hfits := hm.unit.tree.fitting (hm.source hp)
      rw [Declaration.baseClasses, Declaration.bases_absorb (hm.sound.tree.fitting hx)
        (Renaming.fitting_declaration _ _ _ hfits) hkind]
      exact (ih hx).join (Declaration.baseClasses_declaration m.remap d p.source)
    | @new p hp ht =>
      have hid : p.target.id = d := congrArg Target.id ht
      rw [sightings_append_of_mem hm.nodup_targets hp hid,
        hbefore.sightings_eq_nil (hm.new_lt hp ht), Declaration.baseClasses_declaration]
      exact hm.collectsBases hp
  | @reopen steps f hbefore ih =>
    rcases Forest.reopen_cases hd with ⟨x, hx, rfl⟩ | ⟨hnext, rfl⟩
    · rw [Declaration.baseClasses_withAliases]
      exact ih hx
    · have hlt : f.store.decls.length < d.val := by
        rw [hnext]
        exact Nat.lt_succ_self _
      rw [hbefore.sightings_eq_nil hlt]
      exact collectsBases_nil

theorem mem_members (h : History steps f) (hd : d.get? f.store.decls = some x) :
    e ∈ x.members ↔ ∃ s ∈ sightings steps d, e ∈ s.2.source.members.map s.1.remap.decl := by
  constructor
  · intro he
    obtain ⟨y, hy, hparent⟩ := h.sound.tree.member hd he
    -- the node of the member was made for a declaration inside a sighting
    obtain ⟨m, hm, q, hq, ht⟩ := h.exists_created hy (by simp [hparent])
    have hvalid := h.valid hm
    obtain ⟨z, hz, -, hzp⟩ := h.node hm hq
    rw [ht] at hz
    cases hz.symm.trans hy
    rw [hparent] at hzp
    obtain ⟨l, hl, himage⟩ := Option.map_eq_some_iff.mp hzp.symm
    obtain ⟨scope, hscope, -, hmem⟩ := hvalid.unit.tree.parent (hvalid.source hq) hl
    obtain ⟨p, hp, rfl, -, hp'⟩ := hvalid.image hscope
    refine ⟨(m, p), mem_sightings.mpr ⟨hm, hp, hp'.symm.trans himage⟩, ?_⟩
    refine List.mem_map.mpr ⟨q.source.id, hmem, ?_⟩
    rw [hvalid.remap_source hq, ht]
    rfl
  · rintro ⟨⟨m, p⟩, hs, he⟩
    obtain ⟨hm, hp, rfl⟩ := mem_sightings.mp hs
    obtain ⟨l, hl, rfl⟩ := List.mem_map.mp he
    have hvalid := h.valid hm
    obtain ⟨y, hy, hparent⟩ := hvalid.unit.tree.member (hvalid.source hp) hl
    obtain ⟨q, hq, rfl, -, himage⟩ := hvalid.image hy
    obtain ⟨w, hw, -, hwp⟩ := h.node hm hq
    rw [hparent, Option.map_some, hvalid.remap_source hp] at hwp
    obtain ⟨z, hz, -, hmem⟩ := h.sound.tree.parent hw hwp
    cases hz.symm.trans hd
    rw [himage]
    exact hmem

end History

/-- A node holds what its sightings declare. -/
structure Gathers (steps : List MergeStep) (d : DeclId) (x : Declaration) : Prop where
  nodup : x.members.Nodup
  members : ∀ e, e ∈ x.members ↔
    ∃ s ∈ sightings steps d, e ∈ s.2.source.members.map s.1.remap.decl
  bases : CollectsBases (sightings steps d) x.baseClasses

section Gathers

variable {steps : List MergeStep} {f : Forest} {d : DeclId} {x : Declaration}

theorem Gathers.of_withAliases {aliases : List DeclId}
    (h : Gathers steps d (x.withAliases aliases)) : Gathers steps d x :=
  ⟨x.members_withAliases aliases ▸ h.nodup, x.members_withAliases aliases ▸ h.members,
    x.baseClasses_withAliases aliases ▸ h.bases⟩

theorem History.gathers_node (h : History steps f) (hd : d.get? f.store.decls = some x) :
    Gathers steps d x :=
  ⟨h.sound.nodup_members (Id.mem_of_get? hd), fun _ ↦ h.mem_members hd, h.collectsBases hd⟩

/-- Every node, in the forest and in the graph frozen from it, has for its members and bases the
union of what the units of the run declare for it. -/
theorem Run.gathers {units : List (List Record)} {lone : Bool} (h : Run units lone f) :
    (∃ steps, History steps f ∧ steps.map (·.records) = units) ∧ ∀ steps, History steps f →
      (∀ d x, d.get? f.store.decls = some x → Gathers steps d x) ∧
        ∀ d x, d.get? f.freeze.store.decls = some x → Gathers steps d x := by
  refine ⟨h.history, fun steps hsteps ↦ ⟨fun d x hd ↦ hsteps.gathers_node hd, fun d x hd ↦ ?_⟩⟩
  -- reopening the graph changes nothing but aliases
  have hopen : d.get? f.freeze.reopen.store.decls = some (x.withAliases []) := by
    show d.get? (f.freeze.store.decls.map (·.withAliases [])) = _
    rw [Id.get?_map, hd]
    rfl
  exact (hsteps.reopen.gathers_node hopen).of_withAliases

def Sample.derived (bases : List ExternalId) : List Record :=
  [({ tag := .namespaceTag, id := "n" } : Record).withLiteral Field.name "::",
    ({ tag := .structTag, id := "a" } : Record).withLiteral Field.name "a",
    { ({ tag := .structTag, id := "b" } : Record).withLiteral Field.name "b" with
      children := bases.map fun id ↦
        { kind := .base, attrs := NameMap.ofList [(Field.type, .ref id)] } }]

/-- A base that only a later unit lists twice is listed once. -/
theorem gathers_sample : ∃ f steps x,
    Run [Sample.derived ["a"], Sample.derived ["a", "a"]] false f ∧ History steps f ∧
    (⟨3⟩ : DeclId).get? f.store.decls = some x ∧ x.baseClasses = [⟨2⟩] ∧ Gathers steps ⟨3⟩ x := by
  have h : (fun f ↦ ((⟨3⟩ : DeclId).get? f.store.decls).map (·.baseClasses)) <$>
      Forest.ofUnits {} [Sample.derived ["a"], Sample.derived ["a", "a"]] = .ok (some [⟨2⟩]) := by
    cbv
  obtain ⟨f, hf, hnode⟩ := Outcome.map_eq_ok h
  obtain ⟨x, hx, hbases⟩ := Option.map_eq_some_iff.mp hnode
  have hrun := Run.ofUnits hf
  obtain ⟨⟨steps, hsteps, -⟩, hall⟩ := Run.gathers hrun
  exact ⟨f, steps, x, hrun, hsteps, hx, hbases, (hall steps hsteps).1 _ x hx⟩

end Gathers

end ScopeForest
