import ScopeForest.Proofs.Forest.Nodes
import ScopeForest.Proofs.Forest.Unnamed
import ScopeForest.Proofs.Graph.Search
import ScopeForest.Proofs.Types.Layers

namespace ScopeForest

open Relation

namespace Declaration

variable {x y : Declaration}

def isDefinedBy (kept seen : Declaration) : Bool :=
  kept.classDetails?.any fun k ↦ seen.classDetails?.any k.isDefinedBy

theorem expansion?_withMembers (x : Declaration) (members : List DeclId) :
    (x.withMembers members).expansion? = x.expansion? := by
  rcases x with ⟨_, _, _, _, _, _, _, _, _, details⟩
  cases details <;> rfl

theorem expansion?_absorb (y seen : Declaration) : (y.absorb seen).expansion? =
    if y.isDefinedBy seen then seen.instantiates? else y.expansion? := by
  rcases y with ⟨_, _, _, _, _, _, _, _, _, details⟩
  rcases seen with ⟨_, _, _, _, _, _, _, _, _, details'⟩
  cases details with
  | cls k =>
    cases details' with
    | cls c =>
      cases hdefined : k.isDefinedBy c <;>
        simp [absorb, ClassDetails.absorb, isDefinedBy, classDetails?, expansion?, aliased?,
          instantiates?, hdefined]
    | _ => rfl
  | _ => cases details' <;> rfl

end Declaration

theorem Renaming.expansion?_declaration (r : Renaming) (d : DeclId) (x : Declaration) :
    (r.declaration d x).expansion? = x.expansion?.map r.type := by
  rcases x with ⟨_, _, _, _, _, _, _, _, _, details⟩
  cases details <;> rfl

theorem Renaming.instantiates?_declaration (r : Renaming) (d : DeclId) (x : Declaration) :
    (r.declaration d x).instantiates? = x.instantiates?.map r.type := by
  rcases x with ⟨_, _, _, _, _, _, _, _, _, details⟩
  cases details <;> rfl

theorem Renaming.isDefinedBy_declaration (r : Renaming) (d : DeclId) (x y : Declaration) :
    x.isDefinedBy (r.declaration d y) = x.isDefinedBy y := by
  rcases y with ⟨_, _, _, _, _, _, _, _, _, details⟩
  cases details <;> rfl

namespace Forest

variable {f g : Forest} {u : ResolvedUnit} {r : Renaming} {done plan : List Placement}
  {p : Placement} {d : DeclId} {x y : Declaration} {registry : Registry}

/-- A class of the forest that is known by a forward declaration is joined by a definition that
specializes a template, and so comes to stand for the instantiation. -/
def TakesOver (f : Forest) (plan : List Placement) : Prop :=
  ∃ p ∈ plan, ∃ d x, p.target = .joined d ∧ d.get? f.store.decls = some x ∧
    x.isDefinedBy p.source = true ∧ p.source.instantiates? ≠ none

/-- Each node after a merge is an old one that still stands for what it stood for, or for nothing,
or it is the copy of a declaration of the unit. -/
theorem Plans.expansion_carryOut (hf : f.Sound) (hu : u.Sound) (h : f.Plans u plan)
    (hkeep : ¬f.TakesOver plan)
    (hd : d.get? (f.carryOut u plan registry).store.decls = some y) :
    (∃ x, d.get? f.store.decls = some x ∧ (y.expansion? = x.expansion? ∨ y.expansion? = none)) ∨
      ∃ p ∈ plan, p.target = .new d ∧
        y.expansion? = p.source.expansion?.map (f.planRenaming u plan).type := by
  obtain ⟨z, members, hz, rfl⟩ := h.arises_carryOut hf hu hd
  rw [Declaration.expansion?_withMembers]
  cases hz with
  | kept hx _ => exact .inl ⟨z, hx, .inl rfl⟩
  | @joined x p hx hp ht =>
    refine .inl ⟨x, hx, ?_⟩
    rw [Declaration.expansion?_absorb, Renaming.isDefinedBy_declaration]
    split
    next hdefined =>
      have hnone : p.source.instantiates? = none := by
        by_contra hsome
        exact hkeep ⟨p, hp, d, x, ht, hx, hdefined, hsome⟩
      rw [Renaming.instantiates?_declaration, hnone]
      exact .inr rfl
    next => exact .inl rfl
  | @new p hp ht => exact .inr ⟨p, hp, ht, Renaming.expansion?_declaration _ d p.source⟩

section Expansion

variable {t v : TypeId}

theorem Plans.expands_old (hf : f.Sound) (hrefers : f.Refers) (hu : u.Sound) (h : f.Plans u plan)
    (hkeep : ¬f.TakesOver plan)
    (ht : f.store.HoldsType t) (hexp : (f.carryOut u plan registry).store.Expands t v) :
    f.store.Expands t v := by
  obtain ⟨node, hnode⟩ := ht
  have hsame {other : Ty} (hother : t.get? (f.carryOut u plan registry).store.types = some other) :
      node = other := by
    rw [types_carryOut, Id.get?_append_left hnode] at hother
    exact Option.some_inj.mp hother
  cases hexp with
  | child ht hv =>
    cases hsame ht
    exact .child hnode hv
  | @named d y ht hd hv =>
    cases hsame ht
    obtain ⟨x, hx⟩ := (hf.closed hrefers).owner hnode rfl
    rcases h.expansion_carryOut hf hu hkeep hd with
      ⟨z, hz, heq | hnone⟩ | ⟨p, hp, hnew, -⟩
    · exact .named hnode hz (heq ▸ hv)
    · rw [hnone] at hv
      cases hv
    · have hle := (Id.val_pos_of_get? hx).2
      have hlt := (h.target_new hp hnew).1
      omega

theorem expands_new (hf : f.Sound) (hrefers : f.Refers) (hu : u.Sound) (hplan : f.plan u = .ok plan)
    (hkeep : ¬f.TakesOver plan)
    (ht : u.store.HoldsType t)
    (hexp : (f.carryOut u plan registry).store.Expands ((f.planRenaming u plan).type t) v) :
    f.store.HoldsType v ∨ ∃ w, v = (f.planRenaming u plan).type w ∧ u.store.Expands t w := by
  obtain ⟨node, hnode⟩ := ht
  obtain ⟨hplans, hall⟩ := plan_eq_ok hu hplan
  have hsame {other : Ty} (hother : ((f.planRenaming u plan).type t).get?
      (f.carryOut u plan registry).store.types = some other) :
      (f.planRenaming u plan).ty node = other := by
    rw [types_carryOut] at hother
    exact Option.some_inj.mp ((type_renamingOf hnode).symm.trans hother)
  cases hexp with
  | child ht hv =>
    cases hsame ht
    rw [Renaming.ty, Ty.children_rename] at hv
    obtain ⟨w, hw, rfl⟩ := List.mem_map.mp hv
    exact .inr ⟨w, rfl, .child hnode hw⟩
  | @named e y ht he hv =>
    obtain ⟨d, rfl, rfl⟩ : ∃ d, node = .declared d ∧ (f.planRenaming u plan).decl d = e := by
      have hdeclared := hsame ht
      cases node with
      | declared d => exact ⟨d, rfl, Ty.declared.inj hdeclared⟩
      | _ => cases hdeclared
    obtain ⟨-, ⟨x, hx, -⟩, -⟩ := (hu.typeRefers hnode).owner d rfl
    rcases hplans.expansion_carryOut hf hu hkeep he with
      ⟨z, hz, heq | hnone⟩ | ⟨p, hp, hnew, hy⟩
    · exact .inl ((hf.closed hrefers).type hz (Store.mem_types_of_expansion? (heq ▸ hv)))
    · rw [hnone] at hv
      cases hv
    · -- the node is the copy of the declaration that the type names
      obtain ⟨q, hq, rfl, -, himage⟩ := exists_image hu hplan hx
      have htarget : p.target.id = q.target.id := by
        rw [hnew, himage]
        rfl
      cases List.inj_on_of_nodup_map (hplans.nodup_targets hf) hp hq htarget
      rw [hy] at hv
      obtain ⟨w, hw, rfl⟩ := Option.map_eq_some_iff.mp hv
      exact .inr ⟨w, rfl, .named hnode hx hw⟩

end Expansion

theorem holds_carryOut {t : TypeId} (h : (f.carryOut u plan registry).store.HoldsType t) :
    f.store.HoldsType t ∨ ∃ w, u.store.HoldsType w ∧ t = (f.planRenaming u plan).type w := by
  obtain ⟨node, hnode⟩ := h
  rw [types_carryOut] at hnode
  rcases Id.get?_append hnode with hnode | ⟨n, rfl, hn⟩
  · exact .inl ⟨node, hnode⟩
  · rw [List.getElem?_map] at hn
    obtain ⟨node, hn, -⟩ := Option.map_eq_some_iff.mp hn
    refine .inr ⟨Id.ofIndex n, ⟨node, hn⟩, congrArg Id.mk ?_⟩
    simp only [Id.val_ofIndex]
    omega

theorem type_planRenaming_injective {t v : TypeId}
    (h : (f.planRenaming u plan).type t = (f.planRenaming u plan).type v) : t = v := by
  have hval : t.val + f.store.types.length = v.val + f.store.types.length := congrArg Id.val h
  rcases t with ⟨n⟩
  rcases v with ⟨m⟩
  exact congrArg Id.mk (Nat.add_right_cancel hval)

/-- Old types lead to old types only, so that a circle would lie within the forest or within the
unit. -/
theorem acyclic_carryOut (hf : f.Sound) (hrefers : f.Refers) (hu : u.Sound)
    (hplan : f.plan u = .ok plan)
    (hkeep : ¬f.TakesOver plan)
    (hold : f.store.Acyclic) (hnew : u.store.Acyclic) :
    (f.carryOut u plan registry).store.Acyclic := by
  obtain ⟨hplans, -⟩ := plan_eq_ok hu hplan
  have hclosed := hf.closed hrefers
  have hwithin {t v : TypeId} (ht : f.store.HoldsType t)
      (h : TransGen (f.carryOut u plan registry).store.Expands t v) :
      f.store.HoldsType v ∧ TransGen f.store.Expands t v := by
    induction h with
    | single h =>
      have hold := hplans.expands_old hf hrefers hu hkeep ht h
      exact ⟨hclosed.expands hold, .single hold⟩
    | tail _ h ih =>
      have hold := hplans.expands_old hf hrefers hu hkeep ih.1 h
      exact ⟨hclosed.expands hold, ih.2.tail hold⟩
  have hapart {t v : TypeId} (ht : u.store.HoldsType t)
      (h : TransGen (f.carryOut u plan registry).store.Expands ((f.planRenaming u plan).type t) v) :
      f.store.HoldsType v ∨ ∃ w, v = (f.planRenaming u plan).type w ∧ u.store.HoldsType w ∧
        TransGen u.store.Expands t w := by
    induction h with
    | single h =>
      rcases expands_new hf hrefers hu hplan hkeep ht h with hv | ⟨w, hw, hexp⟩
      · exact .inl hv
      · exact .inr ⟨w, hw, hu.closed.expands hexp, .single hexp⟩
    | tail _ h ih =>
      rcases ih with hv | ⟨w, rfl, hw, hpath⟩
      · exact .inl (hclosed.expands (hplans.expands_old hf hrefers hu hkeep hv h))
      · rcases expands_new hf hrefers hu hplan hkeep hw h with hv | ⟨w', hw', hexp⟩
        · exact .inl hv
        · exact .inr ⟨w', hw', hu.closed.expands hexp, hpath.tail hexp⟩
  intro t ht
  obtain ⟨v, htv, -⟩ := TransGen.head'_iff.mp ht
  rcases holds_carryOut htv.held with hheld | ⟨w, hw, rfl⟩
  · exact hold t (hwithin hheld ht).2
  · rcases hapart hw ht with hheld | ⟨w', hw', -, hcircle⟩
    · exact hold _ (hwithin hheld ht).2
    · cases type_planRenaming_injective hw'
      exact hnew w hcircle

theorem acyclic_rooted (h : f.store.Acyclic) : f.rooted.1.store.Acyclic := by
  cases hroot : f.root with
  | some d =>
    rw [rooted_of_root hroot]
    exact h
  | none =>
    rw [rooted_of_none hroot]
    refine h.of_expands fun {t v} hexp ↦ ?_
    cases hexp with
    | child ht hv => exact .child ht hv
    | named ht hd hv =>
      rcases Id.get?_append_singleton hd with hd | ⟨-, rfl⟩
      · exact .named ht hd hv
      · cases hv

theorem neutral_withAliases (aliases : Declaration → List DeclId) :
    Declaration.Neutral fun x ↦ x.withAliases (aliases x) := by
  constructor
  all_goals
    rintro ⟨_, _, _, _, _, _, _, _, _, details⟩
    cases details <;> rfl

theorem exists_neutral_freeze (hs : f.Sound) : ∃ change, Declaration.Neutral change ∧
    f.freeze.store = f.rooted.1.store.mapDecls change := by
  obtain ⟨hsound, -, -⟩ := hs.rooted
  by_cases hbind : f.rooted.1.settings.bindAliases
  · have hstore : f.freeze.store = f.rooted.1.store.bindAliases f.freeze.order := if_pos hbind
    -- the class of a slot is the one with its id
    have hdecls : (f.rooted.1.store.bindAliases f.freeze.order).decls =
        f.rooted.1.store.decls.map fun x ↦ x.withAliases (x.aliases ++
          f.freeze.order.filter fun d ↦ f.rooted.1.store.aliasedClass? d == some x.id) := by
      refine Id.ext_get? (k := .decl) fun c ↦ ?_
      rw [Store.get?_bindAliases, Id.get?_map]
      exact Option.map_congr fun x hx ↦ by rw [hsound.tree.dense hx]
    exact ⟨_, neutral_withAliases _, hstore.trans (congrArg (Store.mk · _) hdecls)⟩
  · have hstore : f.freeze.store = f.rooted.1.store := if_neg hbind
    refine ⟨id, ⟨fun _ ↦ rfl, fun _ ↦ rfl, fun _ ↦ rfl, fun _ ↦ rfl, fun _ ↦ rfl, fun _ ↦ rfl,
      fun _ ↦ rfl⟩, ?_⟩
    rw [hstore, Store.mapDecls, List.map_id]

theorem acyclic_freeze (hs : f.Sound) (h : f.store.Acyclic) : f.freeze.store.Acyclic := by
  obtain ⟨change, hneutral, hstore⟩ := exists_neutral_freeze hs
  rw [hstore]
  exact (acyclic_rooted h).mapDecls hneutral

end Forest

namespace History

variable {steps : List MergeStep} {f : Forest}

theorem acyclic (h : History steps f) (hkeep : ∀ m ∈ steps, ¬m.before.TakesOver m.plan) :
    f.store.Acyclic := by
  induction h with
  | start settings =>
    intro t ht
    obtain ⟨v, hexp, -⟩ := TransGen.head'_iff.mp ht
    obtain ⟨node, hnode⟩ := hexp.held
    exact List.not_mem_nil (Id.mem_of_get? hnode)
  | @merge steps m unit hbefore hbuild hplan hok ih =>
    obtain ⟨lone, hrun⟩ := hbefore.run
    obtain ⟨registry, -, hafter, -⟩ := MergeStep.carryOut_plan hplan hok
    rw [hafter]
    refine Forest.acyclic_carryOut hrun.sound hrun.refers (buildUnit_eq_ok hbuild).1 hplan ?_ ?_
      (acyclic_of_buildUnit hbuild)
    · exact hkeep m (List.mem_append_right _ List.mem_cons_self)
    · exact ih fun n hn ↦ hkeep n (List.mem_append_left _ hn)
  | reopen hbefore ih =>
    obtain ⟨lone, hrun⟩ := hbefore.run
    exact (Forest.acyclic_freeze hrun.sound (ih hkeep)).mapDecls (Forest.neutral_withAliases _)

/-- Where no merge lets a class take over an instantiation, types can be looked through in the forest
and in the graph frozen from it. -/
theorem unfolds_of_keeps (h : History steps f) (hkeep : ∀ m ∈ steps, ¬m.before.TakesOver m.plan) :
    f.store.Unfolds ∧ f.freeze.store.Unfolds := by
  obtain ⟨lone, hrun⟩ := h.run
  have hacyclic := h.acyclic hkeep
  have hfrozen := hrun.sound.freeze.1.closed (hrun.refers.freeze hrun.sound)
  refine ⟨hacyclic.unfolds (hrun.sound.closed hrun.refers), ?_⟩
  exact (Forest.acyclic_freeze hrun.sound hacyclic).unfolds hfrozen

end History

namespace Sample

def typedefOf (id name type : String) : Record :=
  ((({ tag := .typedef, id } : Record).withLiteral Field.name name).withRef Field.context
    "n").withRef Field.type type

def pointing (first second : String) : List Record :=
  [({ tag := .namespaceTag, id := "n" } : Record).withLiteral Field.name "::",
    ({ tag := .fundamentalType, id := "i" } : Record).withLiteral Field.name "int",
    typedefOf "a" first "i", ({ tag := .pointerType, id := "p" } : Record).withRef Field.type "a",
    typedefOf "b" second "p"]

def mergeCrossed : Outcome (MergeStep × MergeStep) := do
  let m ← Forest.mergeStep {} (pointing "t" "u")
  let n ← m.after.mergeStep (pointing "u" "t")
  return (m, n)

end Sample

/-- Two units define each of two typedefs by the other one, and both typedefs are joined. -/
theorem unfolds_sample : ∃ m n, History [m, n] n.after ∧
    (∀ k ∈ [m, n], ¬k.before.TakesOver k.plan) ∧ n.plan.map (·.target.isNew) = [false, false, false] ∧
      n.after.freeze.store.Unfolds := by
  have h : (fun k : MergeStep × MergeStep ↦ (k.2.plan.map (·.target.isNew),
      (k.1.plan ++ k.2.plan).map (·.source.instantiates?))) <$> Sample.mergeCrossed =
      .ok ([false, false, false], List.replicate 6 none) := by
    cbv
  obtain ⟨⟨m, n⟩, hboth, hplans⟩ := Outcome.map_eq_ok h
  obtain ⟨hjoined, hnone⟩ := Prod.mk.inj hplans
  obtain ⟨k, hm, hboth⟩ := Outcome.bind_eq_ok hboth
  obtain ⟨l, hn, hboth⟩ := Outcome.bind_eq_ok hboth
  cases hboth
  have hsteps : History [m, n] n.after := ((History.start {}).mergeStep hm).mergeStep hn
  have hkeep : ∀ k ∈ [m, n], ¬k.before.TakesOver k.plan := by
    rintro k hk ⟨p, hp, -, -, -, -, -, hsome⟩
    have hmem : p ∈ m.plan ++ n.plan := by
      simp only [List.mem_cons, List.not_mem_nil, or_false] at hk
      rcases hk with rfl | rfl
      · exact List.mem_append_left _ hp
      · exact List.mem_append_right _ hp
    have hsource := List.mem_map_of_mem (f := (·.source.instantiates?)) hmem
    rw [hnone] at hsource
    exact hsome (List.eq_of_mem_replicate hsource)
  exact ⟨m, n, hsteps, hkeep, hjoined, (hsteps.unfolds_of_keeps hkeep).2⟩

end ScopeForest
