import ScopeForest.Proofs.Forest.Acceptance
import ScopeForest.Proofs.Forest.History

namespace ScopeForest

namespace Declaration

/-- There is nothing in `c` that the node `y` could take over. -/
structure Knows (y c : Declaration) : Prop where
  location : c.location.isSome = true → y.location.isSome = true
  complete : ∀ {k s : ClassDetails}, y.details = .cls k → c.details = .cls s →
    s.isComplete = true → k.isComplete = true
  bases : ∀ {k s : ClassDetails}, y.details = .cls k → c.details = .cls s →
    ∀ b ∈ s.bases, ∃ a ∈ k.bases, a.cls = b.cls

end Declaration

section Bases

variable {bases seen : List BaseSpec}

theorem foldl_addBase_of_known (h : ∀ b ∈ seen, ∃ a ∈ bases, a.cls = b.cls) :
    seen.foldl addBase bases = bases := by
  induction seen with
  | nil => rfl
  | cons b seen ih =>
    obtain ⟨a, ha, hab⟩ := h b List.mem_cons_self
    have hb : addBase bases b = bases := by
      have hany : (bases.any fun a ↦ a.cls == b.cls) = true :=
        List.any_eq_true.mpr ⟨a, ha, by simpa using hab⟩
      rw [addBase, if_pos hany]
    rw [List.foldl_cons, hb]
    exact ih fun c hc ↦ h c (List.mem_cons_of_mem b hc)

theorem subset_foldl_addBase (bases seen : List BaseSpec) :
    bases ⊆ seen.foldl addBase bases := by
  induction seen generalizing bases with
  | nil => exact List.Subset.refl bases
  | cons b seen ih =>
    have hstep : bases ⊆ addBase bases b := by
      unfold addBase
      split
      next => exact List.Subset.refl bases
      next => exact List.subset_append_left bases [b]
    exact List.Subset.trans hstep (ih (addBase bases b))

theorem known_foldl_addBase (bases seen : List BaseSpec) :
    ∀ b ∈ seen, ∃ a ∈ seen.foldl addBase bases, a.cls = b.cls := by
  induction seen generalizing bases with
  | nil => simp
  | cons c seen ih =>
    intro b hb
    rcases List.mem_cons.mp hb with rfl | hb
    · have hstep : ∃ a ∈ addBase bases b, a.cls = b.cls := by
        unfold addBase
        split
        next hany => simpa using hany
        next => exact ⟨b, by simp, rfl⟩
      obtain ⟨a, ha, hab⟩ := hstep
      exact ⟨a, subset_foldl_addBase _ seen ha, hab⟩
    · exact ih (addBase bases c) b hb

end Bases

namespace Declaration

variable {x y c : Declaration}

theorem bases_classDetails_absorb (k s : ClassDetails) :
    (k.absorb s).bases = s.bases.foldl addBase k.bases := by
  unfold ClassDetails.absorb
  split <;> rfl

theorem isSome_location_absorb (y c : Declaration) :
    (y.absorb c).location.isSome = (y.location.isSome || c.location.isSome) := by
  unfold absorb
  split
  next =>
    simp only
    split
    next => cases y.location <;> cases c.location <;> rfl
    next => cases y.location <;> cases c.location <;> rfl
  next => cases y.location <;> cases c.location <;> rfl

theorem details_absorb {k' : ClassDetails} (h : (y.absorb c).details = .cls k') :
    ∃ k, y.details = .cls k ∧ k.bases ⊆ k'.bases ∧ (k.isComplete = true → k'.isComplete = true) ∧
      ∀ {s}, c.details = .cls s → k' = k.absorb s := by
  unfold absorb at h
  split at h
  next k s hk hs =>
    cases h
    refine ⟨k, hk, ?_, fun hcomplete ↦ ?_, fun hc ↦ ?_⟩
    · rw [bases_classDetails_absorb]
      exact subset_foldl_addBase _ _
    · rw [isComplete_absorb, hcomplete, Bool.true_or]
    · rw [hs] at hc
      cases hc
      rfl
  next hne =>
    refine ⟨k', h, List.Subset.refl _, fun hcomplete ↦ hcomplete, fun hc ↦ ?_⟩
    exact absurd hc (hne _ _ h)

namespace Knows

protected theorem refl (c : Declaration) : c.Knows c where
  location h := h
  complete hk hs h := by
    rw [hk] at hs
    cases hs
    exact h
  bases hk hs b hb := by
    rw [hk] at hs
    cases hs
    exact ⟨b, hb, rfl⟩

theorem absorb_self (y c : Declaration) : (y.absorb c).Knows c where
  location h := by rw [isSome_location_absorb, h, Bool.or_true]
  complete hk hs h := by
    obtain ⟨k, -, -, -, hk'⟩ := details_absorb hk
    rw [hk' hs, isComplete_absorb, h, Bool.or_true]
  bases hk hs := by
    obtain ⟨k, -, -, -, hk'⟩ := details_absorb hk
    rw [hk' hs, bases_classDetails_absorb]
    exact known_foldl_addBase _ _

theorem absorb (h : y.Knows c) (x : Declaration) : (y.absorb x).Knows c where
  location hc := by rw [isSome_location_absorb, h.location hc, Bool.true_or]
  complete hk hs hc := by
    obtain ⟨k, hk', -, hcomplete, -⟩ := details_absorb hk
    exact hcomplete (h.complete hk' hs hc)
  bases hk hs b hb := by
    obtain ⟨k, hk', hsub, -, -⟩ := details_absorb hk
    obtain ⟨a, ha, hab⟩ := h.bases hk' hs b hb
    exact ⟨a, hsub ha, hab⟩

theorem addMember (h : y.Knows c) (m : DeclId) : (y.addMember m).Knows c := by
  have hdetails {k' : ClassDetails} (hk : (y.addMember m).details = .cls k') :
      ∃ k, y.details = .cls k ∧ k.bases = k'.bases ∧ k.isComplete = k'.isComplete := by
    rcases y with ⟨_, _, _, _, _, _, _, _, _, details⟩
    cases details <;> simp [Declaration.addMember, withMembers, Details.withMembers] at hk
    subst hk
    exact ⟨_, rfl, rfl, rfl⟩
  refine ⟨h.location, fun hk hs hc ↦ ?_, fun hk hs b hb ↦ ?_⟩
  · obtain ⟨k, hk', -, hcomplete⟩ := hdetails hk
    exact hcomplete ▸ h.complete hk' hs hc
  · obtain ⟨k, hk', hbases, -⟩ := hdetails hk
    exact hbases ▸ h.bases hk' hs b hb

theorem absorb_eq (h : y.Knows c) : y.absorb c = y := by
  have hlocation : (y.location <|> c.location) = y.location := by
    cases hy : y.location with
    | some l => rfl
    | none =>
      cases hc : c.location with
      | none => rfl
      | some l =>
        have hsome := h.location (by rw [hc]; rfl)
        rw [hy] at hsome
        cases hsome
  unfold Declaration.absorb
  split
  next k s hk hs =>
    have hdefined : k.isDefinedBy s = false := by
      have hcomplete := h.complete hk hs
      unfold ClassDetails.isDefinedBy
      cases hs' : s.isComplete with
      | false => rw [Bool.and_false]
      | true => rw [hcomplete hs']; rfl
    have hbases : k.absorb s = k := by
      unfold ClassDetails.absorb
      rw [hdefined, foldl_addBase_of_known (h.bases hk hs)]
      rfl
    rw [hdefined, hbases, ← hk]
    simp only [Bool.false_eq_true, if_false, hlocation]
  next => rw [hlocation]

theorem of_decl {r s : Renaming} {d e : DeclId} (h : y.Knows (r.declaration d x))
    (hdecl : s.decl = r.decl) (j : UnitId) : y.Knows (s.declaration e (x.inUnit j)) := by
  have hdetails {t : ClassDetails} (ht : (s.declaration e (x.inUnit j)).details = .cls t) :
      ∃ c, (r.declaration d x).details = .cls c ∧ c.isComplete = t.isComplete ∧
        c.bases = t.bases := by
    have hbase : r.base = s.base := by
      funext b
      rw [Renaming.base, Renaming.base, hdecl]
    rcases x with ⟨_, _, _, _, _, _, _, _, _, details⟩
    cases details with
    | cls c =>
      cases ht
      refine ⟨_, rfl, rfl, ?_⟩
      simp only [Renaming.classDetails, hbase]
    | _ => cases ht
  refine ⟨fun hl ↦ h.location ?_, fun hk ht hc ↦ ?_, fun hk ht b hb ↦ ?_⟩
  · simpa [Renaming.declaration, Declaration.inUnit] using hl
  · obtain ⟨c, hc', hcomplete, -⟩ := hdetails ht
    exact h.complete hk hc' (hcomplete ▸ hc)
  · obtain ⟨c, hc', -, hbases⟩ := hdetails ht
    exact h.bases hk hc' b (hbases ▸ hb)

end Knows

end Declaration

namespace Forest

variable {f g : Forest} {u : ResolvedUnit} {r : Renaming} {done plan : List Placement}
  {p : Placement} {d : DeclId} {y : Declaration}

theorem knows_applyPlacement (h : d.get? g.store.decls = some y) :
    ∃ z, d.get? (applyPlacement r g p).store.decls = some z ∧ ∀ c, y.Knows c → z.Knows c := by
  cases ht : p.target with
  | new e =>
    obtain ⟨hstore, -, -⟩ := applyPlacement_new (r := r) (g := g) ht
    rw [hstore]
    refine ⟨_, get?_addNode_old h, fun c hc ↦ ?_⟩
    split
    next => exact hc.addMember _
    next => exact hc
  | joined e =>
    rw [applyPlacement, ht]
    simp only [setDecls, Id.get?_modify, h, Option.map_some]
    by_cases he : e = d
    · rw [if_pos he]
      exact ⟨_, rfl, fun c hc ↦ hc.absorb _⟩
    · rw [if_neg he]
      exact ⟨y, rfl, fun c hc ↦ hc⟩

theorem knows_target (hm : f.Merging r done g)
    (hnew : ∀ {d}, p.target = .new d → d = f.newId done)
    (hparent : p.source.parent.map r.decl ≠ some (Id.next g.store.decls))
    (hheld : ∀ {d}, p.target = .joined d → ∃ y, d.get? g.store.decls = some y) :
    ∃ y, p.target.id.get? (applyPlacement r g p).store.decls = some y ∧
      y.Knows (r.declaration p.target.id p.source) := by
  cases ht : p.target with
  | new d =>
    obtain ⟨hstore, -, -⟩ := applyPlacement_new (r := r) (g := g) ht
    have hnext : d = Id.next g.store.decls := by
      rw [hnew ht, newId, Id.next, hm.length]
    subst hnext
    rw [hstore]
    exact ⟨_, get?_addNode_new hparent, .refl _⟩
  | joined d =>
    obtain ⟨y, hy⟩ := hheld ht
    rw [applyPlacement, ht]
    simp only [setDecls, Target.id, Id.get?_modify, if_true, hy, Option.map_some]
    exact ⟨_, rfl, .absorb_self _ _⟩

theorem Plans.knows (hf : f.Sound) (hu : u.Sound) (h : f.Plans u done) (hinit : done <+: plan) :
    ∀ p ∈ done, ∃ y, p.target.id.get? (done.foldl (applyPlacement (f.planRenaming u plan))
      (f.typed u plan)).store.decls = some y ∧
        y.Knows ((f.planRenaming u plan).declaration p.target.id p.source) := by
  induction h with
  | @root x hx =>
    intro p hp
    rw [List.mem_singleton.mp hp]
    obtain ⟨z, hz, hparent, -⟩ := hu.tree.root_held rfl
    rw [hx] at hz
    cases hz
    have hstart : f.Merging (f.planRenaming u plan) [] (f.typed u plan) := .start hf rfl rfl rfl
    refine knows_target hstart (fun ht ↦ targetOf_new ht) ?_ fun ht ↦ ?_
    · simp [hparent]
    · obtain ⟨w, hw, -⟩ := hf.tree.root_held (targetOf_joined ht)
      exact ⟨w, hw⟩
  | @snoc done x q scope key hplans hx hfresh hq hscope hkey ih =>
    have hbefore := (List.prefix_append _ _).trans hinit
    have hm := hplans.merging_carryOut hf hu hbefore
    rw [List.foldl_append]
    intro p hp
    rcases List.mem_append.mp hp with hp | hp
    · obtain ⟨y, hy, hknows⟩ := ih hbefore p hp
      obtain ⟨z, hz, hkeep⟩ := knows_applyPlacement hy
      exact ⟨z, hz, hkeep _ hknows⟩
    · rw [List.mem_singleton.mp hp]
      refine knows_target hm (fun ht ↦ targetOf_new ht) ?_ fun ht ↦ ?_
      · -- the scope was there before its member
        obtain ⟨o, ho, hoid, rfl⟩ := placed?_eq_some hscope
        obtain ⟨rest, rfl⟩ := hbefore
        have hrename : (f.planRenaming u (done ++ rest)).decl q = o.target.id :=
          decl_planRenaming (placed?_append hscope)
        obtain ⟨w, hw, -⟩ := hm.node o ho
        have hle := (Id.val_pos_of_get? hw).2
        intro heq
        simp only [hq, Option.map_some, hrename, Option.some_inj] at heq
        rw [heq, Id.next_eq, Id.val_ofIndex] at hle
        omega
      · obtain ⟨k, hk, hd⟩ := Option.bind_eq_some_iff.mp (targetOf_joined ht)
        obtain ⟨w, hw, -⟩ := hf.keyed (mem_keys_of_keyed? hd)
        obtain ⟨y, hy, -⟩ := hm.grows hw
        exact ⟨y, hy⟩

theorem modify_eq_self {slots : List Declaration} {change : Declaration → Declaration}
    (h : ∀ y, d.get? slots = some y → change y = y) : d.modify change slots = slots := by
  apply List.ext_getElem?
  intro n
  have hget : (Id.ofIndex n : DeclId).get? (d.modify change slots) =
      if d = Id.ofIndex n then ((Id.ofIndex n : DeclId).get? slots).map change
      else (Id.ofIndex n : DeclId).get? slots := Id.get?_modify change
  rw [Id.get?_ofIndex, Id.get?_ofIndex] at hget
  rw [hget]
  split
  next hd =>
    cases hn : slots[n]? with
    | none => rfl
    | some y =>
      rw [Option.map_some, h y (by rw [hd]; exact hn)]
  next => rfl

theorem foldl_applyPlacement_eq (h : ∀ p ∈ plan, ∃ d, p.target = .joined d ∧
    ∀ y, d.get? g.store.decls = some y → y.Knows (r.declaration d p.source)) :
    (plan.foldl (applyPlacement r) g).store.decls = g.store.decls := by
  induction plan generalizing g with
  | nil => rfl
  | cons p plan ih =>
    obtain ⟨d, ht, hknows⟩ := h p List.mem_cons_self
    have hstep : (applyPlacement r g p).store.decls = g.store.decls := by
      rw [applyPlacement, ht]
      exact modify_eq_self fun y hy ↦ (hknows y hy).absorb_eq
    rw [List.foldl_cons, ih, hstep]
    intro q hq
    rw [hstep]
    exact h q (List.mem_cons_of_mem p hq)

end Forest

/-- Members of one scope with the same kind, name and signature are the same. -/
def ResolvedUnit.Separate (u : ResolvedUnit) : Prop :=
  ∀ x ∈ u.store.decls, ∀ y ∈ u.store.decls, x.parent = y.parent → u.keyStep x = u.keyStep y → x = y

namespace Forest

section Separate

variable {f g : Forest} {u : ResolvedUnit} {plan : List Placement} {p q : Placement}
  {key : MergeKey} {registry : Registry} (hf : f.Sound) (hjoin : f.settings.joinDeclarations = true)
  (hu : u.Sound) (hnamed : ∀ x ∈ u.store.decls, x.isAnonymous = false)
  (hplan : f.plan u = .ok plan)

include hjoin hu hnamed hplan

theorem key_of_named (hp : p ∈ plan) {scope : DeclId} (hparent : p.source.parent = some scope) :
    ∃ o ∈ plan, o.source.id = scope ∧
      ∃ step, u.keyStep p.source = .ok step ∧ p.key = some (step.under o.target.id) := by
  obtain ⟨hplans, -⟩ := plan_eq_ok hu hplan
  have hanonymous := hnamed p.source (Id.mem_of_get? (hplans.get?_source hu p hp))
  have hkey := hplans.key hjoin hu p hp
  simpa [hparent, hanonymous] using hkey

theorem exists_scope (hp : p ∈ plan) (hkey : p.key = some key) :
    ∃ o ∈ plan, p.source.parent = some o.source.id ∧
      ∃ step, u.keyStep p.source = .ok step ∧ key = step.under o.target.id := by
  obtain ⟨hplans, -⟩ := plan_eq_ok hu hplan
  cases hparent : p.source.parent with
  | none =>
    have hnone := hplans.key hjoin hu p hp
    simp [hparent, hkey] at hnone
  | some scope =>
    obtain ⟨o, ho, rfl, step, hstep, hkey'⟩ := key_of_named hjoin hu hnamed hplan hp hparent
    rw [hkey] at hkey'
    exact ⟨o, ho, rfl, step, hstep, Option.some_inj.mp hkey'⟩

include hf

theorem eq_of_key_eq (hsep : u.Separate) (hp : p ∈ plan) (hq : q ∈ plan)
    (hpkey : p.key = some key) (hqkey : q.key = some key) : p = q := by
  obtain ⟨hplans, -⟩ := plan_eq_ok hu hplan
  have hheld := hplans.get?_source hu
  obtain ⟨o, ho, hop, step, hstep, hkey⟩ := exists_scope hjoin hu hnamed hplan hp hpkey
  obtain ⟨o', ho', hop', step', hstep', hkey'⟩ := exists_scope hjoin hu hnamed hplan hq hqkey
  rw [hkey] at hkey'
  rcases step with ⟨kind, name, signature⟩
  rcases step' with ⟨kind', name', signature'⟩
  simp only [KeyStep.under, MergeKey.mk.injEq] at hkey'
  obtain ⟨htarget, rfl, rfl, rfl⟩ := hkey'
  have hscope : o = o' := List.inj_on_of_nodup_map (hplans.nodup_targets hf) ho ho' htarget
  have hsource : p.source = q.source := by
    refine hsep _ (Id.mem_of_get? (hheld p hp)) _ (Id.mem_of_get? (hheld q hq)) ?_ ?_
    · rw [hop, hop', hscope]
    · rw [hstep, hstep']
  exact List.inj_on_of_nodup_map (nodup_sources hu hplan) hp hq (congrArg (·.id) hsource)

theorem keyed?_of_separate (registry : Registry) (hkeys : f.KeyedOnce) (hsep : u.Separate)
    (hp : p ∈ plan) (hkey : p.key = some key) : (f.carryOut u plan registry).keyed? key = some p.target.id := by
  obtain ⟨hplans, -⟩ := plan_eq_ok hu hplan
  rw [keyed?_carryOut]
  cases hc : carriers plan key with
  | nil =>
    have hmem : p ∈ carriers plan key := mem_carriers.mpr ⟨hp, hkey⟩
    rw [hc] at hmem
    cases hmem
  | cons first rest =>
    have hfirst : first ∈ carriers plan key := hc ▸ List.mem_cons_self
    obtain ⟨hfirst, hfkey⟩ := mem_carriers.mp hfirst
    have heq := eq_of_key_eq hf hjoin hu hnamed hplan hsep hfirst hp hfkey hkey
    subst heq
    cases hbound : f.keyed? key with
    | some d =>
      rw [(hplans.carriers_joined hf hkeys hbound hc).1]
      rfl
    | none =>
      have hnew := hplans.carriers_new hbound first (mem_carriers.mpr ⟨hfirst, hfkey⟩)
      rw [binder?_of_carriers hc hnew]
      rfl

/-- Placing the unit again leads to the nodes of the first time. -/
theorem Plans.rejoins (hkeys : f.KeyedOnce) (hsep : u.Separate) {done : List Placement}
    (h : (f.carryOut u plan registry).Plans u done) :
    ∀ q ∈ done, ∃ p ∈ plan, p.source = q.source ∧ q.target = .joined p.target.id := by
  obtain ⟨hplans, -⟩ := plan_eq_ok hu hplan
  have hm := hplans.merging_carryOut hf hu List.prefix_rfl
  have hsettings := settings_carryOut f u plan registry
  induction h with
  | @root x hx =>
    intro q hq
    rw [List.mem_singleton.mp hq]
    obtain ⟨p, hp, hsource⟩ := exists_placement hu hplan hx
    refine ⟨p, hp, hsource, ?_⟩
    obtain ⟨z, hz, hparent, -⟩ := hu.tree.root_held rfl
    rw [hx] at hz
    cases hz
    obtain ⟨y, hy, -, hyp⟩ := hm.node p hp
    rw [hsource, hparent] at hyp
    have hroot : (f.carryOut u plan registry).root = some p.target.id := hm.sound.tree.orphan hy hyp
    rw [hroot]
    exact targetOf_unclaimed (f := f.carryOut u plan registry) fun q hq ↦
      absurd hq List.not_mem_nil
  | @snoc done x scope node key hdone hx hfresh hparent hnode hkey ih =>
    intro q hq
    rcases List.mem_append.mp hq with hq | hq
    · exact ih q hq
    · rw [List.mem_singleton.mp hq]
      obtain ⟨p, hp, rfl⟩ := exists_placement hu hplan hx
      refine ⟨p, hp, rfl, ?_⟩
      -- the scope has its old node, so the key is the old key
      obtain ⟨o, ho, hoscope, step, hstep, hpkey⟩ :=
        key_of_named hjoin hu hnamed hplan hp hparent
      obtain ⟨o', ho', hoid, rfl⟩ := placed?_eq_some hnode
      obtain ⟨o'', ho'', hsource, htarget⟩ := ih o' ho'
      have hsame : o'' = o := by
        refine List.inj_on_of_nodup_map (nodup_sources hu hplan) ho'' ho ?_
        rw [hsource, hoid, hoscope]
      have hkeys' : key = p.key := by
        have hcases := keyOf_of_join (hsettings ▸ hjoin) hkey
        rw [hnamed p.source (Id.mem_of_get? hx)] at hcases
        obtain ⟨step', hstep', rfl⟩ := hcases
        rw [hstep] at hstep'
        cases hstep'
        rw [hpkey, htarget, hsame]
        rfl
      have hbound := keyed?_of_separate hf hjoin hu hnamed hplan registry hkeys hsep hp hpkey
      simp only [hkeys', hpkey, Option.bind_some, hbound]
      refine targetOf_unclaimed fun r hr hclaimed ↦ ?_
      obtain ⟨r', hr', hrsource, hrtarget⟩ := ih r hr
      rw [hrtarget] at hclaimed
      have heq : r' = p := by
        refine List.inj_on_of_nodup_map (hplans.nodup_targets hf) hr' hp ?_
        simpa using hclaimed
      exact hfresh r hr (by rw [← hrsource, heq])

theorem separate_of_joined (hall : ∀ p ∈ plan, p.target.isNew = false) : u.Separate := by
  obtain ⟨hplans, -⟩ := plan_eq_ok hu hplan
  intro x hx y hy hparent hstep
  obtain ⟨d, hd⟩ := Id.exists_get?_of_mem (k := .decl) hx
  obtain ⟨e, he⟩ := Id.exists_get?_of_mem (k := .decl) hy
  cases hp : x.parent with
  | none =>
    have hdroot := hu.tree.orphan hd hp
    have heroot := hu.tree.orphan he (hparent ▸ hp)
    rw [hdroot] at heroot
    cases heroot
    rw [hd] at he
    exact Option.some_inj.mp he
  | some scope =>
    obtain ⟨p, hp', rfl⟩ := exists_placement hu hplan hd
    obtain ⟨q, hq', rfl⟩ := exists_placement hu hplan he
    obtain ⟨o, ho, hos, step, hpstep, hpkey⟩ := key_of_named hjoin hu hnamed hplan hp' hp
    obtain ⟨o', ho', hos', step', hqstep, hqkey⟩ :=
      key_of_named hjoin hu hnamed hplan hq' (hparent ▸ hp)
    have hscope : o = o' :=
      List.inj_on_of_nodup_map (nodup_sources hu hplan) ho ho' (hos.trans hos'.symm)
    rw [hpstep, hqstep] at hstep
    cases hstep
    have htarget {r : Placement} (hr : r ∈ plan) (hkey : r.key = some (step.under o.target.id)) :
        f.keyed? (step.under o.target.id) = some r.target.id := by
      cases ht : r.target with
      | new d =>
        have hnew := hall r hr
        rw [ht] at hnew
        cases hnew
      | joined d =>
        rcases hplans.joined hr ht with ⟨hnone, -⟩ | ⟨k, hk, hd⟩
        · rw [hkey] at hnone
          cases hnone
        · rw [hkey] at hk
          cases hk
          exact hd
    have hids := (htarget hp' hpkey).symm.trans (htarget hq' (hscope ▸ hqkey))
    have heq := List.inj_on_of_nodup_map (hplans.nodup_targets hf) hp' hq' (Option.some_inj.mp hids)
    rw [heq]

end Separate

section Again

variable {f : Forest} {u : ResolvedUnit} {plan plan' : List Placement} {registry : Registry}

theorem placed?_again (hu : u.Sound) (hplan : f.plan u = .ok plan)
    (hplan' : (f.carryOut u plan registry).plan u = .ok plan')
    (h : ∀ q ∈ plan', ∃ p ∈ plan, p.source = q.source ∧ q.target = .joined p.target.id)
    (d : DeclId) : placed? plan' d = placed? plan d := by
  obtain ⟨hplans, hplaced⟩ := plan_eq_ok hu hplan
  obtain ⟨hplans', hplaced'⟩ := plan_eq_ok hu hplan'
  cases he : placed? plan' d with
  | some e =>
    obtain ⟨q, hq, rfl, rfl⟩ := placed?_eq_some he
    obtain ⟨p, hp, hsource, htarget⟩ := h q hq
    rw [← hsource, hplans.placed?_source p hp, htarget]
    rfl
  | none =>
    cases hold : placed? plan d with
    | none => rfl
    | some e =>
      obtain ⟨p, hp, rfl, -⟩ := placed?_eq_some hold
      obtain ⟨e', he'⟩ := hplaced' (hplans.get?_source hu p hp)
      rw [he] at he'
      cases he'

theorem decls_again (hf : f.Sound) (hu : u.Sound) (hplan : f.plan u = .ok plan)
    (hplan' : (f.carryOut u plan registry).plan u = .ok plan')
    (h : ∀ q ∈ plan', ∃ p ∈ plan, p.source = q.source ∧ q.target = .joined p.target.id)
    (j : UnitId) (registry' : Registry) :
    ((f.carryOut u plan registry).carryOut (u.inUnit j) (plan'.map (·.inUnit j))
      registry').store.decls = (f.carryOut u plan registry).store.decls := by
  obtain ⟨hplans, -⟩ := plan_eq_ok hu hplan
  have hdecl : ((f.carryOut u plan registry).planRenaming (u.inUnit j)
      (plan'.map (·.inUnit j))).decl = (f.planRenaming u plan).decl := by
    funext d
    simp only [planRenaming, renamingOf, placed?_inUnit, placed?_again hu hplan hplan' h]
  refine foldl_applyPlacement_eq fun q hq ↦ ?_
  obtain ⟨q', hq', rfl⟩ := List.mem_map.mp hq
  obtain ⟨p, hp, hsource, htarget⟩ := h q' hq'
  refine ⟨p.target.id, htarget, fun y hy ↦ ?_⟩
  obtain ⟨z, hz, hknows⟩ := hplans.knows hf hu List.prefix_rfl p hp
  have hyz : y = z := Option.some_inj.mp (hy.symm.trans hz)
  rw [hyz]
  rw [hsource] at hknows
  exact hknows.of_decl hdecl j

/-- The second merge adds no declaration, and leaves all of them as they are, just if the unit tells
the members of its scopes apart. -/
theorem merge_again {g g' : Forest} {summary summary' : MergeSummary} {j : UnitId} (hf : f.Sound)
    (hkeys : f.KeyedOnce) (hjoin : f.settings.joinDeclarations = true) (hu : u.Sound)
    (hu' : (u.inUnit j).Sound) (hnamed : ∀ x ∈ u.store.decls, x.isAnonymous = false)
    (h : f.merge u = .ok (g, summary)) (h' : g.merge (u.inUnit j) = .ok (g', summary')) :
    (g'.store.decls.length = g.store.decls.length ↔ u.Separate) ∧
      (g'.store.decls = g.store.decls ↔ u.Separate) := by
  obtain ⟨r, hmerged⟩ := merge_eq_ok hf hu h
  obtain ⟨-, plan, registry, hplan, -, hg, -⟩ := merge_eq_ok_iff.mp h
  obtain ⟨-, again, registry', hagain, -, hg', -⟩ := merge_eq_ok_iff.mp h'
  obtain ⟨plan', hplan'⟩ := returns_plan hjoin hplan g
  have hmap := plan_inUnit j hplan'
  rw [hagain] at hmap
  cases hmap
  have hlength : g'.store.decls.length =
      g.store.decls.length + plan'.countP (·.target.isNew) := by
    obtain ⟨hplans, -⟩ := plan_eq_ok hu' hagain
    have hgrown := (hplans.merging_carryOut hmerged.sound hu' List.prefix_rfl).length
    rw [List.countP_map] at hgrown
    rw [hg']
    exact hgrown
  have hsame (hsep : u.Separate) : g'.store.decls = g.store.decls := by
    subst hg
    obtain ⟨hplans', -⟩ := plan_eq_ok hu hplan'
    have hrejoins := hplans'.rejoins hf hjoin hu hnamed hplan hkeys hsep
    rw [hg']
    exact decls_again hf hu hplan hplan' hrejoins j registry'
  have hseparate (hle : g'.store.decls.length = g.store.decls.length) : u.Separate := by
    have hcount : plan'.countP (·.target.isNew) = 0 := by omega
    refine separate_of_joined hmerged.sound (hmerged.settings ▸ hjoin) hu hnamed hplan' ?_
    intro p hp
    simpa using List.countP_eq_zero.mp hcount p hp
  constructor
  · exact ⟨hseparate, fun hsep ↦ congrArg List.length (hsame hsep)⟩
  · exact ⟨fun heq ↦ hseparate (congrArg List.length heq), hsame⟩

end Again

end Forest

/-- Adding a unit without unnamed scopes once more is accepted. It adds no declaration, and leaves
all declarations as they are, just if no two members of a scope have the same kind, name and
signature. -/
theorem Run.addUnit_again {units : List (List Record)} {lone : Bool} {f g : Forest}
    {records : List Record} {i : UnitId} (h : Run units lone f)
    (hjoin : f.settings.joinDeclarations = true) (hnamed : NamedScopes records)
    (hok : f.addUnit records = .ok (g, i)) :
    ∃ u, buildUnit f.settings f.nextUnit records = .ok u ∧
      ∃ g' j, g.addUnit records = .ok (g', j) ∧
        (g'.store.decls.length = g.store.decls.length ↔ u.Separate) ∧
        (g'.store.decls = g.store.decls ↔ u.Separate) := by
  obtain ⟨u, summary, hbuild, hmerge⟩ := Forest.addUnit_eq_ok hok
  obtain ⟨hu, -, -⟩ := buildUnit_eq_ok hbuild
  have hsettings := Forest.settings_addUnit hok
  obtain ⟨⟨g', j⟩, hagain⟩ := Forest.returns_addUnit hjoin hnamed hok hsettings
  refine ⟨u, hbuild, g', j, hagain, ?_⟩
  obtain ⟨u', summary', hbuild', hmerge'⟩ := Forest.addUnit_eq_ok hagain
  have hu' : u' = u.inUnit g.nextUnit := by
    have hbuilt := hnamed.buildUnit_inUnit g.nextUnit hbuild
    rw [← hsettings, hbuild'] at hbuilt
    exact Except.ok.inj hbuilt
  subst hu'
  exact Forest.merge_again h.sound h.keyedOnce hjoin hu (buildUnit_eq_ok hbuild').1
    (hnamed.isAnonymous hbuild) hmerge hmerge'

instance : DecidablePred ResolvedUnit.Separate := fun u ↦
  inferInstanceAs (Decidable (∀ x ∈ u.store.decls, ∀ y ∈ u.store.decls,
    x.parent = y.parent → u.keyStep x = u.keyStep y → x = y))

theorem namedScopes_of_all {records : List Record}
    (h : records.all (!·.isUnnamedScope) = true) : NamedScopes records := by
  intro r hr hunnamed
  have hnot := List.all_eq_true.mp h r hr
  rw [hunnamed] at hnot
  cases hnot

theorem addUnit_again_sample : ∃ g i g' j, ({} : Forest).addUnit Sample.header = .ok (g, i) ∧
    g.addUnit Sample.header = .ok (g', j) ∧ g'.store.decls = g.store.decls := by
  have hfirst : (·.2) <$> ({} : Forest).addUnit Sample.header = .ok ⟨1⟩ := by cbv
  have hsep : (fun u ↦ decide u.Separate) <$> buildUnit {} ⟨1⟩ Sample.header = .ok true := by cbv
  obtain ⟨⟨g, i⟩, hok, -⟩ := Outcome.map_eq_ok hfirst
  obtain ⟨u, hbuild, g', j, hagain, -, hsame⟩ := Run.addUnit_again (.start {}) rfl
    (namedScopes_of_all (by cbv)) hok
  obtain ⟨u', hbuild', hdecide⟩ := Outcome.map_eq_ok hsep
  have hu : u' = u := Except.ok.inj (hbuild'.symm.trans hbuild)
  exact ⟨g, i, g', j, hok, hagain, hsame.mpr (hu ▸ of_decide_eq_true hdecide)⟩

namespace Sample

def bitFields : List Record :=
  [({ tag := .namespaceTag, id := "n" } : Record).withLiteral Field.name "::",
    (({ tag := .structTag, id := "s" } : Record).withLiteral Field.name "s").withRef
      Field.context "n",
    ({ tag := .fundamentalType, id := "i" } : Record).withLiteral Field.name "int",
    ((({ tag := .field, id := "a" } : Record).withRef Field.context "s").withRef
      Field.type "i").withLiteral Field.bits "3",
    ((({ tag := .field, id := "b" } : Record).withRef Field.context "s").withRef
      Field.type "i").withLiteral Field.bits "5"]

end Sample

/-- The second bit-field does not find its node again. -/
theorem addUnit_again_grows : Run [] false {} ∧ ({} : Forest).settings.joinDeclarations = true ∧
    NamedScopes Sample.bitFields ∧ ∃ g i g' j, ({} : Forest).addUnit Sample.bitFields = .ok (g, i) ∧
      g.addUnit Sample.bitFields = .ok (g', j) ∧
        g.store.decls.length = 4 ∧ g'.store.decls.length = 5 := by
  have h : (do
      let (g, i) ← ({} : Forest).addUnit Sample.bitFields
      let (g', j) ← g.addUnit Sample.bitFields
      return (g.store.decls.length, g'.store.decls.length, i, j) : Outcome _) =
        .ok (4, 5, ⟨1⟩, ⟨2⟩) := by
    cbv
  obtain ⟨⟨g, i⟩, hg, h⟩ := Outcome.bind_eq_ok h
  obtain ⟨⟨g', j⟩, hg', h⟩ := Outcome.bind_eq_ok h
  have hlengths := Except.ok.inj h
  simp only [Prod.mk.injEq] at hlengths
  exact ⟨.start {}, rfl, namedScopes_of_all (by cbv), g, i, g', j, hg, hg', hlengths.1,
    hlengths.2.1⟩

end ScopeForest
