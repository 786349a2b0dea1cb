import ScopeForest.Proofs.Forest.Acyclic
import ScopeForest.Proofs.Forest.Sessions
import ScopeForest.Proofs.Forest.Sightings
import ScopeForest.Proofs.Types.Aliases

namespace ScopeForest

namespace Store

variable {s : Store} {c d : DeclId} {change : Declaration → Declaration}

/-- The chain of typedefs that begins with `d` ends at a type that names `c`. -/
def StandsFor (s : Store) (d c : DeclId) : Prop :=
  ∃ x t u, d.get? s.decls = some x ∧ x.aliased? = some t ∧ s.EndsAt t u ∧
    u.get? s.types = some (.declared c)

theorem leadsTo_mapDecls (hc : Declaration.Neutral change) :
    (s.mapDecls change).LeadsTo = s.LeadsTo := by
  have htarget (d : DeclId) : (d.get? (s.mapDecls change).decls).bind (·.aliased?) =
      (d.get? s.decls).bind (·.aliased?) := by
    rw [get?_mapDecls, Option.bind_map]
    simp only [Function.comp_def, hc.aliased]
  funext t u
  refine propext (exists_congr fun d ↦ ⟨fun h ↦ ⟨h.node, ?_⟩, fun h ↦ ⟨h.node, ?_⟩⟩)
  · rw [← htarget]
    exact h.target
  · rw [htarget]
    exact h.target

theorem standsFor_mapDecls (hc : Declaration.Neutral change) :
    (s.mapDecls change).StandsFor d c ↔ s.StandsFor d c := by
  have hends (t u : TypeId) : (s.mapDecls change).EndsAt t u ↔ s.EndsAt t u := by
    rw [endsAt_iff, endsAt_iff, leadsTo_mapDecls hc]
  simp only [StandsFor, get?_mapDecls, Option.map_eq_some_iff, hends]
  constructor
  · rintro ⟨_, t, u, ⟨x, hx, rfl⟩, ht, hend, hu⟩
    exact ⟨x, t, u, hx, (hc.aliased x).symm.trans ht, hend, hu⟩
  · rintro ⟨x, t, u, hx, ht, hend, hu⟩
    exact ⟨_, t, u, ⟨x, hx, rfl⟩, (hc.aliased x).trans ht, hend, hu⟩

theorem aliasedClass?_eq_some_iff (hs : s.Closed) : s.aliasedClass? d = some c ↔
    s.StandsFor d c ∧ ((c.get? s.decls).bind (·.classDetails?)).isSome := by
  have hends {x : Declaration} {t u : TypeId} (hx : d.get? s.decls = some x)
      (ht : x.aliased? = some t) : s.stripAliases t = .ok u ↔ s.EndsAt t u := by
    refine stripAliases_eq_ok_iff hs.linked (hs.type hx (mem_types_of_expansion? ?_))
    exact expansion?_of_aliased? ht
  constructor
  · intro h
    obtain ⟨x, hx, h⟩ := Option.bind_eq_some_iff.mp h
    obtain ⟨t, ht, h⟩ := Option.bind_eq_some_iff.mp h
    obtain ⟨u, hu, h⟩ := Option.bind_eq_some_iff.mp h
    have hend : s.EndsAt t u := by
      cases hstrip : s.stripAliases t with
      | error e => simp [hstrip, Except.toOption] at hu
      | ok v =>
        rw [hstrip] at hu
        cases hu
        exact (hends hx ht).mp hstrip
    split at h
    next e he =>
      obtain ⟨hclass, hec⟩ := Option.ite_none_right_eq_some.mp h
      cases hec
      exact ⟨⟨x, t, u, hx, ht, hend, he⟩, hclass⟩
    next => cases h
  · rintro ⟨⟨x, t, u, hx, ht, hend, hu⟩, hclass⟩
    refine Option.bind_eq_some_iff.mpr ⟨x, hx, Option.bind_eq_some_iff.mpr ⟨t, ht, ?_⟩⟩
    rw [(hends hx ht).mpr hend]
    simp only [Except.toOption, Option.bind_eq_bind, Option.bind_some, hu]
    exact if_pos hclass

end Store

/-- With each class and union stand the typedefs whose chains end at it, in pre-order. -/
structure Graph.BindsAliases (g : Graph) : Prop where
  mem : ∀ {c : DeclId} {x : Declaration}, c.get? g.store.decls = some x → x.kind.IsClass →
    ∀ d, d ∈ x.aliases ↔ g.store.StandsFor d c
  sublist : ∀ x ∈ g.store.decls, x.aliases.Sublist (g.store.preorder g.root)
  nodup : ∀ x ∈ g.store.decls, x.aliases.Nodup

namespace Declaration

variable {x : Declaration} {aliases : List DeclId}

theorem aliases_withAliases {c : ClassDetails} (h : x.details = .cls c) :
    (x.withAliases aliases).aliases = aliases := by
  rw [Declaration.aliases, classDetails?, withAliases, h]
  rfl

theorem aliases_withAliases_sublist : (x.withAliases aliases).aliases.Sublist aliases := by
  rcases x with ⟨_, _, _, _, _, _, _, _, _, details⟩
  cases details with
  | cls c => exact List.Sublist.refl aliases
  | _ => exact List.nil_sublist aliases

end Declaration

namespace Forest

variable {f : Forest}

theorem settings_rooted (f : Forest) : f.rooted.1.settings = f.settings := by
  cases h : f.root with
  | some d => rw [rooted_of_root h]
  | none =>
    rw [rooted_of_none h]
    rfl

theorem store_freeze (h : f.settings.bindAliases) :
    f.freeze.store = f.rooted.1.store.bindAliases f.freeze.order :=
  if_pos (settings_rooted f ▸ h)

theorem store_freeze_of_not (h : f.settings.bindAliases = false) :
    f.freeze.store = f.rooted.1.store := by
  have hoff : ¬f.rooted.1.settings.bindAliases := by
    rw [settings_rooted, h]
    exact Bool.false_ne_true
  exact if_neg hoff

theorem aliases_rooted (hnone : ∀ x ∈ f.store.decls, x.aliases = []) :
    ∀ x ∈ f.rooted.1.store.decls, x.aliases = [] := by
  cases hroot : f.root with
  | some d =>
    rw [rooted_of_root hroot]
    exact hnone
  | none =>
    rw [rooted_of_none hroot]
    intro x hx
    rcases List.mem_append.mp hx with hx | hx
    · exact hnone x hx
    · rw [List.mem_singleton.mp hx]
      rfl

theorem bindsAliases_freeze (hs : f.Sound) (hf : f.Refers)
    (hnone : ∀ x ∈ f.store.decls, x.aliases = []) (h : f.settings.bindAliases) :
    f.freeze.BindsAliases := by
  obtain ⟨hsound, -, -⟩ := hs.rooted
  have hclosed := hsound.closed (hf.rooted hs)
  have hindexed := hs.indexed
  obtain ⟨change, hneutral, hstore⟩ := exists_neutral_freeze hs
  -- the typedefs are pushed to lists that are empty, since reopening clears them
  have hbound {c : DeclId} {y : Declaration} (hy : c.get? f.freeze.store.decls = some y) :
      ∃ x, c.get? f.rooted.1.store.decls = some x ∧ x.withAliases (f.freeze.order.filter fun d ↦
        f.rooted.1.store.aliasedClass? d == some c) = y := by
    rw [store_freeze h, Store.get?_bindAliases] at hy
    obtain ⟨x, hx, rfl⟩ := Option.map_eq_some_iff.mp hy
    exact ⟨x, hx, by rw [aliases_rooted hnone x (Id.mem_of_get? hx), List.nil_append]⟩
  have hsublist : ∀ y ∈ f.freeze.store.decls, y.aliases.Sublist f.freeze.order := by
    intro y hy
    obtain ⟨c, hc⟩ := Id.exists_get?_of_mem (k := .decl) hy
    obtain ⟨x, -, rfl⟩ := hbound hc
    exact x.aliases_withAliases_sublist.trans List.filter_sublist
  refine ⟨fun {c y} hy hkind d ↦ ?_, hindexed.order ▸ hsublist,
    fun y hy ↦ (hsublist y hy).nodup hindexed.nodup⟩
  obtain ⟨x, hx, rfl⟩ := hbound hy
  obtain ⟨k, hk⟩ := (hsound.tree.fitting hx).exists_class hkind
  have hclass : ((c.get? f.rooted.1.store.decls).bind (·.classDetails?)).isSome := by
    simp [hx, Declaration.classDetails?, hk]
  rw [Declaration.aliases_withAliases hk, List.mem_filter, beq_iff_eq,
    Store.aliasedClass?_eq_some_iff hclosed, hstore, Store.standsFor_mapDecls hneutral,
    and_iff_left hclass, and_iff_right_of_imp]
  -- what stands for something is a declaration, and the order has them all
  rintro ⟨y, -, -, hd, -⟩
  refine hindexed.mem_order.mpr ⟨change y, ?_⟩
  rw [hstore, Store.get?_mapDecls, hd]
  rfl

theorem aliases_freeze (hnone : ∀ x ∈ f.store.decls, x.aliases = [])
    (h : f.settings.bindAliases = false) : ∀ x ∈ f.freeze.store.decls, x.aliases = [] := by
  rw [store_freeze_of_not h]
  exact aliases_rooted hnone

end Forest

/-- However a forest came about, freezing it lists the typedefs of each class, or none at all if the
settings say so. -/
theorem Run.bindsAliases {units : List (List Record)} {lone : Bool} {f : Forest}
    (h : Run units lone f) : (f.settings.bindAliases → f.freeze.BindsAliases) ∧
      (f.settings.bindAliases = false → ∀ x ∈ f.freeze.store.decls, x.aliases = []) :=
  ⟨Forest.bindsAliases_freeze h.sound h.refers h.aliases_eq_nil,
    Forest.aliases_freeze h.aliases_eq_nil⟩

def Sample.chained : List Record :=
  Sample.aliased ++
    [(({ tag := .typedef, id := "u" } : Record).withLiteral Field.name "u").withRef Field.type "t"]

/-- The second typedef is for the first one, which the other unit declares too, and the forest is
frozen and reopened between the units. Where aliases are not bound there are none. -/
theorem bindsAliases_sample : (∃ f, Run [Sample.aliased, Sample.chained] false f ∧
    f.freeze.BindsAliases ∧ f.freeze.store.decls.map (·.aliases) = [[], [⟨3⟩, ⟨4⟩], [], []]) ∧
    ∃ f, Run [Sample.aliased] false f ∧ f.settings.bindAliases = false ∧
      ∀ x ∈ f.freeze.store.decls, x.aliases = [] := by
  constructor
  · have h : (fun f ↦ (f.settings.bindAliases, f.freeze.store.decls.map (·.aliases))) <$> (do
        let f ← Forest.ofUnits {} [Sample.aliased]
        Prod.fst <$> f.freeze.reopen.addUnit Sample.chained) =
        .ok (true, [[], [⟨3⟩, ⟨4⟩], [], []]) := by
      cbv
    obtain ⟨f, hf, hpair⟩ := Outcome.map_eq_ok h
    obtain ⟨hon, haliases⟩ := Prod.mk.inj hpair
    obtain ⟨e, he, hf⟩ := Outcome.bind_eq_ok hf
    obtain ⟨added, hadded, rfl⟩ := Outcome.map_eq_ok hf
    have hrun : Run [Sample.aliased, Sample.chained] false added.1 :=
      (Run.ofUnits he).reopen.addUnit hadded
    exact ⟨added.1, hrun, hrun.bindsAliases.1 hon, haliases⟩
  · have h : (fun f ↦ f.settings.bindAliases) <$>
        Forest.ofUnits { bindAliases := false } [Sample.aliased] = .ok false := by
      cbv
    obtain ⟨f, hf, hoff⟩ := Outcome.map_eq_ok h
    have hrun := Run.ofUnits hf
    exact ⟨f, hrun, hoff, hrun.bindsAliases.2 hoff⟩

end ScopeForest
