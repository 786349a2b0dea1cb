import ScopeForest.Proofs.Types.Requests
import ScopeForest.Proofs.Types.Trees

namespace ScopeForest

open Outcome Relation

theorem Outcome.eq_ok_of_recover {α : Type} {x : Outcome α} {a : α} (h : x.recover = .ok (.ok a)) :
    x = .ok a := by
  cases x with
  | ok b =>
    cases h
    rfl
  | error e => cases e <;> cases h

namespace Store

variable {s : Store} {t u v : TypeId} {d : DeclId} {x : Declaration} {node : Ty}
  {p q : Qualifiers} {F : Form} {rank : TypeId → Nat}

def strip (s : Store) : Ty → Outcome (Option (Qualifiers × TypeId))
  | .declared d => do return (← s.decl d).aliased?.map fun u ↦ ({}, u)
  | node => s.unwrap node

theorem strip_declared (hd : d.get? s.decls = some x) :
    s.strip (.declared d) = .ok (x.aliased?.map fun u ↦ ({}, u)) := by
  rw [strip, decl_of_get? hd]
  rfl

theorem strip_typedef (hd : d.get? s.decls = some x) (hu : x.aliased? = some u) :
    s.strip (.declared d) = .ok (some ({}, u)) := by
  rw [strip_declared hd, hu]
  rfl

theorem strip_returns (hs : s.Linked) (ht : t.get? s.types = some node) :
    Returns (s.strip node) := by
  cases node with
  | declared d =>
    obtain ⟨x, hx⟩ := hs.named ht
    exact ⟨_, strip_declared hx⟩
  | _ => exact ⟨_, rfl⟩

theorem unwrap_of_strip (h : s.strip node = .ok (some (q, u))) :
    s.unwrap node = .ok (some (q, u)) := by
  cases node with
  | declared d =>
    obtain ⟨x, hx, h⟩ := bind_eq_ok h
    obtain ⟨v, hv, h⟩ := Option.map_eq_some_iff.mp (Except.ok.inj h)
    cases h
    exact unwrap_declared (get?_of_decl hx) (expansion?_of_aliased? hv)
  | _ => exact h

theorem unwraps_of_strip (ht : t.get? s.types = some node)
    (h : s.strip node = .ok (some (q, u))) : s.Unwraps t u :=
  unwraps_of_unwrap ht (unwrap_of_strip h)

/-- A type that is neither qualified nor a typedef. -/
structure Uncovered (s : Store) (t : TypeId) : Prop where
  held : s.HoldsType t
  const : ∀ v, t.get? s.types ≠ some (.const v)
  volatile : ∀ v, t.get? s.types ≠ some (.volatile v)
  typedef : ∀ {d x}, t.get? s.types = some (.declared d) → d.get? s.decls = some x →
    x.aliased? = none

theorem uncovered_of_strip (ht : t.get? s.types = some node) (h : s.strip node = .ok none) :
    s.Uncovered t := by
  have hnode {y : Ty} (hy : t.get? s.types = some y) : s.strip y = .ok none := by
    rw [ht] at hy
    cases hy
    exact h
  refine ⟨⟨node, ht⟩, fun v hv ↦ ?_, fun v hv ↦ ?_, fun {d x} hd hx ↦ ?_⟩
  · cases hnode hv
  · cases hnode hv
  · have hnone := hnode hd
    rw [strip_declared hx, Except.ok.injEq] at hnone
    exact Option.map_eq_none_iff.mp hnone

/-- Some steps one after the other, with all qualifiers on the way. -/
inductive StripsTo (s : Store) : TypeId → Qualifiers → TypeId → Prop
  | refl (t : TypeId) : StripsTo s t {} t
  | head {t u v : TypeId} {p q : Qualifiers} {node : Ty} (ht : t.get? s.types = some node)
      (h : s.strip node = .ok (some (p, u))) (hu : StripsTo s u q v) : StripsTo s t (p.union q) v

/-- The type `v` is what is left of `t` when no step can be taken any more. -/
structure Sees (s : Store) (t : TypeId) (q : Qualifiers) (v : TypeId) : Prop where
  path : s.StripsTo t q v
  last : ∃ node, v.get? s.types = some node ∧ s.strip node = .ok none

namespace StripsTo

theorem trans (h : s.StripsTo t p u) (hu : s.StripsTo u q v) : s.StripsTo t (p.union q) v := by
  induction h with
  | refl t => rwa [Qualifiers.none_union]
  | head ht h _ ih =>
    rw [Qualifiers.union_assoc]
    exact .head ht h (ih hu)

theorem unwraps (h : s.StripsTo t q v) : ReflTransGen s.Unwraps t v := by
  induction h with
  | refl t => exact .refl
  | head ht h _ ih => exact .head (unwraps_of_strip ht h) ih

theorem path (h : s.StripsTo t q v) : ReflTransGen s.Expands t v :=
  ReflTransGen.mono (fun _ _ ↦ Unwraps.expands) _ _ h.unwraps

theorem held (h : s.StripsTo t q v) (hv : s.HoldsType v) : s.HoldsType t := by
  cases h with
  | refl t => exact hv
  | head ht _ _ => exact ⟨_, ht⟩

end StripsTo

theorem Sees.uncovered (h : s.Sees t q v) : s.Uncovered v := by
  obtain ⟨node, hnode, hnone⟩ := h.last
  exact uncovered_of_strip hnode hnone

theorem Sees.unique (h : s.Sees t p u) (h' : s.Sees t q v) : p = q ∧ u = v := by
  obtain ⟨hpath, hlast⟩ := h
  induction hpath generalizing q with
  | refl t =>
    obtain ⟨node, ht, hnone⟩ := hlast
    cases h'.path with
    | refl => exact ⟨rfl, rfl⟩
    | head ht' hstep _ =>
      rw [ht] at ht'
      cases ht'
      rw [hnone] at hstep
      cases hstep
  | head ht hstep _ ih =>
    obtain ⟨hpath', hlast'⟩ := h'
    cases hpath' with
    | refl =>
      obtain ⟨node, ht', hnone⟩ := hlast'
      rw [ht] at ht'
      cases ht'
      rw [hstep] at hnone
      cases hnone
    | head ht' hstep' hrest' =>
      rw [ht] at ht'
      cases ht'
      rw [hstep] at hstep'
      cases hstep'
      obtain ⟨rfl, rfl⟩ := ih ⟨hrest', hlast'⟩ hlast
      exact ⟨rfl, rfl⟩

theorem strip_of_bare (hbare : (∀ v, node ≠ .const v) ∧ ∀ v, node ≠ .volatile v)
    (hlast : ∀ d, node = .declared d → s.strip (.declared d) = .ok none) :
    s.strip node = .ok none := by
  cases node with
  | declared d => exact hlast d rfl
  | const v => exact absurd rfl (hbare.1 v)
  | volatile v => exact absurd rfl (hbare.2 v)
  | _ => rfl

theorem stripsTo_of_followAliases {seen : List DeclId} (h : s.followAliases seen t = .ok u) :
    s.StripsTo t {} u ∧ ∀ d, u.get? s.types = some (.declared d) →
      s.strip (.declared d) = .ok none := by
  fun_induction followAliases s seen t with
  | case1 | case2 | case4 => cases h
  | case3 seen t d hd x hx hnone =>
    cases h
    refine ⟨.refl _, fun e he ↦ ?_⟩
    rw [get?_of_ty hd] at he
    cases he
    rw [strip_declared hx, hnone]
    rfl
  | case5 seen t d hd x hx target htarget hmem ih =>
    obtain ⟨hpath, hlast⟩ := ih h
    exact ⟨.head (get?_of_ty hd) (strip_typedef hx htarget) hpath, hlast⟩
  | case6 seen t node hnode hty =>
    cases h
    refine ⟨.refl _, fun d hd ↦ ?_⟩
    rw [get?_of_ty hty] at hd
    exact absurd (Option.some_inj.mp hd) (hnode d)

theorem stripsTo_of_stripQualifiersAux {fuel : Nat}
    (h : s.stripQualifiersAux fuel q t = .ok (u, p)) :
    ∃ r, s.StripsTo t r u ∧ p = q.union r ∧ ∃ node, u.get? s.types = some node ∧
      (∀ v, node ≠ .const v) ∧ ∀ v, node ≠ .volatile v := by
  induction fuel generalizing q t with
  | zero => cases h
  | succ fuel ih =>
    unfold stripQualifiersAux at h
    split at h
    next => cases h
    next v hv =>
      obtain ⟨r, hpath, rfl, hheld⟩ := ih h
      refine ⟨_, .head (get?_of_ty hv) rfl hpath, ?_, hheld⟩
      simp [Qualifiers.union]
    next v hv =>
      obtain ⟨r, hpath, rfl, hheld⟩ := ih h
      refine ⟨_, .head (get?_of_ty hv) rfl hpath, ?_, hheld⟩
      simp [Qualifiers.union]
    next node hconst hvolatile hnode =>
      cases h
      exact ⟨{}, .refl _, (Qualifiers.union_none _).symm, node, get?_of_ty hnode,
        hconst, hvolatile⟩

section Ranked

variable (hs : s.Linked) (hr : s.Ranking s.Expands rank)

section Ends

include hr

theorem StripsTo.rank_lt_or_eq (h : s.StripsTo t q v) (hv : s.HoldsType v) :
    rank v < rank t ∨ v = t ∧ q = {} := by
  cases h with
  | refl t => exact .inr ⟨rfl, rfl⟩
  | head ht hstep hrest =>
    have hlt := hr.lt (unwraps_of_strip ht hstep).expands
    have hle := hr.le ⟨hv, hrest.path⟩
    exact .inl (by omega)

theorem StripsTo.eq_of_comeback (h : s.StripsTo t p u) (h' : s.StripsTo u q t)
    (ht : s.HoldsType t) : u = t ∧ q = {} := by
  rcases h.rank_lt_or_eq hr (h'.held ht) with hlt | ⟨rfl, -⟩
  · rcases h'.rank_lt_or_eq hr ht with hlt' | ⟨rfl, -⟩ <;> omega
  · rcases h'.rank_lt_or_eq hr ht with hlt' | ⟨-, rfl⟩
    · omega
    · exact ⟨rfl, rfl⟩

theorem sees_of_viewAux {fuel : Nat} (h : s.viewAux fuel q t = .ok (some (v, p))) :
    ∃ r, s.Sees t r v ∧ p = q.union r := by
  induction fuel generalizing q t with
  | zero => cases h
  | succ fuel ih =>
    obtain ⟨target, htarget, h⟩ := bind_eq_ok h
    cases target with
    | error e => cases h
    | ok u =>
      obtain ⟨⟨w, r⟩, hw, h⟩ := bind_eq_ok h
      obtain ⟨htu, hlast⟩ := stripsTo_of_followAliases (eq_ok_of_recover htarget)
      obtain ⟨r', huw, hr', node, hnode, hbare⟩ := stripsTo_of_stripQualifiersAux hw
      rw [Qualifiers.none_union] at hr'
      subst hr'
      simp only at h
      split at h
      next hwt =>
        cases h
        subst hwt
        -- a round that changes nothing has found nothing to look through
        obtain ⟨rfl, rfl⟩ := htu.eq_of_comeback hr huw ⟨node, hnode⟩
        have hnone := strip_of_bare hbare fun d hd ↦ hlast d (hd ▸ hnode)
        exact ⟨{}, ⟨.refl u, node, hnode, hnone⟩, rfl⟩
      next hne =>
        obtain ⟨r', hsees, rfl⟩ := ih h
        have hpath := (htu.trans huw).trans hsees.path
        rw [Qualifiers.none_union] at hpath
        exact ⟨_, ⟨hpath, hsees.last⟩, Qualifiers.union_assoc _ _ _⟩

end Ends

include hs hr

theorem exists_view (ht : s.HoldsType t) :
    ∃ v q, s.view t = .ok (some (v, q)) ∧ s.Sees t q v := by
  obtain ⟨v, q, hv, -⟩ := view_returns hs hr ht
  obtain ⟨r, hsees, rfl⟩ := sees_of_viewAux hr hv
  exact ⟨v, r, hv, hsees⟩

/-- A view is what is left of a type when all steps are taken. -/
theorem view_eq_iff : s.view t = .ok (some (v, q)) ↔ s.Sees t q v := by
  constructor
  · intro h
    obtain ⟨r, hsees, rfl⟩ := sees_of_viewAux hr h
    rwa [Qualifiers.none_union]
  · intro h
    obtain ⟨node, hnode, -⟩ := h.last
    obtain ⟨w, p, hw, hsees⟩ := exists_view hs hr (h.path.held ⟨node, hnode⟩)
    obtain ⟨rfl, rfl⟩ := h.unique hsees
    exact hw

theorem form_of_stripsTo (h : s.StripsTo t q v) (hv : s.form v = .ok F) :
    s.form t = .ok (F.qualify q) := by
  induction h with
  | refl t => rwa [Form.qualify_none]
  | head ht hstep _ ih =>
    rw [← Form.qualify_qualify]
    exact form_of_unwrap hs hr ht (unwrap_of_strip hstep) (ih hv)

/-- What is left has the canonical head of the type, and the other qualifiers on the way to it. -/
theorem Sees.canonicalHead (h : s.Sees t q v) : ∃ c p, s.canonicalHead v = .ok (c, p) ∧
    s.canonicalHead t = .ok (c, q.union p) := by
  obtain ⟨node, hnode, -⟩ := h.last
  have hheld : s.HoldsType v := ⟨node, hnode⟩
  obtain ⟨c, p, x, parts, hc, -, -, -, -, hform⟩ := exists_head hs hr hheld
  obtain ⟨d, r, y, parts', hd, -, -, -, -, hform'⟩ := exists_head hs hr (h.path.held hheld)
  have hunwraps : s.HasHead t c :=
    ⟨h.path.unwraps.trans (hasHead_of_followHead hc).path, (hasHead_of_followHead hc).last⟩
  obtain rfl := hunwraps.unique (hasHead_of_followHead hd)
  rw [form_of_stripsTo hs hr h.path hform] at hform'
  obtain ⟨rfl, -, -⟩ := Form.node.inj (Except.ok.inj hform')
  exact ⟨c, p, hc, hd⟩

end Ranked

def seen (s : Store) : Look := fun t ↦ do
  match ← s.view t with
  | some top => return top
  | none => Outcome.fault .endless

theorem seen_eq_iff : s.seen t = .ok (v, q) ↔ s.view t = .ok (some (v, q)) := by
  rw [seen]
  rcases s.view t with e | top
  · simp [bind, Except.bind]
  · cases top <;> simp [bind, Except.bind, pure, Except.pure, Outcome.fault]

/-- Types that are respelled by typedefs and by qualifiers, at any depth. Neither changes what is
left of a type as long as the qualifiers on the way to it are the same, in whatever order. -/
inductive Respells (s : Store) : TypeId → TypeId → Prop
  | refl {t : TypeId} (ht : s.HoldsType t) : Respells s t t
  | symm {t u : TypeId} (h : Respells s t u) : Respells s u t
  | trans {t u v : TypeId} (h : Respells s t u) (h' : Respells s u v) : Respells s t v
  | wrap {t u v w : TypeId} {q : Qualifiers} (ht : s.StripsTo t q v) (hu : s.StripsTo u q w)
      (h : Respells s v w) : Respells s t u
  | congr {t u : TypeId} {x y : Ty} (ht : t.get? s.types = some x) (hu : u.get? s.types = some y)
      (hlabel : x.label = y.label) (hlength : x.children.length = y.children.length)
      (h : ∀ {v w}, (v, w) ∈ x.children.zip y.children → Respells s v w) : Respells s t u

theorem Respells.typedef (ht : t.get? s.types = some (.declared d)) (hx : d.get? s.decls = some x)
    (hu : x.aliased? = some u) (hheld : s.HoldsType u) : s.Respells t u :=
  .wrap (.head ht (strip_typedef hx hu) (.refl u)) (.refl u) (.refl hheld)

theorem Respells.order {a b : TypeId} (ht : t.get? s.types = some (.const a))
    (ha : a.get? s.types = some (.volatile v)) (hu : u.get? s.types = some (.volatile b))
    (hb : b.get? s.types = some (.const v)) (hheld : s.HoldsType v) : s.Respells t u := by
  have htv : s.StripsTo t _ v := .head ht rfl (.head ha rfl (.refl v))
  have huv : s.StripsTo u _ v := .head hu rfl (.head hb rfl (.refl v))
  exact .wrap htv huv (.refl hheld)

section Ranked

variable (hs : s.Linked) (hr : s.Ranking s.Expands rank)

include hs hr

theorem seen_eq_iff_sees : s.seen t = .ok (v, q) ↔ s.Sees t q v :=
  seen_eq_iff.trans (view_eq_iff hs hr)

theorem looks_seen : s.Looks s.seen where
  held {t head q} h hheld := ((seen_eq_iff_sees hs hr).mp h).path.held hheld
  returns {t} ht := by
    obtain ⟨head, q, hview, hreach⟩ := view_returns hs hr ht
    exact ⟨head, q, seen_eq_iff.mpr hview, hreach⟩
  form {t head q F} h hF := form_of_stripsTo hs hr ((seen_eq_iff_sees hs hr).mp h).path hF

theorem sameUnfolding_of_view (ht : s.HoldsType t) (h : s.view t = s.view u) :
    s.SameUnfolding s.seen t u := by
  obtain ⟨head, q, node, parts, hhead, hnode, hparts, hF⟩ :=
    exists_unfolding hs hr (looks_seen hs hr) ht
  have hhead' : s.seen u = .ok (head, q) := seen_eq_iff.mpr (h ▸ seen_eq_iff.mp hhead)
  exact ⟨_, hF, unfold_of_look hs hr (looks_seen hs hr) hhead' hnode hparts⟩

theorem unfold_of_stripsTo (h : s.StripsTo t q v) (hv : s.unfold s.seen v = .ok F) :
    s.unfold s.seen t = .ok (F.qualify q) := by
  have hlooks := looks_seen hs hr
  obtain ⟨head, p, node, parts, hhead, hnode, hparts, hF⟩ :=
    exists_unfolding hs hr hlooks (hlooks.held_of_unfold hv)
  have hsees := (seen_eq_iff_sees hs hr).mp hhead
  have hhead' : s.seen t = .ok (head, q.union p) :=
    (seen_eq_iff_sees hs hr).mpr ⟨h.trans hsees.path, hsees.last⟩
  rw [hv] at hF
  cases hF
  exact unfold_of_look hs hr hlooks hhead' hnode hparts

theorem sameUnfolding_of_paired {x y : Ty} (ht : t.get? s.types = some x)
    (hu : u.get? s.types = some y) (h : x.Paired (s.SameUnfolding s.seen) y) :
    s.SameUnfolding s.seen t u := by
  have hlooks := looks_seen hs hr
  have hwrap {v w : TypeId} {q : Qualifiers} (hvw : s.SameUnfolding s.seen v w)
      (hx : s.strip x = .ok (some (q, v))) (hy : s.strip y = .ok (some (q, w))) :
      s.SameUnfolding s.seen t u := by
    obtain ⟨F, hv, hw⟩ := hvw
    exact ⟨_, unfold_of_stripsTo hs hr (.head ht hx (.refl v)) hv,
      unfold_of_stripsTo hs hr (.head hu hy (.refl w)) hw⟩
  have hself {v : TypeId} {node : Ty} (hv : v.get? s.types = some node)
      (hnone : s.strip node = .ok none) : s.seen v = .ok (v, {}) :=
    (seen_eq_iff_sees hs hr).mpr ⟨.refl v, node, hv, hnone⟩
  have hhead (hx : s.strip x = .ok none) (hy : s.strip y = .ok none) :
      s.SameUnfolding s.seen t u :=
    sameUnfolding_of_nodes hs hr hlooks (hself ht hx) (hself hu hy) ht hu h
  cases h with
  | const hvw => exact hwrap hvw rfl rfl
  | volatile hvw => exact hwrap hvw rfl rfl
  | declared d =>
    -- the same node twice, whether it is looked through or not
    obtain ⟨step, hstep⟩ := strip_returns hs ht
    cases step with
    | none => exact hhead hstep hstep
    | some step =>
      have hheld := hs.expands (unwraps_of_strip ht hstep).expands
      obtain ⟨F, hF⟩ := unfold_returns hs hr hlooks hheld
      exact hwrap ⟨F, hF, hF⟩ hstep hstep
  | _ => exact hhead rfl rfl

theorem Respells.sameUnfolding (h : s.Respells t u) : s.SameUnfolding s.seen t u := by
  induction h with
  | refl ht =>
    obtain ⟨F, hF⟩ := unfold_returns hs hr (looks_seen hs hr) ht
    exact ⟨F, hF, hF⟩
  | symm _ ih =>
    obtain ⟨F, ht, hu⟩ := ih
    exact ⟨F, hu, ht⟩
  | trans _ _ ih ih' =>
    obtain ⟨F, ht, hu⟩ := ih
    obtain ⟨G, hu', hv⟩ := ih'
    rw [hu] at hu'
    cases hu'
    exact ⟨F, ht, hv⟩
  | wrap ht hu _ ih =>
    obtain ⟨F, hv, hw⟩ := ih
    exact ⟨_, unfold_of_stripsTo hs hr ht hv, unfold_of_stripsTo hs hr hu hw⟩
  | congr ht hu hlabel hlength _ ih =>
    have hpairs := List.forall₂_iff_zip.mpr ⟨hlength, ih⟩
    exact sameUnfolding_of_paired hs hr ht hu (Ty.paired_of_label hlabel hpairs)

end Ranked

end Store

end ScopeForest
