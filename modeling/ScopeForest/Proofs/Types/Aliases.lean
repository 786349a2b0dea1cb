import ScopeForest.Proofs.Types.Sight

namespace ScopeForest

namespace Store

open Relation

variable {s : Store} {t u v w : TypeId} {d e : DeclId} {x : Declaration}

/-- The type `t` names the typedef `d`, which is for `u`. -/
structure NamesAlias (s : Store) (t : TypeId) (d : DeclId) (u : TypeId) : Prop where
  node : t.get? s.types = some (.declared d)
  target : (d.get? s.decls).bind (·.aliased?) = some u

def LeadsTo (s : Store) (t u : TypeId) : Prop := ∃ d, s.NamesAlias t d u

/-- The chain of typedefs from `t` ends at `u`. -/
@[mk_iff]
structure EndsAt (s : Store) (t u : TypeId) : Prop where
  path : ReflTransGen s.LeadsTo t u
  last : ∀ v, ¬s.LeadsTo u v

theorem NamesAlias.unique (h : s.NamesAlias t d u) (h' : s.NamesAlias t e v) : d = e ∧ u = v := by
  have hnode := h.node.symm.trans h'.node
  cases hnode
  exact ⟨rfl, Option.some_inj.mp (h.target.symm.trans h'.target)⟩

theorem NamesAlias.target_unique (h : s.NamesAlias t d u) (h' : s.NamesAlias w d v) : u = v :=
  Option.some_inj.mp (h.target.symm.trans h'.target)

theorem NamesAlias.exists_decl (h : s.NamesAlias t d u) :
    ∃ x, d.get? s.decls = some x ∧ x.aliased? = some u :=
  Option.bind_eq_some_iff.mp h.target

theorem namesAlias_of_get? (ht : t.get? s.types = some (.declared d))
    (hd : d.get? s.decls = some x) (hu : x.aliased? = some u) : s.NamesAlias t d u :=
  ⟨ht, by rw [hd]; exact hu⟩

theorem LeadsTo.unique (h : s.LeadsTo t u) (h' : s.LeadsTo t v) : u = v := by
  obtain ⟨d, hd⟩ := h
  obtain ⟨e, he⟩ := h'
  exact (hd.unique he).2

theorem LeadsTo.expands (h : s.LeadsTo t u) : s.Expands t u := by
  obtain ⟨d, hd⟩ := h
  obtain ⟨x, hx, hu⟩ := hd.exists_decl
  exact .named hd.node hx (expansion?_of_aliased? hu)

namespace EndsAt

theorem head (h : s.LeadsTo t u) (hu : s.EndsAt u v) : s.EndsAt t v := ⟨.head h hu.path, hu.last⟩

theorem tail (h : s.EndsAt t v) (htu : s.LeadsTo t u) : s.EndsAt u v := by
  rcases h.path.cases_head with rfl | ⟨w, htw, hw⟩
  · exact absurd htu (h.last u)
  · obtain rfl := htu.unique htw
    exact ⟨hw, h.last⟩

theorem unique (h : s.EndsAt t u) (h' : s.EndsAt t v) : u = v := by
  obtain ⟨hpath, hlast⟩ := h
  induction hpath using ReflTransGen.head_induction_on with
  | refl =>
    rcases h'.path.cases_head with rfl | ⟨w, huw, -⟩
    · rfl
    · exact absurd huw (hlast w)
  | head hstep _ ih => exact ih (h'.tail hstep)

theorem not_transGen (h : s.EndsAt t u) : ¬TransGen s.LeadsTo t t := by
  obtain ⟨hpath, hlast⟩ := h
  induction hpath using ReflTransGen.head_induction_on with
  | refl =>
    intro hcircle
    obtain ⟨v, huv, -⟩ := TransGen.head'_iff.mp hcircle
    exact hlast v huv
  | head hstep _ ih =>
    intro hcircle
    obtain ⟨v, htv, hback⟩ := TransGen.head'_iff.mp hcircle
    obtain rfl := hstep.unique htv
    exact ih (.tail' hback hstep)

end EndsAt

theorem endsAt_self (ht : t.get? s.types = some (.declared d)) (hd : d.get? s.decls = some x)
    (hx : x.aliased? = none) : s.EndsAt t t := by
  refine ⟨.refl, fun v hv ↦ ?_⟩
  obtain ⟨e, he⟩ := hv
  have hnode := ht.symm.trans he.node
  cases hnode
  have htarget := he.target
  rw [hd, Option.bind_some, hx] at htarget
  cases htarget

theorem endsAt_self_of_ne {node : Ty} (ht : t.get? s.types = some node)
    (hnode : ∀ d, node ≠ .declared d) : s.EndsAt t t := by
  refine ⟨.refl, fun v hv ↦ ?_⟩
  obtain ⟨d, hd⟩ := hv
  exact hnode d (Option.some_inj.mp (ht.symm.trans hd.node))

theorem endsAt_of_followAliases {seen : List DeclId} (h : s.followAliases seen t = .ok u) :
    s.EndsAt t u := by
  fun_induction followAliases s seen t with
  | case1 | case2 | case4 => cases h
  | case3 seen t d hd x hx hnone =>
    cases h
    exact endsAt_self (get?_of_ty hd) hx hnone
  | case5 seen t d hd x hx target htarget hmem ih =>
    exact (ih h).head ⟨d, namesAlias_of_get? (get?_of_ty hd) hx htarget⟩
  | case6 seen t node hnode hty =>
    cases h
    exact endsAt_self_of_ne (get?_of_ty hty) hnode

/-- A chain that ends is followed to its end, if it meets none of the typedefs seen before. -/
theorem followAliases_of_endsAt (hs : s.Linked) {seen : List DeclId} (ht : s.HoldsType t)
    (h : s.EndsAt t u) (hfresh : ∀ d ∈ seen, ∀ {v w}, ReflTransGen s.LeadsTo t v →
      ¬s.NamesAlias v d w) : s.followAliases seen t = .ok u := by
  fun_induction followAliases s seen t with
  | case1 seen t e he =>
    obtain ⟨node, hnode⟩ := ht
    rw [ty_of_get? hnode] at he
    cases he
  | case2 seen t d hd hnone =>
    obtain ⟨x, hx⟩ := hs.named (get?_of_ty hd)
    rw [hnone] at hx
    cases hx
  | case3 seen t d hd x hx hnone =>
    rw [(endsAt_self (get?_of_ty hd) hx hnone).unique h]
  | case4 seen t d hd x hx target htarget hmem =>
    exact absurd (namesAlias_of_get? (get?_of_ty hd) hx htarget) (hfresh d hmem .refl)
  | case5 seen t d hd x hx target htarget hmem ih =>
    have hnames := namesAlias_of_get? (get?_of_ty hd) hx htarget
    have hrest := h.tail ⟨d, hnames⟩
    refine ih (hs.expands (LeadsTo.expands ⟨d, hnames⟩)) hrest fun e he v w hpath hv ↦ ?_
    rcases List.mem_cons.mp he with rfl | he
    · -- whatever names the same typedef again leads back to its target
      obtain rfl := hnames.target_unique hv
      exact hrest.not_transGen (.tail' hpath ⟨e, hv⟩)
    · exact hfresh e he (.head ⟨d, hnames⟩ hpath) hv
  | case6 seen t node hnode hty =>
    rw [(endsAt_self_of_ne (get?_of_ty hty) hnode).unique h]

/-- Stripping gives the type where the chain of typedefs ends, if it ends. -/
theorem stripAliases_eq_ok_iff (hs : s.Linked) (ht : s.HoldsType t) :
    s.stripAliases t = .ok u ↔ s.EndsAt t u :=
  ⟨endsAt_of_followAliases, fun h ↦ followAliases_of_endsAt hs ht h nofun⟩

/-- Every type that the chain from `t` comes to is a typedef. -/
def NeverEnds (s : Store) (t : TypeId) : Prop :=
  ∀ u, ReflTransGen s.LeadsTo t u → ∃ v, s.LeadsTo u v

/-- The chain from `t` comes to the typedef `d`, and from what `d` is for it comes to `d` again. The
two types that name `d` need not be the same. -/
def Circles (s : Store) (t : TypeId) (d : DeclId) : Prop :=
  ∃ v w u, ReflTransGen s.LeadsTo t v ∧ s.NamesAlias v d u ∧
    ReflTransGen s.LeadsTo u w ∧ s.NamesAlias w d u

theorem neverEnds_iff : s.NeverEnds t ↔ ∀ u, ¬s.EndsAt t u := by
  constructor
  · intro h u hu
    obtain ⟨v, hv⟩ := h u hu.path
    exact hu.last v hv
  · intro h u hu
    by_contra hnone
    exact h u ⟨hu, not_exists.mp hnone⟩

theorem EndsAt.of_path (h : s.EndsAt t u) (hv : ReflTransGen s.LeadsTo t v) : s.EndsAt v u := by
  induction hv with
  | refl => exact h
  | tail _ hstep ih => exact ih.tail hstep

theorem EndsAt.holdsType (hs : s.Linked) (ht : s.HoldsType t) (h : s.EndsAt t u) :
    s.HoldsType u := by
  rcases h.path.cases_tail with rfl | ⟨v, -, hvu⟩
  · exact ht
  · exact hs.expands hvu.expands

theorem Circles.neverEnds (h : s.Circles t d) : s.NeverEnds t := by
  obtain ⟨v, w, u, htv, hv, huw, hw⟩ := h
  refine neverEnds_iff.mpr fun r hr ↦ ?_
  have hpath : ReflTransGen s.LeadsTo t w := htv.trans (.head ⟨d, hv⟩ huw)
  exact (hr.of_path hpath).not_transGen (.head' ⟨d, hw⟩ huw)

/-- What the walk from `start` has done by the time it stands at `t`: whatever it has seen was named
on its way, and led it on to `t`. -/
structure Walked (s : Store) (start : TypeId) (seen : List DeclId) (t : TypeId) : Prop where
  path : ReflTransGen s.LeadsTo start t
  seen : ∀ d ∈ seen, ∃ v u, ReflTransGen s.LeadsTo start v ∧ s.NamesAlias v d u ∧
    ReflTransGen s.LeadsTo u t

theorem Walked.start (s : Store) (t : TypeId) : s.Walked t [] t :=
  ⟨.refl, fun _ hd ↦ absurd hd List.not_mem_nil⟩

theorem Walked.step {start : TypeId} {seen : List DeclId} (h : s.Walked start seen t)
    (hd : s.NamesAlias t d u) : s.Walked start (d :: seen) u := by
  refine ⟨h.path.tail ⟨d, hd⟩, fun e he ↦ ?_⟩
  rcases List.mem_cons.mp he with rfl | he
  · exact ⟨t, u, h.path, hd, .refl⟩
  · obtain ⟨v, w, hv, hnames, hw⟩ := h.seen e he
    exact ⟨v, w, hv, hnames, hw.tail ⟨d, hd⟩⟩

theorem Walked.circles {start : TypeId} {seen : List DeclId} (h : s.Walked start seen t)
    (hd : s.NamesAlias t d u) (hmem : d ∈ seen) : s.Circles start d := by
  obtain ⟨v, w, hv, hnames, hw⟩ := h.seen d hmem
  obtain rfl := hnames.target_unique hd
  exact ⟨v, t, w, hv, hnames, hw, hd⟩

/-- Following a chain ends with a type or blames a typedef on a circle, whatever the store is
like. -/
theorem followAliases_cases (hs : s.Linked) {start : TypeId} {seen : List DeclId}
    (ht : s.HoldsType t) (h : s.Walked start seen t) :
    (∃ u, s.followAliases seen t = .ok u) ∨ ∃ d x, s.Circles start d ∧ d.get? s.decls = some x ∧
      s.followAliases seen t = Outcome.refuse (.cyclicAlias x.externalId) := by
  fun_induction followAliases s seen t with
  | case1 seen t e he =>
    obtain ⟨node, hnode⟩ := ht
    rw [ty_of_get? hnode] at he
    cases he
  | case2 seen t d hd hnone =>
    obtain ⟨x, hx⟩ := hs.named (get?_of_ty hd)
    rw [hnone] at hx
    cases hx
  | case3 seen t | case6 seen t => exact .inl ⟨t, rfl⟩
  | case4 seen t d hd x hx target htarget hmem =>
    have hnames := namesAlias_of_get? (get?_of_ty hd) hx htarget
    exact .inr ⟨d, x, h.circles hnames hmem, hx, rfl⟩
  | case5 seen t d hd x hx target htarget hmem ih =>
    have hnames := namesAlias_of_get? (get?_of_ty hd) hx htarget
    exact ih (hs.expands (LeadsTo.expands ⟨d, hnames⟩)) (h.step hnames)

/-- What stripping says about a type and the chain of typedefs that starts at it. -/
structure StripsChains (s : Store) (t : TypeId) : Prop where
  /-- Stripping answers, and a circle of typedefs is all that it refuses. -/
  answers : (∃ u, s.stripAliases t = .ok u) ∨
    ∃ id, s.stripAliases t = Outcome.refuse (.cyclicAlias id)
  ends : ∀ u, s.stripAliases t = .ok u ↔ s.EndsAt t u
  endless : (∃ id, s.stripAliases t = Outcome.refuse (.cyclicAlias id)) ↔ s.NeverEnds t
  blames : ∀ id, s.stripAliases t = Outcome.refuse (.cyclicAlias id) →
    ∃ d x, s.Circles t d ∧ d.get? s.decls = some x ∧ x.externalId = id
  /-- A type that is no typedef is left alone, and so nothing is left to strip. -/
  settled : ∀ u, s.stripAliases t = .ok u → s.stripAliases u = .ok u

/-- Stripping ends in every store whose ids are in range, with circles or without, and it is refused
just where no type that is not a typedef is ever reached. -/
theorem stripsChains (hs : s.Linked) (ht : s.HoldsType t) : s.StripsChains t := by
  have hcases := followAliases_cases hs ht (Walked.start s t)
  have hends {u : TypeId} := stripAliases_eq_ok_iff (u := u) hs ht
  have hblames (id : ExternalId) (h : s.stripAliases t = Outcome.refuse (.cyclicAlias id)) :
      ∃ d x, s.Circles t d ∧ d.get? s.decls = some x ∧ x.externalId = id := by
    rw [stripAliases] at h
    rcases hcases with ⟨u, hu⟩ | ⟨d, x, hd, hx, hrefused⟩
    · rw [hu] at h
      cases h
    · rw [hrefused] at h
      cases h
      exact ⟨d, x, hd, hx, rfl⟩
  refine ⟨?_, fun u ↦ hends, ⟨?_, fun h ↦ ?_⟩, hblames, fun u hu ↦ ?_⟩
  · exact hcases.imp_right fun ⟨d, x, _, _, hrefused⟩ ↦ ⟨x.externalId, hrefused⟩
  · rintro ⟨id, hid⟩
    obtain ⟨d, -, hd, -⟩ := hblames id hid
    exact hd.neverEnds
  · rcases hcases with ⟨u, hu⟩ | ⟨d, x, -, -, hrefused⟩
    · exact absurd (hends.mp hu) (neverEnds_iff.mp h u)
    · exact ⟨x.externalId, hrefused⟩
  · have hend := hends.mp hu
    exact (stripAliases_eq_ok_iff hs (hend.holdsType hs ht)).mpr ⟨.refl, hend.last⟩

end Store

namespace Sample

/-- The typedef `a` is for `b`, `b` is for `c`, and `c` is for `b` again, which another type names;
`e` is for a number. -/
def looped : Store where
  decls :=
    [{ id := ⟨1⟩, kind := .namespaceDecl, name := "::", unit := ⟨1⟩, externalId := "root",
        details := .scope [⟨2⟩, ⟨3⟩, ⟨4⟩, ⟨5⟩] },
      member ⟨2⟩ "a" .typedef (.typedef ⟨2⟩),
      member ⟨3⟩ "b" .typedef (.typedef ⟨3⟩),
      member ⟨4⟩ "c" .typedef (.typedef ⟨4⟩),
      member ⟨5⟩ "e" .typedef (.typedef ⟨6⟩)]
  types :=
    [.declared ⟨2⟩, .declared ⟨3⟩, .declared ⟨4⟩, .declared ⟨3⟩, .declared ⟨5⟩, .fundamental "int"]

end Sample

open Sample Store

/-- The circle behind `a` does not go through `a`, and is found although the types that name `b`
differ; the chain from `e` ends. -/
theorem stripsChains_sample : looped.Linked ∧ looped.StripsChains ⟨1⟩ ∧ looped.NeverEnds ⟨1⟩ ∧
    looped.stripAliases ⟨1⟩ = Outcome.refuse (.cyclicAlias "b") ∧ looped.StripsChains ⟨5⟩ ∧
      looped.EndsAt ⟨5⟩ ⟨6⟩ := by
  have hlinked : looped.Linked := (closed_of_lt (by decide) (by decide)).linked
  have hcircle : looped.StripsChains ⟨1⟩ := stripsChains hlinked ⟨_, rfl⟩
  have hchain : looped.StripsChains ⟨5⟩ := stripsChains hlinked ⟨_, rfl⟩
  have hrefused : looped.stripAliases ⟨1⟩ = Outcome.refuse (.cyclicAlias "b") := by cbv
  have hstripped : looped.stripAliases ⟨5⟩ = .ok ⟨6⟩ := by cbv
  exact ⟨hlinked, hcircle, hcircle.endless.mp ⟨_, hrefused⟩, hrefused, hchain,
    (hchain.ends _).mp hstripped⟩

end ScopeForest
