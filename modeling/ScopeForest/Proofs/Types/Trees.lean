import ScopeForest.Proofs.Types.Agreement

namespace ScopeForest

open Outcome

/-- A way to look at types: what is found at the top of a type, and the qualifiers on the way. -/
abbrev Look := TypeId → Outcome (TypeId × Qualifiers)

namespace Store

def unfoldAux (s : Store) (look : Look) : Nat → TypeId → Outcome Form
  | 0, _ => Outcome.fault .endless
  | fuel + 1, t => do
    let (head, q) ← look t
    let node ← s.ty head
    return .node q node.label (← node.children.mapM (s.unfoldAux look fuel))

/-- A type as a tree; there is none where the type contains itself. -/
def unfold (s : Store) (look : Look) (t : TypeId) : Outcome Form :=
  s.unfoldAux look (s.types.length + 1) t

/-- Looking leads to a type that the first one expands to, and the canonical form of the first is
that of the other one with the qualifiers on the way. -/
structure Looks (s : Store) (look : Look) : Prop where
  held : ∀ {t head q}, look t = .ok (head, q) → s.HoldsType head → s.HoldsType t
  returns : ∀ {t}, s.HoldsType t → ∃ head q, look t = .ok (head, q) ∧ s.Reaches t head
  form : ∀ {t head q F}, look t = .ok (head, q) → s.form head = .ok F →
    s.form t = .ok (F.qualify q)

variable {s : Store} {look : Look} {a b t u head : TypeId} {q : Qualifiers} {node : Ty} {F : Form}
  {rank : TypeId → Nat}

theorem unfoldAux_eq_ok {fuel : Nat} (h : s.unfoldAux look (fuel + 1) t = .ok F) :
    ∃ head q node parts, look t = .ok (head, q) ∧ head.get? s.types = some node ∧
      node.children.mapM (s.unfoldAux look fuel) = .ok parts ∧ F = .node q node.label parts := by
  obtain ⟨⟨head, q⟩, hhead, h⟩ := bind_eq_ok h
  obtain ⟨node, hnode, h⟩ := bind_eq_ok h
  obtain ⟨parts, hparts, h⟩ := bind_eq_ok h
  exact ⟨head, q, node, parts, hhead, get?_of_ty hnode, hparts, (Except.ok.inj h).symm⟩

theorem unfoldAux_mono {fuel fuel' : Nat} (hle : fuel ≤ fuel') (t : TypeId) :
    Maps id (s.unfoldAux look fuel t) (s.unfoldAux look fuel' t) := by
  induction fuel generalizing fuel' t with
  | zero => exact .error _ _ _
  | succ fuel ih =>
    obtain ⟨fuel', rfl⟩ := Nat.exists_eq_add_of_le' (Nat.lt_of_lt_of_le fuel.succ_pos hle)
    refine .bind (φ := id) (fun _ h ↦ h) fun top _ ↦ ?_
    refine .bind (φ := id) (fun _ h ↦ h) fun node _ ↦ ?_
    refine .bind (.mapM_same fun u _ ↦ ih (Nat.le_of_succ_le_succ hle) u) fun parts _ ↦ ?_
    rw [List.map_id]
    exact .ok _ _

theorem Looks.held_of_unfold (hlook : s.Looks look) (h : s.unfold look t = .ok F) :
    s.HoldsType t := by
  obtain ⟨head, q, node, parts, hhead, hnode, -⟩ := unfoldAux_eq_ok h
  exact hlook.held hhead ⟨node, hnode⟩

/-- Types that look the same at every level. -/
def SameUnfolding (s : Store) (look : Look) (t u : TypeId) : Prop :=
  ∃ F, s.unfold look t = .ok F ∧ s.unfold look u = .ok F

section Ranked

variable (hs : s.Linked) (hr : s.Ranking s.Expands rank) (hlook : s.Looks look)

include hs hr hlook

theorem unfoldAux_returns {fuel : Nat} (ht : s.HoldsType t) (hfuel : rank t < fuel) :
    Returns (s.unfoldAux look fuel t) := by
  induction fuel generalizing t with
  | zero => omega
  | succ fuel ih =>
    obtain ⟨head, q, hhead, hreach⟩ := hlook.returns ht
    obtain ⟨node, hnode⟩ := hreach.held
    have hparts : Returns (node.children.mapM (s.unfoldAux look fuel)) := by
      refine returns_mapM fun u hu ↦ ?_
      have hle := hr.le hreach
      have hlt := hr.lt (.child hnode hu)
      exact ih (hs.child hnode hu) (by omega)
    refine returns_bind hhead (returns_bind (ty_of_get? hnode) ?_)
    exact hparts.bind fun _ ↦ ⟨_, rfl⟩

theorem unfold_returns (ht : s.HoldsType t) : Returns (s.unfold look t) :=
  unfoldAux_returns hs hr hlook ht (Nat.lt_succ_of_le (hr.bound t))

theorem unfold_of_look {parts : List Form} (hhead : look t = .ok (head, q))
    (hnode : head.get? s.types = some node)
    (hparts : node.children.mapM (s.unfold look) = .ok parts) :
    s.unfold look t = .ok (.node q node.label parts) := by
  obtain ⟨F, hF⟩ := unfold_returns hs hr hlook (hlook.held hhead ⟨node, hnode⟩)
  have hmore : s.unfoldAux look (s.types.length + 2) t = .ok F :=
    unfoldAux_mono (Nat.le_succ _) t F hF
  have hparts' : node.children.mapM (s.unfoldAux look (s.types.length + 1)) = .ok parts := hparts
  rw [unfoldAux] at hmore
  simp only [hhead, ty_of_get? hnode, hparts', bind, Except.bind, pure, Except.pure] at hmore
  rw [hF, ← hmore]

theorem exists_unfolding (ht : s.HoldsType t) : ∃ head q node parts, look t = .ok (head, q) ∧
    head.get? s.types = some node ∧ node.children.mapM (s.unfold look) = .ok parts ∧
      s.unfold look t = .ok (.node q node.label parts) := by
  obtain ⟨head, q, hhead, hreach⟩ := hlook.returns ht
  obtain ⟨node, hnode⟩ := hreach.held
  obtain ⟨parts, hparts⟩ := returns_mapM fun u hu ↦
    unfold_returns hs hr hlook (hs.child hnode hu)
  exact ⟨head, q, node, parts, hhead, hnode, hparts,
    unfold_of_look hs hr hlook hhead hnode hparts⟩

theorem SameUnfolding.nodes (h : s.SameUnfolding look t u) : ∃ c d q x y, look t = .ok (c, q) ∧
    look u = .ok (d, q) ∧ c.get? s.types = some x ∧ d.get? s.types = some y ∧
      x.Paired (s.SameUnfolding look) y := by
  obtain ⟨F, ht, hu⟩ := h
  obtain ⟨c, q, x, parts, hc, hx, hparts, hF⟩ :=
    exists_unfolding hs hr hlook (hlook.held_of_unfold ht)
  obtain ⟨d, p, y, parts', hd, hy, hparts', hF'⟩ :=
    exists_unfolding hs hr hlook (hlook.held_of_unfold hu)
  rw [ht] at hF
  rw [hu, hF, Except.ok.injEq, Form.node.injEq] at hF'
  obtain ⟨rfl, hlabel, rfl⟩ := hF'
  exact ⟨c, d, q, x, y, hc, hd, hx, hy, Ty.paired_of_label hlabel (forall₂_of_mapM hparts hparts')⟩

theorem sameUnfolding_of_nodes {c d : TypeId} {x y : Ty} (hc : look t = .ok (c, q))
    (hd : look u = .ok (d, q)) (hx : c.get? s.types = some x) (hy : d.get? s.types = some y)
    (h : x.Paired (s.SameUnfolding look) y) : s.SameUnfolding look t u := by
  have hunfold : x.children.mapM (s.unfold look) = y.children.mapM (s.unfold look) := by
    refine mapM_eq_of_forall₂ (h.children.imp fun v w hvw ↦ ?_)
    obtain ⟨F, hv, hw⟩ := hvw
    rw [hv, hw]
  obtain ⟨parts, hparts⟩ := returns_mapM fun v hv ↦ unfold_returns hs hr hlook (hs.child hx hv)
  refine ⟨_, unfold_of_look hs hr hlook hc hx hparts, ?_⟩
  rw [h.label]
  exact unfold_of_look hs hr hlook hd hy (hunfold ▸ hparts)

theorem sameForm_of_unfoldAux {fuel : Nat} (ha : s.unfoldAux look fuel a = .ok F)
    (hb : s.unfoldAux look fuel b = .ok F) : s.SameForm a b := by
  induction fuel generalizing a b F with
  | zero => cases ha
  | succ fuel ih =>
    obtain ⟨c, q, x, parts, hc, hx, hparts, rfl⟩ := unfoldAux_eq_ok ha
    obtain ⟨d, p, y, parts', hd, hy, hparts', heq⟩ := unfoldAux_eq_ok hb
    obtain ⟨rfl, hlabel, rfl⟩ := Form.node.inj heq
    have hchildren : List.Forall₂ s.SameForm x.children y.children := by
      refine (forall₂_of_mapM hparts hparts').imp fun t u htu ↦ ?_
      obtain ⟨G, ht, hu⟩ := htu
      exact ih ht hu
    obtain ⟨G, hG, hG'⟩ := sameForm_of_paired hs hr hx hy (Ty.paired_of_label hlabel hchildren)
    exact ⟨_, hlook.form hc hG, hlook.form hd hG'⟩

theorem SameUnfolding.sameForm (h : s.SameUnfolding look t u) : s.SameForm t u := by
  obtain ⟨F, ht, hu⟩ := h
  exact sameForm_of_unfoldAux hs hr hlook ht hu

end Ranked

def tree (s : Store) (t : TypeId) : Outcome Form := s.unfold (fun t ↦ .ok (t, {})) t

theorem looks_self : s.Looks fun t ↦ .ok (t, {}) where
  held {t head q} h hheld := by
    cases h
    exact hheld
  returns {t} ht := ⟨t, {}, rfl, ht, .refl⟩
  form {t head q F} h hF := by
    cases h
    rw [hF, Form.qualify_none]

section Ranked

variable (hs : s.Linked) (hr : s.Ranking s.Expands rank)

include hs hr

theorem tree_returns (ht : s.HoldsType t) : Returns (s.tree t) :=
  unfold_returns hs hr looks_self ht

theorem rawEqualsAux_eq_true_iff {fuel : Nat} (ha : s.HoldsType a) (hb : s.HoldsType b)
    (hfuel : rank a < fuel) : s.rawEqualsAux fuel a b = .ok true ↔ s.tree a = s.tree b := by
  induction fuel generalizing a b with
  | zero => omega
  | succ fuel ih =>
    unfold rawEqualsAux
    split
    next hab => simp [hab, pure, Except.pure]
    next =>
      obtain ⟨c, p, x, parts, hc, hx, hparts, hxtree⟩ := exists_unfolding hs hr looks_self ha
      obtain ⟨d, q, y, parts', hd, hy, hparts', hytree⟩ := exists_unfolding hs hr looks_self hb
      cases hc
      cases hd
      have hsub (t : TypeId) (ht : t ∈ x.children) (u : TypeId) (hu : u ∈ y.children) :
          s.rawEqualsAux fuel t u = .ok true ↔ s.tree t = s.tree u := by
        have hlt := hr.lt (.child hx ht)
        exact ih (hs.child hx ht) (hs.child hy hu) (by omega)
      have hmaps : x.children.map s.tree = y.children.map s.tree ↔ parts = parts' := by
        have hx' : x.children.map s.tree = parts.map .ok := map_eq_of_mapM hparts
        have hy' : y.children.map s.tree = parts'.map .ok := map_eq_of_mapM hparts'
        rw [hx', hy', List.map_inj_right fun _ _ ↦ Except.ok.inj]
      rw [tree, tree, hxtree, hytree, Except.ok.injEq, Form.node.injEq, ← hmaps,
        ← Ty.same_eq_true_iff hsub, ty_of_get? hx, ty_of_get? hy]
      simp [bind, Except.bind]

theorem rawEquals_eq_true_iff (ha : s.HoldsType a) (hb : s.HoldsType b) :
    s.rawEquals a b = .ok true ↔ s.tree a = s.tree b := by
  have hbound := hr.bound a
  have hle : s.types.length ≤ s.types.length * s.types.length := Nat.le_mul_self _
  exact rawEqualsAux_eq_true_iff hs hr ha hb (by omega)

theorem rawEquals_eq_false_iff (ha : s.HoldsType a) (hb : s.HoldsType b) :
    s.rawEquals a b = .ok false ↔ s.tree a ≠ s.tree b := by
  rw [ne_eq, ← rawEquals_eq_true_iff hs hr ha hb]
  obtain ⟨equal, hequal⟩ := rawEquals_returns hs hr ha hb
  rw [hequal]
  cases equal <;> simp

theorem structuralEquals_of_rawEquals (ha : s.HoldsType a) (hb : s.HoldsType b)
    (h : s.rawEquals a b = .ok true) : s.structuralEquals a b = .ok true := by
  obtain ⟨F, hF⟩ := tree_returns hs hr ha
  have heq := (rawEquals_eq_true_iff hs hr ha hb).mp h
  have hsame : s.SameUnfolding (fun t ↦ .ok (t, {})) a b := ⟨F, hF, heq.symm.trans hF⟩
  obtain ⟨G, hG, hG'⟩ := hsame.sameForm hs hr looks_self
  exact (structuralEquals_eq_true_iff hs hr ha hb).mpr (hG.trans hG'.symm)

end Ranked

/-- Raw equality compares types as they stand, and it is finer than structural equality. -/
structure ComparesTrees (s : Store) : Prop where
  returns : ∀ {t}, s.HoldsType t → Returns (s.tree t)
  equal : ∀ {a b}, s.HoldsType a → s.HoldsType b →
    (s.rawEquals a b = .ok true ↔ s.tree a = s.tree b)
  unequal : ∀ {a b}, s.HoldsType a → s.HoldsType b →
    (s.rawEquals a b = .ok false ↔ s.tree a ≠ s.tree b)
  refl : ∀ {a}, s.HoldsType a → s.rawEquals a a = .ok true
  symm : ∀ {a b}, s.HoldsType a → s.HoldsType b → s.rawEquals a b = s.rawEquals b a
  trans : ∀ {a b c}, s.HoldsType a → s.HoldsType b → s.HoldsType c →
    s.rawEquals a b = .ok true → s.rawEquals b c = .ok true → s.rawEquals a c = .ok true
  structural : ∀ {a b}, s.HoldsType a → s.HoldsType b → s.rawEquals a b = .ok true →
    s.structuralEquals a b = .ok true

/-- Where no type expands to itself, raw equality holds between types that are written alike, and
only between those. -/
theorem comparesTrees (hs : s.Linked) (h : s.Acyclic) : s.ComparesTrees := by
  obtain ⟨rank, hr⟩ := exists_rank hs.expands h
  have htrue {a b : TypeId} (ha : s.HoldsType a) (hb : s.HoldsType b) :
      s.rawEquals a b = .ok true ↔ s.tree a = s.tree b :=
    rawEquals_eq_true_iff hs hr ha hb
  have hfalse {a b : TypeId} (ha : s.HoldsType a) (hb : s.HoldsType b) :
      s.rawEquals a b = .ok false ↔ s.tree a ≠ s.tree b :=
    rawEquals_eq_false_iff hs hr ha hb
  constructor
  case returns => exact tree_returns hs hr
  case equal => exact htrue
  case unequal => exact hfalse
  case refl => exact fun ha ↦ (htrue ha ha).mpr rfl
  case symm =>
    intro a b ha hb
    by_cases heq : s.tree a = s.tree b
    · rw [(htrue ha hb).mpr heq, (htrue hb ha).mpr heq.symm]
    · rw [(hfalse ha hb).mpr heq, (hfalse hb ha).mpr (Ne.symm heq)]
  case trans =>
    intro a b c ha hb hc hab hbc
    exact (htrue ha hc).mpr (((htrue ha hb).mp hab).trans ((htrue hb hc).mp hbc))
  case structural => exact structuralEquals_of_rawEquals hs hr

end Store

namespace Sample

/-- Twice `box<t *, 2>`, with `t` a typedef of `const int`, and once `box<const int *, 2>`. -/
def copies : Store where
  decls :=
    [{ id := ⟨1⟩, kind := .namespaceDecl, name := "::", unit := ⟨1⟩, externalId := "root",
        details := .scope [⟨2⟩, ⟨3⟩] },
      member ⟨2⟩ "t" .typedef (.typedef ⟨2⟩),
      member ⟨3⟩ "box" .classDecl (.cls { key := .classKey })]
  types :=
    [.fundamental "int", .const ⟨1⟩, .declared ⟨2⟩, .pointer ⟨3⟩,
      .instantiation ⟨3⟩ [.type ⟨4⟩, .value "2"], .declared ⟨2⟩, .pointer ⟨6⟩,
      .instantiation ⟨3⟩ [.type ⟨7⟩, .value "2"], .pointer ⟨2⟩,
      .instantiation ⟨3⟩ [.type ⟨9⟩, .value "2"]]

end Sample

open Sample

theorem comparesTrees_sample : copies.Linked ∧ copies.Acyclic ∧ copies.ComparesTrees ∧
    copies.rawEquals ⟨5⟩ ⟨8⟩ = .ok true ∧ copies.structuralEquals ⟨5⟩ ⟨8⟩ = .ok true ∧
      copies.rawEquals ⟨5⟩ ⟨10⟩ = .ok false ∧ copies.structuralEquals ⟨5⟩ ⟨10⟩ = .ok true := by
  obtain ⟨hlinked, hacyclic⟩ : copies.Linked ∧ copies.Acyclic :=
    Store.linked_and_acyclic_of_lt (by decide)
  have htrees := Store.comparesTrees hlinked hacyclic
  have hequal : copies.rawEquals ⟨5⟩ ⟨8⟩ = .ok true :=
    (htrees.equal ⟨_, rfl⟩ ⟨_, rfl⟩).mpr rfl
  refine ⟨hlinked, hacyclic, htrees, hequal, ?_, ?_, by cbv⟩
  · exact htrees.structural ⟨_, rfl⟩ ⟨_, rfl⟩ hequal
  · refine (htrees.unequal ⟨_, rfl⟩ ⟨_, rfl⟩).mpr fun heq ↦ ?_
    cases heq

end ScopeForest
