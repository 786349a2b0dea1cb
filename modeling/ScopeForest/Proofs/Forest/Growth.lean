import ScopeForest.Proofs.Preorder

namespace ScopeForest

namespace Store

/-- The same entities with the same members, in slots of the same ids. -/
structure SameTree (s t : Store) : Prop where
  kept : ∀ {d : DeclId} {x : Declaration}, d.get? s.decls = some x →
    ∃ y, d.get? t.decls = some y ∧ x.Grows y ∧ y.members = x.members
  origin : ∀ {d : DeclId} {y : Declaration}, d.get? t.decls = some y →
    ∃ x, d.get? s.decls = some x ∧ x.Grows y ∧ y.members = x.members

variable {s t : Store} {root : Option DeclId}

theorem SameTree.refl (s : Store) : s.SameTree s :=
  ⟨fun h ↦ ⟨_, h, .refl _, rfl⟩, fun h ↦ ⟨_, h, .refl _, rfl⟩⟩

theorem sameTree_map {g : Declaration → Declaration} (types : List Ty)
    (hg : ∀ x, x.Grows (g x) ∧ (g x).members = x.members) :
    s.SameTree ⟨s.decls.map g, types⟩ := by
  constructor
  · intro d x h
    exact ⟨g x, by rw [Id.get?_map, h]; rfl, hg x⟩
  · intro d y h
    rw [Id.get?_map] at h
    obtain ⟨x, hx, rfl⟩ := Option.map_eq_some_iff.mp h
    exact ⟨x, hx, hg x⟩

theorem sameTree_modify {g : Declaration → Declaration} (i : DeclId) (types : List Ty)
    (hg : ∀ x, x.Grows (g x) ∧ (g x).members = x.members) :
    s.SameTree ⟨i.modify g s.decls, types⟩ := by
  constructor
  · intro d x h
    by_cases hi : i = d
    · exact ⟨g x, by rw [Id.get?_modify, if_pos hi, h]; rfl, hg x⟩
    · exact ⟨x, by rw [Id.get?_modify, if_neg hi, h], .refl x, rfl⟩
  · intro d y h
    rw [Id.get?_modify] at h
    split at h
    · obtain ⟨x, hx, rfl⟩ := Option.map_eq_some_iff.mp h
      exact ⟨x, hx, hg x⟩
    · exact ⟨y, h, .refl y, rfl⟩

theorem Scoped.sameTree (hs : s.Scoped root) (h : s.SameTree t) : t.Scoped root where
  dense hd := by
    obtain ⟨x, hx, hg, -⟩ := h.origin hd
    exact hg.id.trans (hs.dense hx)
  fitting hd := by
    obtain ⟨x, hx, hg, -⟩ := h.origin hd
    exact hg.fitting (hs.fitting hx)
  root_held hr := by
    obtain ⟨x, hx, hp, hk⟩ := hs.root_held hr
    obtain ⟨y, hy, hg, -⟩ := h.kept hx
    exact ⟨y, hy, hg.parent.trans hp, hg.kind.trans hk⟩
  orphan hd hp := by
    obtain ⟨x, hx, hg, -⟩ := h.origin hd
    exact hs.orphan hx (hg.parent.symm.trans hp)
  parent hd hp := by
    obtain ⟨x, hx, hg, -⟩ := h.origin hd
    obtain ⟨z, hz, hk, hm⟩ := hs.parent hx (hg.parent.symm.trans hp)
    obtain ⟨w, hw, hg', hmem⟩ := h.kept hz
    exact ⟨w, hw, hg'.kind ▸ hk, hmem ▸ hm⟩
  member hd hm := by
    obtain ⟨x, hx, -, hmem⟩ := h.origin hd
    obtain ⟨z, hz, hp⟩ := hs.member hx (hmem ▸ hm)
    obtain ⟨w, hw, hg', -⟩ := h.kept hz
    exact ⟨w, hw, hg'.parent.trans hp⟩
  ordered hd := by
    obtain ⟨x, hx, -, hmem⟩ := h.origin hd
    exact hmem ▸ hs.ordered hx

theorem Ranks.sameTree {rank : DeclId → Nat} (hr : s.Ranks rank) (h : s.SameTree t) :
    t.Ranks rank := by
  intro d p y hd hp
  obtain ⟨x, hx, hg, -⟩ := h.origin hd
  exact hr hx (hg.parent.symm.trans hp)

end Store

namespace Forest

variable {f : Forest} {d : DeclId} {x y z : Declaration}

theorem get?_addNode_old (h : d.get? f.store.decls = some z) :
    d.get? (f.addNode y).store.decls =
      some (if y.parent = some d then z.addMember y.id else z) := by
  have hold : d.get? (f.store.decls ++ [y]) = some z := Id.get?_append_left h
  unfold addNode setDecls
  split
  next hp => simp [hp, hold]
  next p hp =>
    simp only [Id.get?_modify, hold, hp, Option.some_inj, Option.map_some]
    split <;> rfl

theorem get?_addNode_new (hp : y.parent ≠ some (Id.next f.store.decls)) :
    (Id.next f.store.decls : DeclId).get? (f.addNode y).store.decls = some y := by
  unfold addNode setDecls
  split
  next => exact Id.get?_next_append
  next p hq =>
    have hne : p ≠ Id.next f.store.decls := fun he ↦ hp (he ▸ hq)
    simp only [Id.get?_modify, if_neg hne]
    exact Id.get?_next_append

theorem length_addNode (y : Declaration) :
    (f.addNode y).store.decls.length = f.store.decls.length + 1 := by
  unfold addNode setDecls
  split <;> simp

theorem addNode_cases (hp : y.parent ≠ some (Id.next f.store.decls))
    (h : d.get? (f.addNode y).store.decls = some x) :
    d = Id.next f.store.decls ∧ x = y ∨ ∃ z, d.get? f.store.decls = some z ∧
      x = if y.parent = some d then z.addMember y.id else z := by
  have hval := Id.val_pos_of_get? h
  rw [length_addNode] at hval
  rcases Nat.lt_or_ge f.store.decls.length d.val with hlt | hge
  · left
    have hd : d = Id.next f.store.decls := by
      rcases d with ⟨n⟩
      rw [Id.next_eq]
      exact congrArg Id.mk (by simp only at hval hlt; omega)
    subst hd
    rw [get?_addNode_new hp] at h
    exact ⟨rfl, (Option.some_inj.mp h).symm⟩
  · right
    obtain ⟨z, hz⟩ := Id.exists_get?_iff.mpr ⟨hval.1, hge⟩
    rw [get?_addNode_old hz] at h
    exact ⟨z, hz, (Option.some_inj.mp h).symm⟩

theorem grows_addNode (h : d.get? f.store.decls = some x) :
    ∃ w, d.get? (f.addNode y).store.decls = some w ∧ x.Grows w := by
  refine ⟨_, get?_addNode_old h, ?_⟩
  split
  · exact Declaration.grows_addMember x y.id
  · exact .refl x

structure Fresh (f : Forest) (y : Declaration) : Prop where
  id : y.id = Id.next f.store.decls
  fitting : y.Fitting
  members : y.members = []
  parent : ∀ {p : DeclId}, y.parent = some p →
    ∃ z, p.get? f.store.decls = some z ∧ z.kind.isScope
  root : y.parent = none → f.root = none ∧ y.kind = .namespaceDecl

theorem Fresh.parent_ne (h : f.Fresh y) : y.parent ≠ some (Id.next f.store.decls) := by
  intro hp
  obtain ⟨z, hz, -⟩ := h.parent hp
  exact Id.ne_next_of_get? hz rfl

theorem Fresh.root_addNode (h : f.Fresh y) : (f.addNode y).root =
    if y.parent = none then some (Id.next f.store.decls) else f.root := by
  unfold addNode
  split
  next hp => simp [hp, h.id]
  next p hp => simp [hp, setDecls]

theorem Fresh.members_old (hf : f.store.Scoped f.root) (h : f.Fresh y)
    (hz : d.get? f.store.decls = some z) :
    (if y.parent = some d then z.addMember y.id else z).members =
      z.members ++ if y.parent = some d then [Id.next f.store.decls] else [] := by
  split
  next hp =>
    obtain ⟨w, hw, hs⟩ := h.parent hp
    rw [hz] at hw
    cases hw
    rw [Declaration.members_addMember (hf.fitting hz) hs, h.id]
  next => exact (List.append_nil _).symm

section Tree

variable (hf : f.store.Scoped f.root) (h : f.Fresh y)

include hf h

theorem Fresh.parent_addNode {p : DeclId} (hd : d.get? (f.addNode y).store.decls = some x)
    (hp : x.parent = some p) : ∃ w, p.get? (f.addNode y).store.decls = some w ∧ w.kind.isScope ∧
      d ∈ w.members := by
  rcases addNode_cases h.parent_ne hd with ⟨rfl, rfl⟩ | ⟨z, hz, rfl⟩
  · obtain ⟨w, hw, hs⟩ := h.parent hp
    refine ⟨_, get?_addNode_old hw, ?_, ?_⟩
    · rw [if_pos hp]
      exact hs
    · rw [h.members_old hf hw, if_pos hp]
      exact List.mem_append_right _ List.mem_cons_self
  · have hzp : z.parent = some p := by split at hp <;> exact hp
    obtain ⟨w, hw, hs, hm⟩ := hf.parent hz hzp
    refine ⟨_, get?_addNode_old hw, ?_, ?_⟩
    · split <;> exact hs
    · rw [h.members_old hf hw]
      exact List.mem_append_left _ hm

theorem Fresh.member_addNode {m : DeclId} (hd : d.get? (f.addNode y).store.decls = some x)
    (hm : m ∈ x.members) :
    ∃ w, m.get? (f.addNode y).store.decls = some w ∧ w.parent = some d := by
  rcases addNode_cases h.parent_ne hd with ⟨rfl, rfl⟩ | ⟨z, hz, rfl⟩
  · rw [h.members] at hm
    cases hm
  · rw [h.members_old hf hz, List.mem_append] at hm
    rcases hm with hm | hm
    · obtain ⟨w, hw, hp⟩ := hf.member hz hm
      obtain ⟨v, hv, hg⟩ := grows_addNode hw
      exact ⟨v, hv, hg.parent.trans hp⟩
    · split at hm
      next hp =>
        rw [List.mem_singleton.mp hm]
        exact ⟨y, get?_addNode_new h.parent_ne, hp⟩
      next => cases hm

theorem Fresh.ordered_addNode (hd : d.get? (f.addNode y).store.decls = some x) :
    x.members.Pairwise (·.val < ·.val) := by
  rcases addNode_cases h.parent_ne hd with ⟨rfl, rfl⟩ | ⟨z, hz, rfl⟩
  · rw [h.members]
    exact .nil
  · rw [h.members_old hf hz, List.pairwise_append]
    refine ⟨hf.ordered hz, ?_, fun m hm n hn ↦ ?_⟩
    · split
      · exact List.pairwise_singleton _ _
      · exact .nil
    · -- old members come before the new node, as all old nodes do
      obtain ⟨w, hw, -⟩ := hf.member hz hm
      split at hn
      · rw [List.mem_singleton.mp hn]
        exact Nat.lt_succ_of_le (Id.val_pos_of_get? hw).2
      · cases hn

theorem Fresh.scoped_addNode : (f.addNode y).store.Scoped (f.addNode y).root where
  dense hd := by
    rcases addNode_cases h.parent_ne hd with ⟨rfl, rfl⟩ | ⟨z, hz, rfl⟩
    · exact h.id
    · have hid := hf.dense hz
      split <;> exact hid
  fitting hd := by
    rcases addNode_cases h.parent_ne hd with ⟨rfl, rfl⟩ | ⟨z, hz, rfl⟩
    · exact h.fitting
    · split
      · exact Declaration.fitting_withMembers (hf.fitting hz) _
      · exact hf.fitting hz
  root_held hd := by
    rw [h.root_addNode] at hd
    split at hd
    next hp =>
      cases hd
      exact ⟨y, get?_addNode_new h.parent_ne, hp, (h.root hp).2⟩
    next hp =>
      obtain ⟨x, hx, hxp, hxk⟩ := hf.root_held hd
      obtain ⟨w, hw, hg⟩ := grows_addNode hx
      exact ⟨w, hw, hg.parent.trans hxp, hg.kind.trans hxk⟩
  orphan hd hp := by
    rw [h.root_addNode]
    rcases addNode_cases h.parent_ne hd with ⟨rfl, rfl⟩ | ⟨z, hz, rfl⟩
    · rw [if_pos hp]
    · have hzp : z.parent = none := by split at hp <;> exact hp
      have hroot := hf.orphan hz hzp
      rw [if_neg fun hy ↦ by rw [(h.root hy).1] at hroot; cases hroot]
      exact hroot
  parent hd hp := h.parent_addNode hf hd hp
  member hd hm := h.member_addNode hf hd hm
  ordered hd := h.ordered_addNode hf hd

end Tree

theorem Fresh.earlier_addNode (hf : f.store.Earlier) (h : f.Fresh y) :
    (f.addNode y).store.Earlier := by
  intro d p x hd hp
  rcases addNode_cases h.parent_ne hd with ⟨rfl, rfl⟩ | ⟨z, hz, rfl⟩
  · obtain ⟨w, hw, -⟩ := h.parent hp
    exact Nat.lt_succ_of_le (Id.val_pos_of_get? hw).2
  · have hzp : z.parent = some p := by split at hp <;> exact hp
    exact hf hz hzp

end Forest

end ScopeForest
