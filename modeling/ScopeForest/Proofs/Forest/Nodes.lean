import ScopeForest.Proofs.Forest.Placed

namespace ScopeForest

namespace Declaration

@[simp] theorem withMembers_members (x : Declaration) : x.withMembers x.members = x := by
  rcases x with ⟨_, _, _, _, _, _, _, _, _, details⟩
  cases details <;> rfl

@[simp] theorem withMembers_withMembers (x : Declaration) (members more : List DeclId) :
    (x.withMembers members).withMembers more = x.withMembers more := by
  rcases x with ⟨_, _, _, _, _, _, _, _, _, details⟩
  cases details <;> rfl

theorem absorb_withMembers (x seen : Declaration) (members : List DeclId) :
    (x.withMembers members).absorb seen = (x.absorb seen).withMembers members := by
  rcases x with ⟨_, _, _, _, _, _, _, _, _, details⟩
  rcases seen with ⟨_, _, _, _, _, _, _, _, _, details'⟩
  cases details with
  | cls k =>
    cases details' with
    | cls s =>
      have hcls : ({ k with members } : ClassDetails).absorb s = { k.absorb s with members } := by
        unfold ClassDetails.absorb
        have hdefined : ({ k with members } : ClassDetails).isDefinedBy s = k.isDefinedBy s := rfl
        rw [hdefined]
        split <;> rfl
      have hdefined : ({ k with members } : ClassDetails).isDefinedBy s = k.isDefinedBy s := rfl
      simp only [withMembers, Details.withMembers, absorb, hcls, hdefined]
    | _ => rfl
  | _ => cases details' <;> rfl

end Declaration

namespace Forest

/-- What the node `d` is made from once the placements of `done` are carried out. -/
inductive Arises (f : Forest) (r : Renaming) (done : List Placement) (d : DeclId) :
    Declaration → Prop
  | kept {x : Declaration} (hx : d.get? f.store.decls = some x)
      (hfree : ∀ p ∈ done, p.target.id ≠ d) : Arises f r done d x
  | joined {x : Declaration} {p : Placement} (hx : d.get? f.store.decls = some x) (hp : p ∈ done)
      (ht : p.target = .joined d) : Arises f r done d (x.absorb (r.declaration d p.source))
  | new {p : Placement} (hp : p ∈ done) (ht : p.target = .new d) :
      Arises f r done d (r.declaration d p.source)

variable {f g : Forest} {u : ResolvedUnit} {r : Renaming} {done plan : List Placement}
  {p : Placement} {d : DeclId} {x y : Declaration} {registry : Registry}

theorem Arises.snoc (h : f.Arises r done d x) (hp : p.target.id ≠ d) :
    f.Arises r (done ++ [p]) d x := by
  cases h with
  | kept hx hfree =>
    refine .kept hx fun q hq ↦ ?_
    rcases List.mem_append.mp hq with hq | hq
    · exact hfree q hq
    · rwa [List.mem_singleton.mp hq]
  | joined hx hq ht => exact .joined hx (List.mem_append_left _ hq) ht
  | new hq ht => exact .new (List.mem_append_left _ hq) ht

theorem Arises.old (h : f.Arises r done d x) (hfree : ∀ p ∈ done, p.target.id ≠ d) :
    d.get? f.store.decls = some x := by
  cases h with
  | kept hx _ => exact hx
  | joined _ hp ht => exact absurd (congrArg Target.id ht) (hfree _ hp)
  | new hp ht => exact absurd (congrArg Target.id ht) (hfree _ hp)

theorem forall_addNode {P : DeclId → Declaration → Prop}
    (hold : ∀ d x, d.get? f.store.decls = some x → P d x)
    (hnew : P (Id.next f.store.decls) y) (hmember : ∀ d x m, P d x → P d (x.addMember m)) :
    ∀ d x, d.get? (f.addNode y).store.decls = some x → P d x := by
  have happend (d : DeclId) (x : Declaration) (h : d.get? (f.store.decls ++ [y]) = some x) :
      P d x := by
    rcases Id.get?_append_singleton h with h | ⟨rfl, rfl⟩
    · exact hold d x h
    · exact hnew
  intro d x h
  unfold addNode setDecls at h
  split at h
  next => exact happend d x h
  next parent _ =>
    rw [Id.get?_modify] at h
    split at h
    next =>
      obtain ⟨z, hz, rfl⟩ := Option.map_eq_some_iff.mp h
      exact hmember d z _ (happend d z hz)
    next => exact happend d x h

theorem arises_applyPlacement
    (hg : ∀ d y, d.get? g.store.decls = some y →
      ∃ x members, f.Arises r done d x ∧ y = x.withMembers members)
    (hnext : ∀ d, p.target = .new d → d = Id.next g.store.decls)
    (hfree : ∀ q ∈ done, q.target.id ≠ p.target.id) :
    ∀ d y, d.get? (applyPlacement r g p).store.decls = some y →
      ∃ x members, f.Arises r (done ++ [p]) d x ∧ y = x.withMembers members := by
  have hlast : p ∈ done ++ [p] := List.mem_append_right _ List.mem_cons_self
  cases ht : p.target with
  | new e =>
    rw [(applyPlacement_new ht).1]
    refine forall_addNode (fun d y hd ↦ ?_) ?_ ?_
    · obtain ⟨x, members, hx, hy⟩ := hg d y hd
      refine ⟨x, members, hx.snoc fun heq ↦ ?_, hy⟩
      -- the new node has the id after all others
      have hle := (Id.val_pos_of_get? hd).2
      rw [← heq, ht, Target.id, hnext e ht, Id.next_eq] at hle
      exact absurd hle (Nat.not_succ_le_self _)
    · rw [← hnext e ht]
      exact ⟨_, _, .new hlast ht, (Declaration.withMembers_members _).symm⟩
    · rintro d y m ⟨x, members, hx, rfl⟩
      exact ⟨x, _, hx, Declaration.withMembers_withMembers ..⟩
  | joined e =>
    intro d y hd
    rw [applyPlacement, ht] at hd
    simp only [setDecls, Id.get?_modify] at hd
    split at hd
    next hed =>
      subst hed
      obtain ⟨z, hz, rfl⟩ := Option.map_eq_some_iff.mp hd
      obtain ⟨x, members, hx, rfl⟩ := hg e z hz
      have hold : e.get? f.store.decls = some x := by
        refine hx.old fun q hq heq ↦ hfree q hq ?_
        rw [heq, ht]
        rfl
      exact ⟨_, members, .joined hold hlast ht, Declaration.absorb_withMembers ..⟩
    next hed =>
      obtain ⟨x, members, hx, hy⟩ := hg d y hd
      exact ⟨x, members, hx.snoc (by rw [ht]; exact hed), hy⟩

/-- Each node is made from at most one declaration of the unit. -/
theorem Plans.arises (hf : f.Sound) (hu : u.Sound) (h : f.Plans u done) (hinit : done <+: plan) :
    ∀ d y, d.get? (done.foldl (applyPlacement (f.planRenaming u plan))
      (f.typed u plan)).store.decls = some y →
        ∃ x members, f.Arises (f.planRenaming u plan) done d x ∧ y = x.withMembers members := by
  induction h with
  | root hx =>
    have hstart : ∀ d y, d.get? (f.typed u plan).store.decls = some y → ∃ x members,
        f.Arises (f.planRenaming u plan) [] d x ∧ y = x.withMembers members := by
      intro d y hd
      refine ⟨y, y.members, .kept hd fun q hq ↦ ?_, y.withMembers_members.symm⟩
      cases hq
    refine arises_applyPlacement hstart (fun d hd ↦ targetOf_new hd) fun q hq ↦ ?_
    cases hq
  | @snoc done x q scope key h hx hfresh hq hscope hkey ih =>
    have hbefore := (List.prefix_append _ _).trans hinit
    have htargets := (h.snoc hx hfresh hq hscope hkey).nodup_targets hf
    rw [List.map_append, List.nodup_append] at htargets
    rw [List.foldl_append]
    refine arises_applyPlacement (ih hbefore) (fun d hd ↦ ?_) fun s hs ↦ ?_
    · rw [Id.next, (h.merging_carryOut hf hu hbefore).length, targetOf_new hd, newId]
    · exact htargets.2.2 _ (List.mem_map_of_mem hs) _ List.mem_cons_self

theorem exists_image (hu : u.Sound) (hplan : f.plan u = .ok plan)
    (hd : d.get? u.store.decls = some x) : ∃ p ∈ plan, p.source = x ∧ p.source.id = d ∧
      (f.planRenaming u plan).decl d = p.target.id := by
  obtain ⟨p, hp, rfl⟩ := exists_placement hu hplan hd
  have hid : p.source.id = d := hu.tree.dense hd
  exact ⟨p, hp, rfl, hid, hid ▸ decl_planRenaming ((plan_eq_ok hu hplan).1.placed?_source p hp)⟩

theorem decl_planRenaming_inj (hf : f.Sound) (hu : u.Sound) (hplan : f.plan u = .ok plan)
    {e : DeclId} (hd : d.get? u.store.decls = some x) (he : e.get? u.store.decls = some y)
    (heq : (f.planRenaming u plan).decl d = (f.planRenaming u plan).decl e) : d = e := by
  obtain ⟨p, hp, -, rfl, htarget⟩ := exists_image hu hplan hd
  obtain ⟨q, hq, -, rfl, htarget'⟩ := exists_image hu hplan he
  rw [htarget, htarget'] at heq
  have hnodup := (plan_eq_ok hu hplan).1.nodup_targets hf
  exact congrArg (·.source.id) (List.inj_on_of_nodup_map hnodup hp hq heq)

theorem Plans.arises_carryOut (hf : f.Sound) (hu : u.Sound) (h : f.Plans u plan)
    (hd : d.get? (f.carryOut u plan registry).store.decls = some y) :
    ∃ x members, f.Arises (f.planRenaming u plan) plan d x ∧ y = x.withMembers members :=
  h.arises hf hu List.prefix_rfl d y hd

end Forest

end ScopeForest
