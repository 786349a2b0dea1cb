import ScopeForest.Proofs.Arena
import ScopeForest.Proofs.Entity

namespace ScopeForest

/-- Declarations sit in the slots of their ids and form a tree below `root`; where there is no root
every declaration has a parent. -/
structure Store.Scoped (s : Store) (root : Option DeclId) : Prop where
  dense : ∀ {d : DeclId} {x : Declaration}, d.get? s.decls = some x → x.id = d
  fitting : ∀ {d : DeclId} {x : Declaration}, d.get? s.decls = some x → x.Fitting
  root_held : ∀ {d : DeclId}, root = some d →
    ∃ x, d.get? s.decls = some x ∧ x.parent = none ∧ x.kind = .namespaceDecl
  orphan : ∀ {d : DeclId} {x : Declaration}, d.get? s.decls = some x → x.parent = none →
    root = some d
  parent : ∀ {d p : DeclId} {x : Declaration}, d.get? s.decls = some x → x.parent = some p →
    ∃ y, p.get? s.decls = some y ∧ y.kind.isScope ∧ d ∈ y.members
  member : ∀ {d m : DeclId} {y : Declaration}, d.get? s.decls = some y → m ∈ y.members →
    ∃ x, m.get? s.decls = some x ∧ x.parent = some d
  ordered : ∀ {d : DeclId} {y : Declaration}, d.get? s.decls = some y →
    y.members.Pairwise (·.val < ·.val)

theorem members_of_not_isScope {x : Declaration} (h : x.Fitting) (hs : ¬x.kind.isScope) :
    x.members = [] := by
  rcases x with ⟨_, kind, _, _, _, _, _, _, _, details⟩
  cases details <;> simp_all [Declaration.Fitting, Details.Fits, Declaration.members,
    DeclKind.isScope]
  -- a class has one of two kinds
  rcases h with rfl | rfl <;> simp at hs

section Linking

variable {decls : List Declaration}

def childrenIn (decls : List Declaration) (d : DeclId) : List DeclId :=
  (decls.filter (·.parent == some d)).map (·.id)

theorem mem_childrenIn (hdense : ∀ {d : DeclId} {x}, d.get? decls = some x → x.id = d)
    {d m : DeclId} :
    m ∈ childrenIn decls d ↔ ∃ x, m.get? decls = some x ∧ x.parent = some d := by
  simp only [childrenIn, List.mem_map, List.mem_filter, beq_iff_eq]
  constructor
  · rintro ⟨x, ⟨hx, hp⟩, rfl⟩
    obtain ⟨i, hi⟩ := Id.exists_get?_of_mem (k := .decl) hx
    exact ⟨x, hdense hi ▸ hi, hp⟩
  · rintro ⟨x, hx, hp⟩
    exact ⟨x, ⟨Id.mem_of_get? hx, hp⟩, hdense hx⟩

/-- Declarations in the slots of their ids have the ids that a counter hands out from the start. -/
theorem map_id_of_dense (hdense : ∀ {d : DeclId} {x}, d.get? decls = some x → x.id = d) :
    decls.map (·.id) = IdCounter.start.takeMany decls.length := by
  rw [IdCounter.takeMany_start]
  refine List.ext_getElem (by simp) fun n hn _ ↦ ?_
  rw [List.length_map] at hn
  have hid := hdense (d := Id.ofIndex n) (List.getElem?_eq_getElem hn)
  simpa [Id.all] using hid

theorem pairwise_childrenIn (hdense : ∀ {d : DeclId} {x}, d.get? decls = some x → x.id = d)
    (d : DeclId) : (childrenIn decls d).Pairwise (·.val < ·.val) := by
  have hall : (decls.map (·.id)).Pairwise (·.val < ·.val) := by
    rw [map_id_of_dense hdense]
    exact IdCounter.pairwise_takeMany 0 decls.length
  exact List.pairwise_map.mpr ((List.pairwise_map.mp hall).filter _)

def linkChildren (decls : List Declaration) : List Declaration :=
  decls.map fun x ↦ x.withMembers (childrenIn decls x.id)

theorem get?_linkChildren (d : DeclId) : d.get? (linkChildren decls) =
    (d.get? decls).map fun x ↦ x.withMembers (childrenIn decls x.id) :=
  Id.get?_map _

theorem scoped_linkChildren {types : List Ty} {root : DeclId}
    (hdense : ∀ {d : DeclId} {x}, d.get? decls = some x → x.id = d)
    (hfitting : ∀ {d : DeclId} {x}, d.get? decls = some x → x.Fitting)
    (hroot : ∃ x, root.get? decls = some x ∧ x.parent = none ∧ x.kind = .namespaceDecl)
    (horphan : ∀ {d : DeclId} {x}, d.get? decls = some x → x.parent = none → d = root)
    (hparent : ∀ {d p : DeclId} {x}, d.get? decls = some x → x.parent = some p →
      ∃ y, p.get? decls = some y ∧ y.kind.isScope) :
    (⟨linkChildren decls, types⟩ : Store).Scoped (some root) := by
  have hold {d : DeclId} {x : Declaration} (h : d.get? (linkChildren decls) = some x) :
      ∃ y, d.get? decls = some y ∧ x = y.withMembers (childrenIn decls d) := by
    rw [get?_linkChildren] at h
    obtain ⟨y, hy, rfl⟩ := Option.map_eq_some_iff.mp h
    exact ⟨y, hy, by rw [hdense hy]⟩
  have hnew {d : DeclId} {y : Declaration} (h : d.get? decls = some y) :
      d.get? (linkChildren decls) = some (y.withMembers (childrenIn decls d)) := by
    rw [get?_linkChildren, h, Option.map_some, hdense h]
  have hmembers {d : DeclId} {y : Declaration} (h : d.get? decls = some y) (hs : y.kind.isScope) :
      (y.withMembers (childrenIn decls d)).members = childrenIn decls d :=
    Declaration.members_withMembers (hfitting h) hs _
  have hmem {d m : DeclId} {y : Declaration} (h : d.get? decls = some y)
      (hm : m ∈ (y.withMembers (childrenIn decls d)).members) : m ∈ childrenIn decls d := by
    by_cases hs : y.kind.isScope
    · rwa [hmembers h hs] at hm
    · rw [members_of_not_isScope (Declaration.fitting_withMembers (hfitting h) _) hs] at hm
      cases hm
  constructor
  case dense =>
    intro d x h
    obtain ⟨y, hy, rfl⟩ := hold h
    have hid := hdense hy
    exact hid
  case fitting =>
    intro d x h
    obtain ⟨y, hy, rfl⟩ := hold h
    exact Declaration.fitting_withMembers (hfitting hy) _
  case root_held =>
    rintro _ ⟨⟩
    obtain ⟨x, hx, hp, hk⟩ := hroot
    exact ⟨_, hnew hx, hp, hk⟩
  case orphan =>
    intro d x h hp
    obtain ⟨y, hy, rfl⟩ := hold h
    rw [horphan hy hp]
  case parent =>
    intro d p x h hp
    obtain ⟨y, hy, rfl⟩ := hold h
    obtain ⟨z, hz, hs⟩ := hparent hy hp
    refine ⟨_, hnew hz, hs, ?_⟩
    rw [hmembers hz hs, mem_childrenIn hdense]
    exact ⟨y, hy, hp⟩
  case member =>
    intro d m x h hm
    obtain ⟨y, hy, rfl⟩ := hold h
    obtain ⟨z, hz, hp⟩ := (mem_childrenIn hdense).mp (hmem hy hm)
    exact ⟨_, hnew hz, hp⟩
  case ordered =>
    intro d x h
    obtain ⟨y, hy, rfl⟩ := hold h
    by_cases hs : y.kind.isScope
    · rw [hmembers hy hs]
      exact pairwise_childrenIn hdense d
    · rw [members_of_not_isScope (Declaration.fitting_withMembers (hfitting hy) _) hs]
      exact .nil

def memberOf? (x : Declaration) : Option (DeclId × DeclId) := x.parent.map (·, x.id)

theorem filterMap_memberOf? (decls : List Declaration) (d : DeclId) :
    ((decls.filterMap memberOf?).filter (·.1 == d)).map (·.2) = childrenIn decls d := by
  induction decls with
  | nil => rfl
  | cons x decls ih =>
    unfold childrenIn at ih ⊢
    cases hp : x.parent with
    | none => simp [memberOf?, hp, ih]
    | some p => by_cases hpd : p = d <;> simp [memberOf?, hp, hpd, ih]

theorem Declaration.foldl_addMember (x : Declaration) (members : List DeclId) :
    members.foldl (fun x m ↦ x.addMember m) x = x.withMembers (x.members ++ members) := by
  have hself (x : Declaration) : x.withMembers x.members = x := by
    rcases x with ⟨_, _, _, _, _, _, _, _, _, details⟩
    cases details <;> rfl
  have hstep (x : Declaration) (m : DeclId) (more : List DeclId) :
      (x.addMember m).withMembers ((x.addMember m).members ++ more) =
        x.withMembers (x.members ++ m :: more) := by
    rcases x with ⟨_, _, _, _, _, _, _, _, _, details⟩
    cases details <;>
      simp [addMember, Declaration.members, withMembers, Details.withMembers]
  induction members generalizing x with
  | nil => rw [List.foldl_nil, List.append_nil, hself]
  | cons m members ih => rw [List.foldl_cons, ih, hstep]

theorem Declaration.hasMembers_addMember (x : Declaration) (m : DeclId) :
    (x.addMember m).hasMembers = x.hasMembers := by
  rcases x with ⟨_, _, _, _, _, _, _, _, _, details⟩
  cases details <;> rfl

theorem Declaration.Fitting.hasMembers {x : Declaration} (h : x.Fitting) (hs : x.kind.isScope) :
    x.hasMembers := by
  rcases x with ⟨_, kind, _, _, _, _, _, _, _, details⟩
  cases details <;> simp_all [Fitting, Details.Fits, Declaration.hasMembers, DeclKind.isScope]
  cases kind <;> simp_all [DeclKind.isCallable]

/-- Where all parents are scopes, the loop that links members goes through. -/
theorem foldlM_linkMember (s : Slots) {todo acc : List Declaration}
    (h : ∀ x ∈ todo, ∀ p ∈ x.parent, ∃ y, p.get? acc = some y ∧ y.hasMembers) :
    todo.foldlM s.linkMember acc = .ok ((todo.filterMap memberOf?).foldl
      (fun decls m ↦ m.1.modify (·.addMember m.2) decls) acc) := by
  induction todo generalizing acc with
  | nil => rfl
  | cons x todo ih =>
    obtain ⟨hx, htodo⟩ := List.forall_mem_cons.mp h
    rw [List.foldlM_cons]
    cases hp : x.parent with
    | none =>
      have hlink : s.linkMember acc x = .ok acc := by
        rw [Slots.linkMember, hp]
        rfl
      have hnone : memberOf? x = none := by rw [memberOf?, hp, Option.map_none]
      rw [hlink, List.filterMap_cons_none hnone]
      exact ih htodo
    | some p =>
      obtain ⟨y, hy, hscope⟩ := hx p hp
      have hlink : s.linkMember acc x = .ok (p.modify (·.addMember x.id) acc) := by
        simp only [Slots.linkMember, hp, hy, hscope, if_true]
        rfl
      have hsome : memberOf? x = some (p, x.id) := by rw [memberOf?, hp, Option.map_some]
      rw [hlink, List.filterMap_cons_some hsome]
      refine ih fun z hz q hq ↦ ?_
      obtain ⟨w, hw, hscope⟩ := htodo z hz q hq
      rw [Id.get?_modify, hw]
      split
      · exact ⟨_, rfl, (w.hasMembers_addMember x.id).trans hscope⟩
      · exact ⟨w, rfl, hscope⟩

/-- The members of scopes are linked as in `linkChildren`, and linking is not refused. -/
theorem linkMembers_eq (s : Slots)
    (hdense : ∀ {d : DeclId} {x}, d.get? decls = some x → x.id = d)
    (hfitting : ∀ {d : DeclId} {x}, d.get? decls = some x → x.Fitting)
    (hempty : ∀ {d : DeclId} {x}, d.get? decls = some x → x.members = [])
    (hparent : ∀ {d p : DeclId} {x}, d.get? decls = some x → x.parent = some p →
      ∃ y, p.get? decls = some y ∧ y.kind.isScope) :
    s.linkMembers decls = .ok (linkChildren decls) := by
  have hscopes : ∀ x ∈ decls, ∀ p ∈ x.parent, ∃ y, p.get? decls = some y ∧ y.hasMembers := by
    intro x hx p hp
    obtain ⟨d, hd⟩ := Id.exists_get?_of_mem (k := .decl) hx
    obtain ⟨y, hy, hs⟩ := hparent hd hp
    exact ⟨y, hy, (hfitting hy).hasMembers hs⟩
  rw [Slots.linkMembers, foldlM_linkMember s hscopes]
  refine congrArg Except.ok (Id.ext_get? (k := .decl) fun d ↦ ?_)
  rw [Id.get?_foldl_modify Declaration.addMember, get?_linkChildren]
  refine Option.map_congr fun x hx ↦ ?_
  rw [filterMap_memberOf?, Declaration.foldl_addMember, hempty hx, List.nil_append, hdense hx]

end Linking

end ScopeForest
