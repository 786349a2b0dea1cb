import ScopeForest.Proofs.Types.Layers

namespace ScopeForest

/-- What a node is apart from its sub-types. -/
inductive Label
  | fundamental (name : String)
  | declared (d : DeclId)
  | pointer
  | reference
  | array (size : ArraySize)
  | const
  | volatile
  | function (hasEllipsis : Bool) (own : Qualifiers)
  | memberFunctionPointer (cls : DeclId) (hasEllipsis : Bool) (own : Qualifiers)
  | memberPointer (cls : DeclId)
  /-- An argument that is a type has no value. -/
  | instantiation (template : DeclId) (values : List (Option String))
  deriving DecidableEq, Repr

def Signature.own (s : Signature) : Qualifiers := ⟨s.isConst, s.isVolatile⟩

def TemplateArg.value? : TemplateArg → Option String
  | type _ => none
  | value text => some text

namespace Ty

def label : Ty → Label
  | fundamental name => .fundamental name
  | declared d => .declared d
  | pointer _ => .pointer
  | reference _ => .reference
  | array _ size => .array size
  | const _ => .const
  | volatile _ => .volatile
  | function s => .function s.hasEllipsis s.own
  | memberFunctionPointer cls s => .memberFunctionPointer cls s.hasEllipsis s.own
  | memberPointer cls _ => .memberPointer cls
  | instantiation template args => .instantiation template (args.map TemplateArg.value?)

theorem label_rename (f : TypeId → TypeId) (node : Ty) : (node.rename id f).label = node.label := by
  cases node with
  | instantiation template args =>
    have hvalue : TemplateArg.value? ∘ TemplateArg.map f = TemplateArg.value? := by
      funext arg
      cases arg <;> rfl
    simp only [rename, label, List.map_map, hvalue, id]
  | _ => rfl

end Ty

section Same

variable {α β : Type} {f : TypeId → β} {same : TypeId → TypeId → Outcome Bool}

theorem sameItems_eq_true_iff {g : α → β} {test : α → α → Outcome Bool} {xs ys : List α}
    (h : ∀ x ∈ xs, ∀ y ∈ ys, test x y = .ok true ↔ g x = g y) :
    sameItems test xs ys = .ok true ↔ xs.map g = ys.map g := by
  induction xs generalizing ys with
  | nil => cases ys <;> simp [sameItems, pure, Except.pure]
  | cons x xs ih =>
    cases ys with
    | nil => simp [sameItems, pure, Except.pure]
    | cons y ys =>
      have hxy := h x List.mem_cons_self y List.mem_cons_self
      have hrest := ih fun x hx y hy ↦ h x (List.mem_cons_of_mem _ hx) y (List.mem_cons_of_mem _ hy)
      rw [List.map_cons, List.map_cons, List.cons.injEq, ← hxy, ← hrest, sameItems]
      cases test x y with
      | error e => simp [bind, Except.bind]
      | ok equal => cases equal <;> simp [bind, Except.bind, pure, Except.pure]

theorem Signature.same_eq_true_iff {a b : Signature}
    (h : ∀ t ∈ a.children, ∀ u ∈ b.children, same t u = .ok true ↔ f t = f u) :
    a.same same b = .ok true ↔ (a.hasEllipsis = b.hasEllipsis ∧ a.own = b.own) ∧
      a.children.map f = b.children.map f := by
  unfold Signature.same
  split
  next hflags =>
    rw [sameItems_eq_true_iff h]
    simp [own, hflags]
  next hflags =>
    refine ⟨fun h ↦ (by cases h), fun h ↦ absurd ?_ hflags⟩
    obtain ⟨⟨hellipsis, hown⟩, hparts⟩ := h
    have hlength := congrArg List.length hparts
    simp only [children, List.length_map, List.length_cons, Nat.add_right_cancel_iff] at hlength
    exact ⟨hellipsis, (Qualifiers.mk.inj hown).1, (Qualifiers.mk.inj hown).2, hlength⟩

theorem TemplateArg.map_eq_map_iff {as bs : List TemplateArg} :
    as.map (fun a ↦ (a.value?, a.type?.map f)) = bs.map (fun b ↦ (b.value?, b.type?.map f)) ↔
      as.map value? = bs.map value? ∧
        (as.filterMap type?).map f = (bs.filterMap type?).map f := by
  induction as generalizing bs with
  | nil => cases bs <;> simp
  | cons a as ih =>
    cases bs with
    | nil => simp
    | cons b bs =>
      rw [List.map_cons, List.map_cons, List.cons.injEq, ih]
      cases a <;> cases b <;> simp [value?, type?, List.filterMap_cons, and_assoc, and_left_comm]

theorem TemplateArg.same_eq_true_iff {a b : TemplateArg}
    (h : ∀ t ∈ a.type?, ∀ u ∈ b.type?, same t u = .ok true ↔ f t = f u) :
    a.same same b = .ok true ↔ (a.value?, a.type?.map f) = (b.value?, b.type?.map f) := by
  cases a with
  | type t =>
    cases b with
    | type u => simpa [TemplateArg.same, value?, type?] using h t rfl u rfl
    | value text => simp [TemplateArg.same, value?, type?, pure, Except.pure]
  | value text => cases b <;> simp [TemplateArg.same, value?, type?, pure, Except.pure]

/-- Nodes are found equal where they have the same label and their sub-types are pairwise equal. -/
theorem Ty.same_eq_true_iff {a b : Ty}
    (h : ∀ t ∈ a.children, ∀ u ∈ b.children, same t u = .ok true ↔ f t = f u) :
    a.same same b = .ok true ↔ a.label = b.label ∧ a.children.map f = b.children.map f := by
  have hfirst {t u : TypeId} {ts us : List TypeId} (ha : a.children = t :: ts)
      (hb : b.children = u :: us) : same t u = .ok true ↔ f t = f u :=
    h t (ha ▸ List.mem_cons_self) u (hb ▸ List.mem_cons_self)
  cases a <;> cases b
  case fundamental.fundamental | declared.declared =>
    simp [Ty.same, label, children, pure, Except.pure]
  case pointer.pointer | reference.reference | const.const | volatile.volatile =>
    simp [Ty.same, label, children, hfirst rfl rfl]
  case array.array m _ n | memberPointer.memberPointer m _ n _ =>
    by_cases hmn : m = n <;> simp [Ty.same, label, children, hmn, hfirst rfl rfl, pure, Except.pure]
  case function.function => simp [Ty.same, label, children, Signature.same_eq_true_iff h]
  case memberFunctionPointer.memberFunctionPointer c _ d _ =>
    have hsig := Signature.same_eq_true_iff h
    by_cases hcd : c = d <;> simp [Ty.same, label, children, hcd, hsig, pure, Except.pure]
  case instantiation.instantiation c as d bs =>
    have hitems : sameItems (TemplateArg.same same) as bs = .ok true ↔ _ :=
      sameItems_eq_true_iff fun x hx y hy ↦ TemplateArg.same_eq_true_iff fun t ht u hu ↦
        h t (List.mem_filterMap.mpr ⟨x, hx, ht⟩) u (List.mem_filterMap.mpr ⟨y, hy, hu⟩)
    rw [TemplateArg.map_eq_map_iff] at hitems
    by_cases hcd : c = d ∧ as.length = bs.length
    · simp [Ty.same, label, children, hcd, hitems]
    · rw [Ty.same, if_neg hcd]
      refine ⟨fun h ↦ (by cases h), fun h ↦ absurd ?_ hcd⟩
      obtain ⟨htemplate, hvalues⟩ := Label.instantiation.inj h.1
      exact ⟨htemplate, by simpa using congrArg List.length hvalues⟩
  -- nodes of different kinds
  all_goals exact ⟨fun h ↦ (by cases h), fun h ↦ (by cases h.1)⟩

end Same

/-- The canonical form of a type. -/
inductive Form
  | node (q : Qualifiers) (label : Label) (parts : List Form)

namespace Qualifiers

theorem union_assoc (p q r : Qualifiers) : (p.union q).union r = p.union (q.union r) := by
  simp [union, Bool.or_assoc]

@[simp] theorem union_none (q : Qualifiers) : q.union {} = q := by
  simp [union]

@[simp] theorem none_union (q : Qualifiers) : Qualifiers.union {} q = q := by
  simp [union]

end Qualifiers

namespace Form

def qualify (p : Qualifiers) : Form → Form
  | node q label parts => node (p.union q) label parts

@[simp] theorem qualify_none (F : Form) : F.qualify {} = F := by
  cases F
  simp [qualify]

theorem qualify_qualify (p q : Qualifiers) (F : Form) :
    (F.qualify q).qualify p = F.qualify (p.union q) := by
  cases F
  simp [qualify, Qualifiers.union_assoc]

end Form

theorem Outcome.map_eq_of_mapM {ε α β : Type} {f : α → Except ε β} {xs : List α} {ys : List β}
    (h : xs.mapM f = .ok ys) : xs.map f = ys.map .ok := by
  have hall := mapM_eq_ok h
  clear h
  induction hall with
  | nil => rfl
  | cons hy _ ih => rw [List.map_cons, List.map_cons, hy, ih]

namespace Store

open Outcome

/-- One step of looking through a node, with the qualifier that it has. -/
def unwrap (s : Store) : Ty → Outcome (Option (Qualifiers × TypeId))
  | .const u => return some ({ const := true }, u)
  | .volatile u => return some ({ volatile := true }, u)
  | .declared d => do return (← s.decl d).expansion?.map fun u ↦ ({}, u)
  | _ => return none

def formAux (s : Store) : Nat → TypeId → Outcome Form
  | 0, _ => Outcome.fault .endless
  | fuel + 1, t => do
    let node ← s.ty t
    match ← s.unwrap node with
    | some (q, u) => return (← s.formAux fuel u).qualify q
    | none => return .node {} node.label (← node.children.mapM (s.formAux fuel))

/-- The canonical form of a type; there is none where the type expands to itself. -/
def form (s : Store) (t : TypeId) : Outcome Form := s.formAux (s.types.length + 1) t

variable {s : Store} {t u : TypeId} {node : Ty} {q p : Qualifiers} {F : Form} {rank : TypeId → Nat}

theorem unwraps_of_unwrap (ht : t.get? s.types = some node)
    (h : s.unwrap node = .ok (some (q, u))) : s.Unwraps t u := by
  cases node with
  | const =>
    cases h
    exact .const ht
  | volatile =>
    cases h
    exact .volatile ht
  | declared d =>
    obtain ⟨x, hx, h⟩ := bind_eq_ok h
    obtain ⟨v, hv, h⟩ := Option.map_eq_some_iff.mp (Except.ok.inj h)
    cases h
    exact .named ht (get?_of_decl hx) hv
  | _ => cases h

theorem unwrap_declared {d : DeclId} {x : Declaration} (hx : d.get? s.decls = some x)
    (hu : x.expansion? = some u) : s.unwrap (.declared d) = .ok (some ({}, u)) := by
  simp [unwrap, decl_of_get? hx, hu, bind, Except.bind, pure, Except.pure]

theorem unwrap_returns (hs : s.Linked) (ht : t.get? s.types = some node) :
    Returns (s.unwrap node) := by
  cases node with
  | declared d =>
    obtain ⟨x, hx⟩ := hs.named ht
    exact returns_bind (decl_of_get? hx) ⟨_, rfl⟩
  | _ => exact ⟨_, rfl⟩

theorem HasHead.unwrap (h : s.HasHead t u) (hs : s.Linked) (hu : u.get? s.types = some node) :
    s.unwrap node = .ok none := by
  obtain ⟨step, hstep⟩ := unwrap_returns hs hu
  cases step with
  | none => exact hstep
  | some step => exact absurd (unwraps_of_unwrap hu hstep) (h.last _)

theorem formAux_mono {fuel fuel' : Nat} (hle : fuel ≤ fuel') (t : TypeId) :
    Maps id (s.formAux fuel t) (s.formAux fuel' t) := by
  induction fuel generalizing fuel' t with
  | zero => exact .error _ _ _
  | succ fuel ih =>
    obtain ⟨fuel', rfl⟩ := Nat.exists_eq_add_of_le' (Nat.lt_of_lt_of_le fuel.succ_pos hle)
    have hinner := ih (Nat.le_of_succ_le_succ hle)
    refine .bind (φ := id) (fun _ h ↦ h) fun node _ ↦ ?_
    refine .bind (φ := id) (fun _ h ↦ h) fun step _ ↦ ?_
    cases step with
    | none =>
      refine .bind (.mapM_same fun u _ ↦ hinner u) fun parts _ ↦ ?_
      rw [List.map_id]
      exact .ok _ _
    | some step => exact .bind (hinner step.2) fun F _ ↦ .ok _ _

section Ranked

variable (hs : s.Linked) (hr : s.Ranking s.Expands rank)

include hs hr

theorem formAux_returns {fuel : Nat} (ht : s.HoldsType t) (hfuel : rank t < fuel) :
    Returns (s.formAux fuel t) := by
  induction fuel generalizing t with
  | zero => omega
  | succ fuel ih =>
    obtain ⟨node, hnode⟩ := ht
    obtain ⟨step, hstep⟩ := unwrap_returns hs hnode
    have hdown {u : TypeId} (hu : s.Expands t u) : Returns (s.formAux fuel u) := by
      have hlt := hr.lt hu
      exact ih (hs.expands hu) (by omega)
    refine returns_bind (ty_of_get? hnode) (returns_bind hstep ?_)
    cases step with
    | none => exact (returns_mapM fun u hu ↦ hdown (.child hnode hu)).bind fun _ ↦ ⟨_, rfl⟩
    | some step => exact (hdown (unwraps_of_unwrap hnode hstep).expands).bind fun _ ↦ ⟨_, rfl⟩

theorem form_returns (ht : s.HoldsType t) : Returns (s.form t) :=
  formAux_returns hs hr ht (Nat.lt_succ_of_le (hr.bound t))

theorem form_of_formAux (fuel : Nat) (ht : s.HoldsType t) (h : s.formAux fuel t = .ok F) :
    s.form t = .ok F := by
  obtain ⟨G, hG⟩ := form_returns hs hr ht
  have hF := formAux_mono (Nat.le_max_left fuel (s.types.length + 1)) t F h
  have hG' := formAux_mono (Nat.le_max_right fuel (s.types.length + 1)) t G hG
  rw [hF] at hG'
  cases hG'
  exact hG

theorem form_of_unwrap (ht : t.get? s.types = some node) (h : s.unwrap node = .ok (some (q, u)))
    (hu : s.form u = .ok F) : s.form t = .ok (F.qualify q) := by
  refine form_of_formAux hs hr (s.types.length + 2) ⟨node, ht⟩ ?_
  have hu' : s.formAux (s.types.length + 1) u = .ok F := hu
  rw [formAux]
  simp only [ty_of_get? ht, h, hu', bind, Except.bind, pure, Except.pure]

theorem form_of_head {parts : List Form} (ht : t.get? s.types = some node)
    (h : s.unwrap node = .ok none) (hparts : node.children.mapM s.form = .ok parts) :
    s.form t = .ok (.node {} node.label parts) := by
  refine form_of_formAux hs hr (s.types.length + 2) ⟨node, ht⟩ ?_
  have hparts' : node.children.mapM (s.formAux (s.types.length + 1)) = .ok parts := hparts
  rw [formAux]
  simp only [ty_of_get? ht, h, hparts', bind, Except.bind, pure, Except.pure]

theorem form_of_stripQualifiersAux {fuel : Nat}
    (h : s.stripQualifiersAux fuel q t = .ok (u, p)) (hu : s.form u = .ok F) :
    ∃ G, s.form t = .ok G ∧ G.qualify q = F.qualify p := by
  induction fuel generalizing q t with
  | zero => cases h
  | succ fuel ih =>
    unfold stripQualifiersAux at h
    split at h
    next => cases h
    next v hv =>
      obtain ⟨G, hG, heq⟩ := ih h
      refine ⟨_, form_of_unwrap hs hr (get?_of_ty hv) rfl hG, ?_⟩
      rw [Form.qualify_qualify, ← heq]
      simp [Qualifiers.union]
    next v hv =>
      obtain ⟨G, hG, heq⟩ := ih h
      refine ⟨_, form_of_unwrap hs hr (get?_of_ty hv) rfl hG, ?_⟩
      rw [Form.qualify_qualify, ← heq]
      simp [Qualifiers.union]
    next =>
      cases h
      exact ⟨F, hu, rfl⟩

theorem form_of_followHead {seen : List DeclId} (h : s.followHead seen q t = .ok (u, p))
    (hu : s.form u = .ok F) : ∃ G, s.form t = .ok G ∧ G.qualify q = F.qualify p := by
  fun_induction followHead s seen q t with
  | case1 | case2 | case3 | case5 => cases h
  | case4 seen q t v p hv =>
    cases h
    exact form_of_stripQualifiersAux hs hr hv hu
  | case6 seen q t v p hv d hd x hx next hnext hmem ih =>
    obtain ⟨G, hG, heq⟩ := ih h
    have hform := form_of_unwrap hs hr (get?_of_ty hd) (unwrap_declared hx hnext) hG
    rw [Form.qualify_none] at hform
    obtain ⟨H, hH, hqualify⟩ := form_of_stripQualifiersAux hs hr hv hform
    exact ⟨H, hH, hqualify.trans heq⟩
  | case7 seen q t v p hv =>
    cases h
    exact form_of_stripQualifiersAux hs hr hv hu

theorem form_of_canonicalHead {parts : List Form} (h : s.canonicalHead t = .ok (u, q))
    (hu : u.get? s.types = some node) (hparts : node.children.mapM s.form = .ok parts) :
    s.form t = .ok (.node q node.label parts) := by
  have hnone := (hasHead_of_followHead h).unwrap hs hu
  obtain ⟨G, hG, heq⟩ := form_of_followHead hs hr h (form_of_head hs hr hu hnone hparts)
  rw [Form.qualify_none, Form.qualify, Qualifiers.union_none] at heq
  rw [hG, heq]

/-- A type has the form of its canonical head, with the qualifiers on the way to it. -/
theorem exists_head (ht : s.HoldsType t) : ∃ u q node parts, s.canonicalHead t = .ok (u, q) ∧
    s.Reaches t u ∧ u.get? s.types = some node ∧ s.unwrap node = .ok none ∧
      node.children.mapM s.form = .ok parts ∧ s.form t = .ok (.node q node.label parts) := by
  obtain ⟨u, q, hu, hreach⟩ := canonicalHead_returns hs hr ht
  obtain ⟨node, hnode⟩ := hreach.held
  obtain ⟨parts, hparts⟩ := returns_mapM fun v hv ↦ form_returns hs hr (hs.child hnode hv)
  exact ⟨u, q, node, parts, hu, hreach, hnode, (hasHead_of_followHead hu).unwrap hs hnode, hparts,
    form_of_canonicalHead hs hr hu hnode hparts⟩

theorem structuralEqualsAux_eq_true_iff {fuel : Nat} {a b : TypeId} (ha : s.HoldsType a)
    (hb : s.HoldsType b) (hfuel : rank a < fuel) :
    s.structuralEqualsAux fuel a b = .ok true ↔ s.form a = s.form b := by
  induction fuel generalizing a b with
  | zero => omega
  | succ fuel ih =>
    unfold structuralEqualsAux
    split
    next hab => simp [hab, pure, Except.pure]
    next =>
      obtain ⟨c, p, hc, hac⟩ := canonicalHead_returns hs hr ha
      obtain ⟨d, q, hd, hbd⟩ := canonicalHead_returns hs hr hb
      obtain ⟨nodec, hnodec⟩ := hac.held
      obtain ⟨noded, hnoded⟩ := hbd.held
      have hheld {v : TypeId} {node : Ty} (hv : v.get? s.types = some node) :
          Returns (node.children.mapM s.form) :=
        returns_mapM fun w hw ↦ form_returns hs hr (hs.child hv hw)
      obtain ⟨parts, hparts⟩ := hheld hnodec
      obtain ⟨parts', hparts'⟩ := hheld hnoded
      have hsub (t : TypeId) (ht : t ∈ nodec.children) (u : TypeId) (hu : u ∈ noded.children) :
          s.structuralEqualsAux fuel t u = .ok true ↔ s.form t = s.form u := by
        have hle := hr.le hac
        have hlt := hr.lt (.child hnodec ht)
        exact ih (hs.child hnodec ht) (hs.child hnoded hu) (by omega)
      have hmaps : nodec.children.map s.form = noded.children.map s.form ↔ parts = parts' := by
        rw [map_eq_of_mapM hparts, map_eq_of_mapM hparts',
          List.map_inj_right fun _ _ ↦ Except.ok.inj]
      rw [form_of_canonicalHead hs hr hc hnodec hparts,
        form_of_canonicalHead hs hr hd hnoded hparts', Except.ok.injEq, Form.node.injEq, ← hmaps,
        ← Ty.same_eq_true_iff hsub]
      by_cases hpq : p = q <;>
        simp [hc, hd, hpq, ty_of_get? hnodec, ty_of_get? hnoded, bind, Except.bind, pure,
          Except.pure]

theorem structuralEquals_eq_true_iff {a b : TypeId} (ha : s.HoldsType a) (hb : s.HoldsType b) :
    s.structuralEquals a b = .ok true ↔ s.form a = s.form b := by
  have hbound := hr.bound a
  have hle : s.types.length ≤ s.types.length * s.types.length := Nat.le_mul_self _
  exact structuralEqualsAux_eq_true_iff hs hr ha hb (by omega)

theorem structuralEquals_eq_false {a b : TypeId} (ha : s.HoldsType a) (hb : s.HoldsType b)
    (hne : s.form a ≠ s.form b) : s.structuralEquals a b = .ok false := by
  obtain ⟨equal, hequal⟩ := structuralEquals_returns hs hr ha hb
  cases equal with
  | false => exact hequal
  | true => exact absurd ((structuralEquals_eq_true_iff hs hr ha hb).mp hequal) hne

/-- A node keeps its form when its sub-types are replaced by others of the same form. -/
theorem form_rename {f : TypeId → TypeId} (ht : t.get? s.types = some node)
    (hu : u.get? s.types = some (node.rename id f))
    (h : ∀ v ∈ node.children, s.form v = s.form (f v)) : s.form t = s.form u := by
  have hform {v : TypeId} (hv : v ∈ node.children) : Returns (s.form v) :=
    form_returns hs hr (hs.child ht hv)
  have hwrap {v w : TypeId} {q : Qualifiers} (hv : v ∈ node.children) (hw : f v = w)
      (ht' : s.unwrap node = .ok (some (q, v)))
      (hu' : s.unwrap (node.rename id f) = .ok (some (q, w))) : s.form t = s.form u := by
    obtain ⟨F, hF⟩ := hform hv
    have hF' : s.form w = .ok F := by rw [← hw, ← h v hv, hF]
    rw [form_of_unwrap hs hr ht ht' hF, form_of_unwrap hs hr hu hu' hF']
  have hhead (ht' : s.unwrap node = .ok none) (hu' : s.unwrap (node.rename id f) = .ok none) :
      s.form t = s.form u := by
    obtain ⟨parts, hparts⟩ := returns_mapM fun v hv ↦ hform hv
    have hparts' : (node.rename id f).children.mapM s.form = .ok parts := by
      have hmaps : Maps (List.map id) (node.children.mapM s.form)
          ((node.children.map f).mapM s.form) :=
        .mapM fun v hv F hF ↦ by rw [← h v hv]; exact hF
      rw [Ty.children_rename, hmaps parts hparts, List.map_id]
    rw [form_of_head hs hr ht ht' hparts, form_of_head hs hr hu hu' hparts', Ty.label_rename]
  cases node with
  | const v => exact hwrap List.mem_cons_self rfl rfl rfl
  | volatile v => exact hwrap List.mem_cons_self rfl rfl rfl
  | declared d =>
    -- the same node twice
    rw [form, form, formAux, formAux, ty_of_get? ht, ty_of_get? hu]
    rfl
  | _ => exact hhead rfl rfl

end Ranked

/-- Structural equality compares canonical forms. -/
structure ComparesForms (s : Store) : Prop where
  returns : ∀ {t}, s.HoldsType t → Returns (s.form t)
  equal : ∀ {a b}, s.HoldsType a → s.HoldsType b → s.form a = s.form b →
    s.structuralEquals a b = .ok true
  unequal : ∀ {a b}, s.HoldsType a → s.HoldsType b → s.form a ≠ s.form b →
    s.structuralEquals a b = .ok false
  refl : ∀ {a}, s.HoldsType a → s.structuralEquals a a = .ok true
  symm : ∀ {a b}, s.HoldsType a → s.HoldsType b → s.structuralEquals a b = s.structuralEquals b a
  trans : ∀ {a b c}, s.HoldsType a → s.HoldsType b → s.HoldsType c →
    s.structuralEquals a b = .ok true → s.structuralEquals b c = .ok true →
      s.structuralEquals a c = .ok true
  /-- A typedef and a specialized class are equal to what they stand for, and to the same types. -/
  expansion : ∀ {t u d x}, t.get? s.types = some (.declared d) → d.get? s.decls = some x →
    x.expansion? = some u → s.structuralEquals t u = .ok true ∧
      ∀ {b}, s.HoldsType b → s.structuralEquals t b = s.structuralEquals u b
  /-- Sub-types may be replaced by equal ones. -/
  congr : ∀ {t u node} {f : TypeId → TypeId}, t.get? s.types = some node →
    u.get? s.types = some (node.rename id f) →
      (∀ v ∈ node.children, s.structuralEquals v (f v) = .ok true) →
        s.structuralEquals t u = .ok true

/-- Where no type expands to itself, two types are equal if and only if they have the same form. -/
theorem comparesForms (hs : s.Linked) (h : s.Acyclic) : s.ComparesForms := by
  obtain ⟨rank, hr⟩ := exists_rank hs.expands h
  have hiff {a b : TypeId} (ha : s.HoldsType a) (hb : s.HoldsType b) :
      s.structuralEquals a b = .ok true ↔ s.form a = s.form b :=
    structuralEquals_eq_true_iff hs hr ha hb
  have hunequal {a b : TypeId} (ha : s.HoldsType a) (hb : s.HoldsType b)
      (hne : s.form a ≠ s.form b) : s.structuralEquals a b = .ok false :=
    structuralEquals_eq_false hs hr ha hb hne
  -- the answer depends on the forms only
  have hform {a b c d : TypeId} (ha : s.HoldsType a) (hb : s.HoldsType b) (hc : s.HoldsType c)
      (hd : s.HoldsType d) (hiffs : s.form a = s.form b ↔ s.form c = s.form d) :
      s.structuralEquals a b = s.structuralEquals c d := by
    by_cases heq : s.form a = s.form b
    · rw [(hiff ha hb).mpr heq, (hiff hc hd).mpr (hiffs.mp heq)]
    · rw [hunequal ha hb heq, hunequal hc hd fun hcd ↦ heq (hiffs.mpr hcd)]
  constructor
  case returns => exact form_returns hs hr
  case equal => exact fun ha hb heq ↦ (hiff ha hb).mpr heq
  case unequal => exact hunequal
  case refl => exact fun ha ↦ (hiff ha ha).mpr rfl
  case symm => exact fun ha hb ↦ hform ha hb hb ha eq_comm
  case trans =>
    intro a b c ha hb hc hab hbc
    exact (hiff ha hc).mpr (((hiff ha hb).mp hab).trans ((hiff hb hc).mp hbc))
  case expansion =>
    intro t u d x ht hx hu
    have hheld := hs.expands (.named ht hx hu)
    obtain ⟨F, hF⟩ := form_returns hs hr hheld
    have heq : s.form t = s.form u := by
      rw [form_of_unwrap hs hr ht (unwrap_declared hx hu) hF, Form.qualify_none, hF]
    refine ⟨(hiff ⟨_, ht⟩ hheld).mpr heq, fun hb ↦ ?_⟩
    exact hform ⟨_, ht⟩ hb hheld hb (by rw [heq])
  case congr =>
    intro t u node f ht hu hparts
    refine (hiff ⟨_, ht⟩ ⟨_, hu⟩).mpr (form_rename hs hr ht hu fun v hv ↦ ?_)
    have hfv : f v ∈ (node.rename id f).children := by
      rw [Ty.children_rename]
      exact List.mem_map_of_mem hv
    exact (hiff (hs.child ht hv) (hs.child hu hfv)).mp (hparts v hv)

end Store

namespace Sample

def member (id : DeclId) (name : String) (kind : DeclKind) (details : Details) : Declaration :=
  { id, kind, name, unit := ⟨1⟩, externalId := name, parent := some ⟨1⟩, details }

/-- The typedef `t` stands for `const int`, and the class `c` is `box<t *>`. -/
def boxes : Store where
  decls :=
    [{ id := ⟨1⟩, kind := .namespaceDecl, name := "::", unit := ⟨1⟩, externalId := "root",
        details := .scope [⟨2⟩, ⟨3⟩, ⟨4⟩] },
      member ⟨2⟩ "t" .typedef (.typedef ⟨2⟩),
      member ⟨3⟩ "box" .classDecl (.cls { key := .classKey }),
      member ⟨4⟩ "c" .classDecl (.cls { key := .classKey, instantiates := some ⟨6⟩ })]
  types :=
    [.fundamental "int", .const ⟨1⟩, .declared ⟨2⟩, .pointer ⟨3⟩, .pointer ⟨2⟩,
      .instantiation ⟨3⟩ [.type ⟨4⟩], .declared ⟨4⟩, .instantiation ⟨3⟩ [.type ⟨5⟩]]

end Sample

theorem comparesForms_sample : Sample.boxes.Linked ∧ Sample.boxes.Acyclic ∧
    Sample.boxes.ComparesForms ∧ Sample.boxes.structuralEquals ⟨7⟩ ⟨8⟩ = .ok true ∧
      Sample.boxes.structuralEquals ⟨1⟩ ⟨2⟩ = .ok false := by
  obtain ⟨hlinked, hacyclic⟩ : Sample.boxes.Linked ∧ Sample.boxes.Acyclic :=
    Store.linked_and_acyclic_of_lt (by decide)
  have hforms := Store.comparesForms hlinked hacyclic
  refine ⟨hlinked, hacyclic, hforms, ?_, ?_⟩
  · exact hforms.equal ⟨_, rfl⟩ ⟨_, rfl⟩ rfl
  · refine hforms.unequal ⟨_, rfl⟩ ⟨_, rfl⟩ fun heq ↦ ?_
    cases heq

end ScopeForest
