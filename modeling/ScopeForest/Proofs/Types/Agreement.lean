import ScopeForest.Proofs.Types.Forms
import ScopeForest.Proofs.Types.Tangles

namespace ScopeForest

open Outcome

theorem Outcome.mapM_eq_of_forall₂ {ε α β γ : Type} {f : α → Except ε γ} {g : β → Except ε γ}
    {xs : List α} {ys : List β} (h : List.Forall₂ (fun x y ↦ f x = g y) xs ys) :
    xs.mapM f = ys.mapM g := by
  induction h with
  | nil => rfl
  | cons hxy _ ih => rw [List.mapM_cons, List.mapM_cons, hxy, ih]

theorem Outcome.forall₂_of_mapM {ε α β : Type} {f : α → Except ε β} {xs ys : List α} {zs : List β}
    (hx : xs.mapM f = .ok zs) (hy : ys.mapM f = .ok zs) :
    List.Forall₂ (fun x y ↦ ∃ z, f x = .ok z ∧ f y = .ok z) xs ys := by
  have hxs := mapM_eq_ok hx
  have hys := mapM_eq_ok hy
  clear hx hy
  induction hxs generalizing ys with
  | nil =>
    cases hys
    exact .nil
  | cons hx _ ih =>
    cases hys with
    | cons hy hys => exact .cons ⟨_, hx, hy⟩ (ih hys)

/-- Nodes that are alike but for their sub-types, which are related in pairs. -/
inductive Ty.Paired (R : TypeId → TypeId → Prop) : Ty → Ty → Prop
  | fundamental (name : String) : Paired R (.fundamental name) (.fundamental name)
  | declared (d : DeclId) : Paired R (.declared d) (.declared d)
  | pointer {t u : TypeId} (h : R t u) : Paired R (.pointer t) (.pointer u)
  | reference {t u : TypeId} (h : R t u) : Paired R (.reference t) (.reference u)
  | array {t u : TypeId} (size : ArraySize) (h : R t u) : Paired R (.array t size) (.array u size)
  | const {t u : TypeId} (h : R t u) : Paired R (.const t) (.const u)
  | volatile {t u : TypeId} (h : R t u) : Paired R (.volatile t) (.volatile u)
  | function {a b : Signature} (hellipsis : a.hasEllipsis = b.hasEllipsis) (hown : a.own = b.own)
      (h : List.Forall₂ R a.children b.children) : Paired R (.function a) (.function b)
  | memberFunctionPointer {a b : Signature} (cls : DeclId)
      (hellipsis : a.hasEllipsis = b.hasEllipsis) (hown : a.own = b.own)
      (h : List.Forall₂ R a.children b.children) :
      Paired R (.memberFunctionPointer cls a) (.memberFunctionPointer cls b)
  | memberPointer {t u : TypeId} (cls : DeclId) (h : R t u) :
      Paired R (.memberPointer cls t) (.memberPointer cls u)
  | instantiation {as bs : List TemplateArg} (template : DeclId)
      (hvalues : as.map TemplateArg.value? = bs.map TemplateArg.value?)
      (h : List.Forall₂ R (as.filterMap TemplateArg.type?) (bs.filterMap TemplateArg.type?)) :
      Paired R (.instantiation template as) (.instantiation template bs)

section Paired

variable {R : TypeId → TypeId → Prop} {a b : Ty}

theorem Ty.paired_of_label (hlabel : a.label = b.label)
    (h : List.Forall₂ R a.children b.children) : Paired R a b := by
  have hfirst {t u : TypeId} {ts us : List TypeId} (ha : a.children = t :: ts)
      (hb : b.children = u :: us) : R t u := by
    rw [ha, hb] at h
    exact (List.forall₂_cons.mp h).1
  cases a <;> cases b
  case fundamental.fundamental =>
    cases hlabel
    exact .fundamental _
  case declared.declared =>
    cases hlabel
    exact .declared _
  case pointer.pointer => exact .pointer (hfirst rfl rfl)
  case reference.reference => exact .reference (hfirst rfl rfl)
  case array.array =>
    cases hlabel
    exact .array _ (hfirst rfl rfl)
  case const.const => exact .const (hfirst rfl rfl)
  case volatile.volatile => exact .volatile (hfirst rfl rfl)
  case function.function =>
    obtain ⟨hellipsis, hown⟩ := Label.function.inj hlabel
    exact .function hellipsis hown h
  case memberFunctionPointer.memberFunctionPointer =>
    obtain ⟨rfl, hellipsis, hown⟩ := Label.memberFunctionPointer.inj hlabel
    exact .memberFunctionPointer _ hellipsis hown h
  case memberPointer.memberPointer =>
    cases hlabel
    exact .memberPointer _ (hfirst rfl rfl)
  case instantiation.instantiation =>
    obtain ⟨rfl, hvalues⟩ := Label.instantiation.inj hlabel
    exact .instantiation _ hvalues h
  -- nodes of different kinds
  all_goals cases hlabel

theorem Ty.Paired.children (h : Paired R a b) : List.Forall₂ R a.children b.children := by
  cases h with
  | fundamental | declared => exact .nil
  | function hellipsis hown h => exact h
  | memberFunctionPointer cls hellipsis hown h => exact h
  | instantiation template hvalues h => exact h
  | _ => exact .cons ‹_› .nil

theorem Ty.Paired.owner? (h : Paired R a b) : a.owner? = b.owner? := by
  cases h <;> rfl

theorem Ty.Paired.label (h : Paired R a b) : a.label = b.label := by
  cases h with
  | function hellipsis hown h => rw [Ty.label, Ty.label, hellipsis, hown]
  | memberFunctionPointer cls hellipsis hown h => rw [Ty.label, Ty.label, hellipsis, hown]
  | instantiation template hvalues h => rw [Ty.label, Ty.label, hvalues]
  | _ => rfl

end Paired

section Pieces

variable {R : TypeId → TypeId → Prop} {spell : Speller}
  (hspell : ∀ {t u}, R t u → spell true t = spell true u)

include hspell

theorem Signature.spellAround_congr (declarator : Outcome String) {a b : Signature}
    (hellipsis : a.hasEllipsis = b.hasEllipsis) (hown : a.own = b.own)
    (h : List.Forall₂ R a.children b.children) :
    a.spellAround (spell true) declarator = b.spellAround (spell true) declarator := by
  obtain ⟨hresult, hparams⟩ := List.forall₂_cons.mp h
  have hlist : a.spellParameters (spell true) = b.spellParameters (spell true) := by
    have htexts := mapM_eq_of_forall₂ (hparams.imp fun _ _ ↦ hspell)
    rw [spellParameters, spellParameters, hellipsis, htexts]
  have hsuffix : a.suffix = b.suffix := congrArg Qualifiers.suffix hown
  rw [spellAround, spellAround, hspell hresult, hlist, hsuffix]

theorem spellArgs_congr {as bs : List TemplateArg}
    (hvalues : as.map TemplateArg.value? = bs.map TemplateArg.value?)
    (h : List.Forall₂ R (as.filterMap TemplateArg.type?) (bs.filterMap TemplateArg.type?)) :
    spellArgs spell as = spellArgs spell bs := by
  unfold spellArgs
  refine congrArg (· >>= _) (mapM_eq_of_forall₂ ?_)
  -- the values tell which arguments are types
  induction as generalizing bs with
  | nil =>
    cases bs with
    | nil => exact .nil
    | cons b bs => cases hvalues
  | cons a as ih =>
    cases bs with
    | nil => cases hvalues
    | cons b bs =>
      obtain ⟨hvalue, hrest⟩ := List.cons.inj hvalues
      cases a with
      | type t =>
        cases b with
        | type u =>
          obtain ⟨hpair, hmore⟩ := List.forall₂_cons.mp h
          exact .cons (hspell hpair) (ih hrest hmore)
        | value text => cases hvalue
      | value text =>
        cases b with
        | type u => cases hvalue
        | value text' =>
          cases hvalue
          exact .cons rfl (ih hrest h)

end Pieces

namespace Store

variable {s : Store} {a b t u : TypeId} {rank : TypeId → Nat}

def SameForm (s : Store) (t u : TypeId) : Prop := ∃ F, s.form t = .ok F ∧ s.form u = .ok F

theorem holdsType_of_form {F : Form} (h : s.form t = .ok F) : s.HoldsType t := by
  obtain ⟨node, hnode, -⟩ := bind_eq_ok h
  exact ⟨node, get?_of_ty hnode⟩

theorem holdsType_of_canonicalHead {r : TypeId × Qualifiers} (h : s.canonicalHead t = .ok r) :
    s.HoldsType t := by
  unfold canonicalHead followHead at h
  split at h
  next => cases h
  next hu =>
    unfold stripQualifiersAux at hu
    split at hu
    next => cases hu
    all_goals exact ⟨_, get?_of_ty ‹_›⟩

section Linked

variable (hs : s.Linked) (hr : s.Ranking s.Expands rank)

include hs hr

theorem eq_or_sameForm (h : s.structuralEquals a b = .ok true) : a = b ∨ s.SameForm a b := by
  by_cases hab : a = b
  · exact .inl hab
  · have h' := h
    rw [structuralEquals, structuralEqualsAux, if_neg hab] at h'
    obtain ⟨_, ha, h'⟩ := bind_eq_ok h'
    obtain ⟨_, hb, -⟩ := bind_eq_ok h'
    have ha' := holdsType_of_canonicalHead ha
    obtain ⟨F, hF⟩ := form_returns hs hr ha'
    have heq := (structuralEquals_eq_true_iff hs hr ha' (holdsType_of_canonicalHead hb)).mp h
    exact .inr ⟨F, hF, heq ▸ hF⟩

theorem SameForm.heads (h : s.SameForm t u) : ∃ c d q x y, s.canonicalHead t = .ok (c, q) ∧
    s.canonicalHead u = .ok (d, q) ∧ s.ty c = .ok x ∧ s.ty d = .ok y ∧ x.Paired s.SameForm y := by
  obtain ⟨F, ht, hu⟩ := h
  obtain ⟨c, q, x, parts, hc, -, hx, -, hparts, hF⟩ := exists_head hs hr (holdsType_of_form ht)
  obtain ⟨d, p, y, parts', hd, -, hy, -, hparts', hF'⟩ := exists_head hs hr (holdsType_of_form hu)
  rw [ht] at hF
  rw [hu, hF, Except.ok.injEq, Form.node.injEq] at hF'
  obtain ⟨rfl, hlabel, rfl⟩ := hF'
  refine ⟨c, d, q, x, y, hc, hd, ty_of_get? hx, ty_of_get? hy, ?_⟩
  exact Ty.paired_of_label hlabel (forall₂_of_mapM hparts hparts')

/-- Conversely, nodes have the same form where they are alike but for sub-types that have. -/
theorem sameForm_of_paired {x y : Ty} (ht : t.get? s.types = some x) (hu : u.get? s.types = some y)
    (h : x.Paired s.SameForm y) : s.SameForm t u := by
  have hwrap {v w : TypeId} {q : Qualifiers} (hvw : s.SameForm v w)
      (hx : s.unwrap x = .ok (some (q, v))) (hy : s.unwrap y = .ok (some (q, w))) :
      s.SameForm t u := by
    obtain ⟨F, hv, hw⟩ := hvw
    exact ⟨_, form_of_unwrap hs hr ht hx hv, form_of_unwrap hs hr hu hy hw⟩
  have hhead (hx : s.unwrap x = .ok none) (hy : s.unwrap y = .ok none) : s.SameForm t u := by
    have hforms : x.children.mapM s.form = y.children.mapM s.form := by
      refine mapM_eq_of_forall₂ (h.children.imp fun v w hvw ↦ ?_)
      obtain ⟨F, hv, hw⟩ := hvw
      rw [hv, hw]
    obtain ⟨parts, hparts⟩ := returns_mapM fun v hv ↦ form_returns hs hr (hs.child ht hv)
    refine ⟨_, form_of_head hs hr ht hx hparts, ?_⟩
    rw [h.label]
    exact form_of_head hs hr hu hy (hforms ▸ hparts)
  cases h with
  | const hvw => exact hwrap hvw rfl rfl
  | volatile hvw => exact hwrap hvw rfl rfl
  | declared d =>
    -- the same node twice
    obtain ⟨F, hF⟩ := form_returns hs hr ⟨_, ht⟩
    refine ⟨F, hF, ?_⟩
    rw [form, formAux, ty_of_get? ht] at hF
    rw [form, formAux, ty_of_get? hu]
    exact hF
  | _ => exact hhead rfl rfl

theorem structuralEquals_congr (h : s.SameForm t u) (o : TypeId) :
    s.structuralEquals t o = s.structuralEquals u o := by
  obtain ⟨F, ht, hu⟩ := h
  have hheld := holdsType_of_form ht
  have hheld' := holdsType_of_form hu
  by_cases ho : s.HoldsType o
  · by_cases heq : s.form t = s.form o
    · have heq' : s.form u = s.form o := hu.trans (ht.symm.trans heq)
      rw [(structuralEquals_eq_true_iff hs hr hheld ho).mpr heq,
        (structuralEquals_eq_true_iff hs hr hheld' ho).mpr heq']
    · have hne : s.form u ≠ s.form o := fun h ↦ heq (ht.trans (hu.symm.trans h))
      rw [structuralEquals_eq_false hs hr hheld ho heq,
        structuralEquals_eq_false hs hr hheld' ho hne]
  · -- both run into the same fault
    have hfault {v : TypeId} (hv : s.HoldsType v) : ∃ e, s.canonicalHead o = .error e ∧
        s.structuralEquals v o = .error e := by
      obtain ⟨c, q, hc, -⟩ := canonicalHead_returns hs hr hv
      have hne : v ≠ o := fun h ↦ ho (h ▸ hv)
      cases hhead : s.canonicalHead o with
      | error e =>
        refine ⟨e, rfl, ?_⟩
        rw [structuralEquals, structuralEqualsAux, if_neg hne, hc, hhead]
        rfl
      | ok head => exact absurd (holdsType_of_canonicalHead hhead) ho
    obtain ⟨e, he, ht⟩ := hfault hheld
    obtain ⟨e', he', hu⟩ := hfault hheld'
    rw [he] at he'
    cases he'
    rw [ht, hu]

section Congruence

variable {spell : Speller} (hspell : ∀ {t u}, s.SameForm t u → spell true t = spell true u)

include hspell

theorem spellPointer_congr (mark : String) (h : s.SameForm t u) :
    s.spellPointer spell true mark t = s.spellPointer spell true mark u := by
  obtain ⟨c, d, q, x, y, hc, hd, hx, hy, hnodes⟩ := h.heads hs hr
  have hpointee : s.pointee true t = .ok c := by rw [pointee, if_pos rfl, hc]; rfl
  have hpointee' : s.pointee true u = .ok d := by rw [pointee, if_pos rfl, hd]; rfl
  simp only [spellPointer, hpointee, hpointee', bind, Except.bind, hx, hy]
  -- a function is spelled around the mark, anything else before it
  cases hnodes with
  | function hellipsis hown h => exact Signature.spellAround_congr hspell _ hellipsis hown h
  | _ => rw [hspell h]

theorem spellNode_congr {x y : Ty} (h : x.Paired s.SameForm y) :
    s.spellNode spell true x = s.spellNode spell true y := by
  cases h with
  | fundamental | declared => rfl
  | pointer h => exact spellPointer_congr hs hr hspell "*" h
  | reference h => exact spellPointer_congr hs hr hspell "&" h
  | array _ h | const h | volatile h | memberPointer _ h => simp only [spellNode, hspell h]
  | function hellipsis hown h => exact Signature.spellAround_congr hspell _ hellipsis hown h
  | memberFunctionPointer cls hellipsis hown h =>
    exact Signature.spellAround_congr hspell _ hellipsis hown h
  | instantiation template hvalues h => simp only [spellNode, spellArgs_congr hspell hvalues h]

end Congruence

/-- The fuel is spent alike on types of one form. -/
theorem spellAux_congr (fuel : Nat) (h : s.SameForm t u) :
    s.spellAux fuel true t = s.spellAux fuel true u := by
  induction fuel generalizing t u with
  | zero => rfl
  | succ fuel ih =>
    obtain ⟨c, d, q, x, y, hc, hd, hx, hy, hnodes⟩ := h.heads hs hr
    simp only [spellAux, hc, hd, bind, Except.bind, hx, hy, spellNode_congr hs hr ih hnodes]

theorem anonymousScopesAux_congr (fuel : Nat) (h : s.SameForm t u) :
    s.anonymousScopesAux fuel t = s.anonymousScopesAux fuel u := by
  induction fuel generalizing t u with
  | zero => rfl
  | succ fuel ih =>
    obtain ⟨c, d, q, x, y, hc, hd, hx, hy, hnodes⟩ := h.heads hs hr
    have hscopes : s.ownerScopes x = s.ownerScopes y := by
      rw [ownerScopes, ownerScopes, hnodes.owner?]
    have hinner (special : Option TypeId) :
        (special.toList ++ x.children).mapM (s.anonymousScopesAux fuel) =
          (special.toList ++ y.children).mapM (s.anonymousScopesAux fuel) := by
      have hparts := hnodes.children.imp fun _ _ ↦ ih
      simp only [List.mapM_append, mapM_eq_of_forall₂ hparts]
    simp only [anonymousScopesAux, hc, hd, bind, Except.bind, hx, hy, hscopes]
    cases s.ownerScopes y with
    | error e => rfl
    | ok found => simp only [hinner]

theorem spell_congr (h : s.structuralEquals a b = .ok true) : s.spell true a = s.spell true b := by
  rcases eq_or_sameForm hs hr h with rfl | h
  · rfl
  · exact spellAux_congr hs hr _ h

theorem anonymousScopes_congr (h : s.structuralEquals a b = .ok true) :
    s.anonymousScopes a = s.anonymousScopes b := by
  rcases eq_or_sameForm hs hr h with rfl | h
  · rfl
  · exact anonymousScopesAux_congr hs hr _ h

theorem signatureKey_congr {d e : DeclId} {x y : Declaration} {c c' : CallableDetails}
    (hd : d.get? s.decls = some x) (he : e.get? s.decls = some y)
    (hx : x.callableDetails? = some c) (hy : y.callableDetails? = some c')
    (hparams : List.Forall₂ (fun p q ↦ s.structuralEquals p.type q.type = .ok true)
      c.parameters c'.parameters)
    (hflags : ∀ flag ∈ [.const, .volatile, .noexcept, .ellipsis],
      c.flags.has flag = c'.flags.has flag) : s.signatureKey d = s.signatureKey e := by
  have htypes : List.Forall₂ (fun t u ↦ s.structuralEquals t u = .ok true)
      (c.parameters.map (·.type)) (c'.parameters.map (·.type)) :=
    List.forall₂_map_left_iff.mpr (List.forall₂_map_right_iff.mpr hparams)
  have htexts := mapM_eq_of_forall₂ (htypes.imp fun _ _ ↦ spell_congr hs hr)
  have hscopes := mapM_eq_of_forall₂ (htypes.imp fun _ _ ↦ anonymousScopes_congr hs hr)
  simp only [List.forall_mem_cons] at hflags
  obtain ⟨hconst, hvolatile, hnoexcept, hellipsis, -⟩ := hflags
  simp only [signatureKey, decl_of_get? hd, decl_of_get? he, bind, Except.bind, hx, hy, htexts,
    hscopes, hconst, hvolatile, hnoexcept, hellipsis]

end Linked

/-- Texts do not tell equal types apart. -/
structure SpellsByForm (s : Store) : Prop where
  text : ∀ {a b}, s.structuralEquals a b = .ok true → s.spell true a = s.spell true b
  scopes : ∀ {a b}, s.structuralEquals a b = .ok true → s.anonymousScopes a = s.anonymousScopes b
  /-- Callables have the same key where their parameters have equal types and the qualifiers are the
  same. -/
  key : ∀ {d e x y c c'}, d.get? s.decls = some x → e.get? s.decls = some y →
    x.callableDetails? = some c → y.callableDetails? = some c' →
      List.Forall₂ (fun p q ↦ s.structuralEquals p.type q.type = .ok true)
        c.parameters c'.parameters →
      (∀ flag ∈ [.const, .volatile, .noexcept, .ellipsis], c.flags.has flag = c'.flags.has flag) →
        s.signatureKey d = s.signatureKey e
  /-- There are such texts and keys wherever the spelling comes to an end. -/
  returns : s.Closed → (∀ q, s.Ends q) → (∀ {t}, s.HoldsType t → Returns (s.spell true t)) ∧
    ∀ {d}, s.HoldsDecl d → Returns (s.signatureKey d)

/-- Where no type expands to itself, equal types are spelled alike, and callables that take equal
types have the same key. -/
theorem spellsByForm (hs : s.Linked) (h : s.Acyclic) : s.SpellsByForm := by
  obtain ⟨rank, hr⟩ := exists_rank hs.expands h
  refine ⟨spell_congr hs hr, anonymousScopes_congr hs hr, signatureKey_congr hs hr, ?_⟩
  intro hclosed hends
  have hanswers {q : Request} (hq : s.HoldsRequest q) : s.Answers q :=
    (answers_iff hclosed hr hq).mpr (hends q)
  refine ⟨fun {t} ht ↦ hanswers (q := .text true t) ht, fun hd ↦ ?_⟩
  exact signatureKey_returns hclosed hanswers hd

end Store

namespace Sample

/-- The class `c` is `box<K>` with `K` in an unnamed namespace. One overload of `f` takes the
typedef `t` of `c *`, the other one takes `box<K> *`. -/
def overloads : Store where
  decls :=
    [{ id := ⟨1⟩, kind := .namespaceDecl, name := "::", unit := ⟨1⟩, externalId := "root",
        details := .scope [⟨2⟩, ⟨4⟩, ⟨5⟩, ⟨6⟩, ⟨7⟩, ⟨8⟩] },
      { member ⟨2⟩ "" .namespaceDecl (.scope [⟨3⟩]) with anonymous := some "(unnamed)" },
      { member ⟨3⟩ "K" .classDecl (.cls { key := .classKey }) with parent := some ⟨2⟩ },
      member ⟨4⟩ "box" .classDecl (.cls { key := .classKey }),
      member ⟨5⟩ "c" .classDecl (.cls { key := .classKey, instantiates := some ⟨2⟩ }),
      member ⟨6⟩ "t" .typedef (.typedef ⟨4⟩),
      member ⟨7⟩ "f" .function (.callable { parameters := [{ type := ⟨5⟩ }] }),
      member ⟨8⟩ "f" .function (.callable { parameters := [{ type := ⟨6⟩ }] })]
  types :=
    [.declared ⟨3⟩, .instantiation ⟨4⟩ [.type ⟨1⟩], .declared ⟨5⟩, .pointer ⟨3⟩, .declared ⟨6⟩,
      .pointer ⟨2⟩]

theorem overloads_closed : overloads.Closed :=
  Store.closed_of_lt (by decide) (by decide)

theorem overloads_acyclic : overloads.Acyclic :=
  (Store.linked_and_acyclic_of_lt (by decide)).2

theorem overloads_ends (q : Request) : overloads.Ends q := by
  obtain ⟨rank, hr⟩ := Store.exists_rank overloads_closed.expands overloads_acyclic
  refine (Store.untangled_iff hr overloads_closed).mp ?_ q
  refine Store.untangled_of_returns fun {d x i} hx hi ↦ ?_
  -- `c` is the only specialized class
  have hall : ∀ d : DeclId, d ∈ Id.all overloads.decls → ∀ x ∈ d.get? overloads.decls,
      ∀ i ∈ x.instantiates?, d = ⟨5⟩ ∧ i = ⟨2⟩ := by decide
  obtain ⟨rfl, rfl⟩ := hall d (Id.mem_all_of_get? hx) x hx i hi
  have hname : overloads.declName ⟨5⟩ = .ok "box<K>" := by cbv
  have hscopes : overloads.anonymousScopes ⟨2⟩ = .ok ["(unnamed)"] := by cbv
  exact ⟨⟨_, hname⟩, ⟨_, hscopes⟩⟩

end Sample

open Sample

theorem spellsByForm_sample : overloads.Closed ∧ overloads.Acyclic ∧ (∀ q, overloads.Ends q) ∧
    overloads.SpellsByForm ∧ overloads.structuralEquals ⟨5⟩ ⟨6⟩ = .ok true ∧
      overloads.spell true ⟨5⟩ = overloads.spell true ⟨6⟩ ∧
        overloads.signatureKey ⟨7⟩ = overloads.signatureKey ⟨8⟩ ∧
          overloads.signatureKey ⟨8⟩ = .ok (some "(box<K> *) [(unnamed)]") := by
  have hspells := Store.spellsByForm overloads_closed.linked overloads_acyclic
  have hequal : overloads.structuralEquals ⟨5⟩ ⟨6⟩ = .ok true := by cbv
  refine ⟨overloads_closed, overloads_acyclic, overloads_ends, hspells, hequal,
    hspells.text hequal, ?_, by cbv⟩
  exact hspells.key rfl rfl rfl rfl (.cons hequal .nil) fun _ _ ↦ rfl

end ScopeForest
