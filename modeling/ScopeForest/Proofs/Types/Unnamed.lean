import ScopeForest.Proofs.Types.Heads
import ScopeForest.Store.MergeName

namespace ScopeForest

namespace Store

open Relation

variable {s : Store} {t u v : TypeId} {d e : DeclId} {node : Ty} {names : List String}

/-- One step of looking through qualifiers, typedefs and specialized classes. -/
inductive Unwraps (s : Store) (t u : TypeId) : Prop
  | const (ht : t.get? s.types = some (.const u))
  | volatile (ht : t.get? s.types = some (.volatile u))
  | named {d : DeclId} {x : Declaration} (ht : t.get? s.types = some (.declared d))
      (hd : d.get? s.decls = some x) (hu : x.expansion? = some u)

/-- The type `u` is what is left of `t` when nothing can be looked through. -/
structure HasHead (s : Store) (t u : TypeId) : Prop where
  path : ReflTransGen s.Unwraps t u
  last : ∀ v, ¬s.Unwraps u v

theorem Unwraps.eq_of_expands (h : s.Unwraps t u) (h' : s.Expands t v) : v = u := by
  cases h' with
  | child ht hv =>
    cases h with
    | const hc =>
      rw [ht] at hc
      cases hc
      exact List.mem_singleton.mp hv
    | volatile hc =>
      rw [ht] at hc
      cases hc
      exact List.mem_singleton.mp hv
    | named hc _ _ =>
      rw [ht] at hc
      cases hc
      cases hv
  | named ht hd hv =>
    cases h with
    | const hc =>
      rw [ht] at hc
      cases hc
    | volatile hc =>
      rw [ht] at hc
      cases hc
    | named hc hd' hu =>
      rw [ht] at hc
      cases hc
      rw [hd] at hd'
      cases hd'
      rw [hv] at hu
      exact Option.some_inj.mp hu

theorem Unwraps.expands (h : s.Unwraps t u) : s.Expands t u := by
  cases h with
  | const ht => exact .child ht (List.mem_singleton_self u)
  | volatile ht => exact .child ht (List.mem_singleton_self u)
  | named ht hd hu => exact .named ht hd hu

theorem HasHead.of_unwraps (h : s.HasHead t v) (hu : s.Unwraps t u) : s.HasHead u v := by
  refine ⟨?_, h.last⟩
  rcases ReflTransGen.cases_head h.path with rfl | ⟨w, hw, hpath⟩
  · exact absurd hu (h.last u)
  · rw [← hu.eq_of_expands hw.expands]
    exact hpath

theorem HasHead.eq_self (h : s.HasHead t u) (ht : ∀ v, ¬s.Unwraps t v) : u = t := by
  rcases ReflTransGen.cases_head h.path with rfl | ⟨v, hv, -⟩
  · rfl
  · exact absurd hv (ht v)

theorem unwraps_of_stripQualifiersAux {fuel : Nat} {q p : Qualifiers}
    (h : s.stripQualifiersAux fuel q t = .ok (u, p)) : ReflTransGen s.Unwraps t u ∧
      ∀ node, u.get? s.types = some node → (∀ v, node ≠ .const v) ∧ ∀ v, node ≠ .volatile v := by
  induction fuel generalizing q t with
  | zero => cases h
  | succ fuel ih =>
    unfold stripQualifiersAux at h
    split at h
    next => cases h
    next v hv =>
      obtain ⟨hpath, hlast⟩ := ih h
      exact ⟨.head (.const (get?_of_ty hv)) hpath, hlast⟩
    next v hv =>
      obtain ⟨hpath, hlast⟩ := ih h
      exact ⟨.head (.volatile (get?_of_ty hv)) hpath, hlast⟩
    next node hconst hvolatile hnode =>
      cases h
      refine ⟨.refl, fun other hother ↦ ?_⟩
      rw [get?_of_ty hnode] at hother
      cases hother
      exact ⟨fun v hv ↦ hconst v hv, fun v hv ↦ hvolatile v hv⟩

theorem hasHead_of_followHead {seen : List DeclId} {q p : Qualifiers}
    (h : s.followHead seen q t = .ok (u, p)) : s.HasHead t u := by
  fun_induction followHead s seen q t with
  | case1 | case2 | case3 | case5 => cases h
  | case4 seen q t w p hw d hd x hx hnone =>
    cases h
    obtain ⟨hpath, hlast⟩ := unwraps_of_stripQualifiersAux hw
    refine ⟨hpath, fun v hv ↦ ?_⟩
    cases hv with
    | const hc => exact (hlast _ hc).1 v rfl
    | volatile hc => exact (hlast _ hc).2 v rfl
    | named hc hd' hv =>
      rw [get?_of_ty hd] at hc
      cases hc
      rw [hx] at hd'
      cases hd'
      rw [hnone] at hv
      cases hv
  | case6 seen q t w p hw d hd x hx next hnext hmem ih =>
    obtain ⟨hpath, -⟩ := unwraps_of_stripQualifiersAux hw
    obtain ⟨hrest, hlast⟩ := ih h
    exact ⟨hpath.trans (.head (.named (get?_of_ty hd) hx hnext) hrest), hlast⟩
  | case7 seen q t w p hw node hne hnode =>
    cases h
    obtain ⟨hpath, hlast⟩ := unwraps_of_stripQualifiersAux hw
    refine ⟨hpath, fun v hv ↦ ?_⟩
    cases hv with
    | const hc => exact (hlast _ hc).1 v rfl
    | volatile hc => exact (hlast _ hc).2 v rfl
    | named hc _ _ =>
      rw [get?_of_ty hnode] at hc
      cases hc
      exact hne _ rfl

/-- The canonical form of `t` has a node that names `d`. -/
structure Names (s : Store) (t : TypeId) (d : DeclId) : Prop where
  node : ∃ node, t.get? s.types = some node ∧ node.owner? = some d
  canonical : ∀ u, ¬s.Unwraps t u

theorem names_of_declared {x : Declaration} (ht : t.get? s.types = some (.declared d))
    (hd : d.get? s.decls = some x) (hx : x.expansion? = none) : s.Names t d := by
  refine ⟨⟨_, ht, rfl⟩, fun u hu ↦ ?_⟩
  cases hu with
  | const hc =>
    rw [ht] at hc
    cases hc
  | volatile hc =>
    rw [ht] at hc
    cases hc
  | named hc hd' hu =>
    rw [ht] at hc
    cases hc
    rw [hd] at hd'
    cases hd'
    rw [hx] at hu
    cases hu

/-- The canonical expansion of a type names a declaration inside an unnamed scope, or one whose
template arguments lead to an unnamed scope; `carries e d` says that the arguments of the specialized
class `e` count for `d`. -/
inductive ReachesUnnamed (s : Store) (carries : DeclId → DeclId → Prop) : TypeId → Prop
  | expands {t u : TypeId} (h : s.Expands t u) (hu : s.ReachesUnnamed carries u) :
      s.ReachesUnnamed carries t
  | inside {t : TypeId} {d e : DeclId} {x : Declaration} (ht : s.Names t d) (he : s.Below e d)
      (hx : e.get? s.decls = some x) (hname : x.isAnonymous = true) : s.ReachesUnnamed carries t
  | argument {t i a : TypeId} {d e template : DeclId} {x : Declaration} {args : List TemplateArg}
      (ht : s.Names t d) (he : carries e d) (hx : e.get? s.decls = some x)
      (hi : x.instantiates? = some i) (hargs : i.get? s.types = some (.instantiation template args))
      (ha : .type a ∈ args) (hreach : s.ReachesUnnamed carries a) : s.ReachesUnnamed carries t

section Collected

theorem anonymousAroundAux_eq_ok {fuel : Nat} (h : s.anonymousAroundAux (fuel + 1) d = .ok names) :
    ∃ x outer, d.get? s.decls = some x ∧ names = x.anonymous.toList ++ outer ∧
      match x.parent with
      | none => outer = []
      | some p => s.anonymousAroundAux fuel p = .ok outer := by
  obtain ⟨x, hx, h⟩ := Outcome.bind_eq_ok h
  cases hp : x.parent with
  | none =>
    rw [hp] at h
    cases h
    exact ⟨x, [], get?_of_decl hx, rfl, by rw [hp]⟩
  | some p =>
    rw [hp] at h
    obtain ⟨outer, houter, h⟩ := Outcome.bind_eq_ok h
    cases h
    exact ⟨x, outer, get?_of_decl hx, rfl, by rw [hp]; exact houter⟩

theorem mem_anonymousAroundAux {fuel : Nat} (h : s.anonymousAroundAux fuel d = .ok names)
    (he : s.Below e d) {x : Declaration} (hx : e.get? s.decls = some x) {name : String}
    (hname : x.anonymous = some name) : name ∈ names := by
  induction fuel generalizing d names with
  | zero => cases h
  | succ fuel ih =>
    obtain ⟨y, outer, hy, rfl, houter⟩ := anonymousAroundAux_eq_ok h
    cases he with
    | refl =>
      rw [hx] at hy
      cases hy
      simp [hname]
    | step hd hp he =>
      rw [hd] at hy
      cases hy
      rw [hp] at houter
      exact List.mem_append_right _ (ih houter he)

theorem anonymous_of_mem_aroundAux {fuel : Nat} (h : s.anonymousAroundAux fuel d = .ok names) :
    ∀ name ∈ names, ∃ x ∈ s.decls, x.anonymous = some name := by
  induction fuel generalizing d names with
  | zero => cases h
  | succ fuel ih =>
    obtain ⟨y, outer, hy, rfl, houter⟩ := anonymousAroundAux_eq_ok h
    intro name hname
    rcases List.mem_append.mp hname with hname | hname
    · exact ⟨y, Id.mem_of_get? hy, Option.mem_toList.mp hname⟩
    · split at houter
      next =>
        rw [houter] at hname
        cases hname
      next => exact ih houter name hname

/-- What is collected at a head: around the declaration named there, from what that declaration
specializes and from the sub-types. -/
inductive Collects (s : Store) (fuel : Nat) (u : TypeId) : List String → Prop
  | intro {node : Ty} {own : List String} {special : Option TypeId} {inner : List (List String)}
      (hu : u.get? s.types = some node) (hown : s.ownerScopes node = .ok (own, special))
      (hinner : List.Forall₂ (fun v part ↦ s.anonymousScopesAux fuel v = .ok part)
        (special.toList ++ node.children) inner) : Collects s fuel u (own ++ inner.flatten)

theorem anonymousScopesAux_eq_ok {fuel : Nat} (h : s.anonymousScopesAux fuel t = .ok names) :
    ∃ n u, fuel = n + 1 ∧ s.HasHead t u ∧ s.Collects n u names := by
  cases fuel with
  | zero => cases h
  | succ fuel =>
    obtain ⟨⟨u, q⟩, hu, h⟩ := Outcome.bind_eq_ok h
    obtain ⟨node, hnode, h⟩ := Outcome.bind_eq_ok h
    obtain ⟨⟨own, special⟩, hown, h⟩ := Outcome.bind_eq_ok h
    obtain ⟨inner, hinner, h⟩ := Outcome.bind_eq_ok h
    cases h
    exact ⟨fuel, u, rfl, hasHead_of_followHead hu,
      .intro (get?_of_ty hnode) hown (Outcome.mapM_eq_ok hinner)⟩

theorem ownerScopes_eq_ok {own : List String} {special : Option TypeId}
    (h : s.ownerScopes node = .ok (own, special)) :
    node.owner? = none ∧ own = [] ∨ ∃ d x, node.owner? = some d ∧ s.anonymousAround d = .ok own ∧
      d.get? s.decls = some x ∧ special = x.instantiates? := by
  unfold ownerScopes at h
  cases hd : node.owner? with
  | none =>
    rw [hd] at h
    cases h
    exact .inl ⟨rfl, rfl⟩
  | some d =>
    rw [hd] at h
    obtain ⟨names, hnames, h⟩ := Outcome.bind_eq_ok h
    obtain ⟨x, hx, h⟩ := Outcome.bind_eq_ok h
    cases h
    exact .inr ⟨d, x, rfl, hnames, get?_of_decl hx, rfl⟩

theorem Collects.of_owner {fuel : Nat} (h : s.Collects fuel u names)
    (hu : u.get? s.types = some node) (hd : node.owner? = some d) :
    (∃ own, s.anonymousAround d = .ok own ∧ own ⊆ names) ∧
      ∀ {x : Declaration} {i : TypeId}, d.get? s.decls = some x → x.instantiates? = some i →
        ∃ part, s.anonymousScopesAux fuel i = .ok part ∧ part ⊆ names := by
  obtain ⟨hnode, hown, hinner⟩ := h
  rw [hu] at hnode
  cases hnode
  rcases ownerScopes_eq_ok hown with ⟨hnone, -⟩ | ⟨e, y, he, haround, hy, rfl⟩
  · rw [hd] at hnone
    cases hnone
  rw [hd] at he
  cases he
  refine ⟨⟨_, haround, List.subset_append_left _ _⟩, fun {x i} hx hi ↦ ?_⟩
  rw [hy] at hx
  cases hx
  have hmem : i ∈ y.instantiates?.toList ++ node.children := by simp [hi]
  obtain ⟨part, hpart, hok⟩ := exists_of_mem_right (List.Forall₂.flip hinner) hmem
  exact ⟨part, hok, fun name hname ↦
    List.mem_append_right _ (List.mem_flatten.mpr ⟨part, hpart, hname⟩)⟩

theorem Collects.of_child {fuel : Nat} (h : s.Collects fuel u names)
    (hu : u.get? s.types = some node) (hv : v ∈ node.children) :
    ∃ part, s.anonymousScopesAux fuel v = .ok part ∧ part ⊆ names := by
  obtain ⟨hnode, -, hinner⟩ := h
  rw [hu] at hnode
  cases hnode
  obtain ⟨part, hpart, hok⟩ :=
    exists_of_mem_right (List.Forall₂.flip hinner) (List.mem_append_right _ hv)
  exact ⟨part, hok, fun name hname ↦
    List.mem_append_right _ (List.mem_flatten.mpr ⟨part, hpart, hname⟩)⟩

theorem anonymous_of_mem_scopesAux {fuel : Nat} (h : s.anonymousScopesAux fuel t = .ok names) :
    ∀ name ∈ names, ∃ x ∈ s.decls, x.anonymous = some name := by
  induction fuel generalizing t names with
  | zero => cases h
  | succ fuel ih =>
    obtain ⟨n, u, hn, -, ⟨-, hown, hinner⟩⟩ := anonymousScopesAux_eq_ok h
    cases hn
    intro name hname
    rcases List.mem_append.mp hname with hname | hname
    · rcases ownerScopes_eq_ok hown with ⟨-, hempty⟩ | ⟨d, x, -, haround, -, -⟩
      · rw [hempty] at hname
        cases hname
      · exact anonymous_of_mem_aroundAux haround name hname
    · obtain ⟨part, hpart, hname⟩ := List.mem_flatten.mp hname
      obtain ⟨v, -, hv⟩ := exists_of_mem_right hinner hpart
      exact ih hv name hname

/-- Nothing is left out but the arguments of specialized classes around a declaration. -/
theorem ReachesUnnamed.mem_collects (hreach : s.ReachesUnnamed Eq t) (hhead : s.HasHead t u)
    {fuel : Nat} (h : s.Collects fuel u names) : ∃ name, name ∈ names := by
  induction hreach generalizing fuel u names with
  | @expands t v hexp _ ih =>
    by_cases hwrapped : ∃ w, s.Unwraps t w
    · obtain ⟨w, hw⟩ := hwrapped
      have hvw := hw.eq_of_expands hexp
      subst hvw
      exact ih (hhead.of_unwraps hw) h
    · have hlast : ∀ w, ¬s.Unwraps t w := fun w hw ↦ hwrapped ⟨w, hw⟩
      have hut := hhead.eq_self hlast
      subst hut
      cases hexp with
      | child ht hv =>
        obtain ⟨part, hpart, hsub⟩ := h.of_child ht hv
        obtain ⟨n, w, -, hw, hcollects⟩ := anonymousScopesAux_eq_ok hpart
        obtain ⟨name, hname⟩ := ih hw hcollects
        exact ⟨name, hsub hname⟩
      | named ht hd hv => exact absurd (.named ht hd hv) (hlast _)
  | inside ht he hx hname =>
    have hut := hhead.eq_self ht.canonical
    subst hut
    obtain ⟨node, hnode, hd⟩ := ht.node
    obtain ⟨⟨own, hown, hsub⟩, -⟩ := h.of_owner hnode hd
    obtain ⟨name, hname⟩ := Option.isSome_iff_exists.mp hname
    exact ⟨name, hsub (mem_anonymousAroundAux hown he hx hname)⟩
  | @argument t i a d e template x args ht he hx hi hargs ha _ ih =>
    have hut := hhead.eq_self ht.canonical
    subst hut he
    obtain ⟨node, hnode, hd⟩ := ht.node
    obtain ⟨part, hpart, hsub⟩ := (h.of_owner hnode hd).2 hx hi
    -- an instantiation is its own head
    obtain ⟨n, w, -, hw, hcollects⟩ := anonymousScopesAux_eq_ok hpart
    have hlast : ∀ v, ¬s.Unwraps i v := by
      intro v hv
      cases hv with
      | const hc | volatile hc | named hc _ _ =>
        rw [hargs] at hc
        cases hc
    have hwi := hw.eq_self hlast
    subst hwi
    have hchild : a ∈ (Ty.instantiation template args).children :=
      List.mem_filterMap.mpr ⟨_, ha, rfl⟩
    obtain ⟨inner, hinner, hsub'⟩ := hcollects.of_child hargs hchild
    obtain ⟨m, z, -, hz, hcollects'⟩ := anonymousScopesAux_eq_ok hinner
    obtain ⟨name, hname⟩ := ih hz hcollects'
    exact ⟨name, hsub (hsub' hname)⟩

end Collected

theorem callableDetails?_of_signatureKey {text : String} {x : Declaration}
    (h : s.signatureKey d = .ok (some text)) (hd : d.get? s.decls = some x) :
    ∃ c, x.callableDetails? = some c := by
  obtain ⟨y, hy, h⟩ := Outcome.bind_eq_ok h
  rw [decl_of_get? hd] at hy
  cases hy
  cases hc : x.callableDetails? with
  | some c => exact ⟨c, rfl⟩
  | none =>
    rw [hc] at h
    cases h

/-- The signature of a callable ends in a tag if one of its parameters leads to an unnamed scope. -/
theorem signatureKey_eq_ok {key : Option String} {x : Declaration} {c : CallableDetails}
    (h : s.signatureKey d = .ok key) (hd : d.get? s.decls = some x)
    (hc : x.callableDetails? = some c) : ∃ text names, key = some (text ++ anonymousTag names) ∧
      text.toList.getLast? ≠ some ']' ∧
      (∀ name ∈ names, ∃ y ∈ s.decls, y.anonymous = some name) ∧
      ∀ p ∈ c.parameters, s.ReachesUnnamed Eq p.type → names ≠ [] := by
  obtain ⟨y, hy, h⟩ := Outcome.bind_eq_ok h
  rw [decl_of_get? hd] at hy
  cases hy
  rw [hc] at h
  obtain ⟨texts, htexts, h⟩ := Outcome.bind_eq_ok h
  obtain ⟨anonymous, hanonymous, h⟩ := Outcome.bind_eq_ok h
  cases h
  refine ⟨_, _, rfl, ?_, ?_, ?_⟩
  · -- the text ends in a parenthesis or in a word
    cases c.flags.has .const <;> cases c.flags.has .volatile <;> cases c.flags.has .noexcept <;>
      simp [Qualifiers.suffix, List.getLast?_cons, List.getLast?_append]
  · intro name hname
    rw [List.mem_eraseDups] at hname
    obtain ⟨part, hpart, hname⟩ := List.mem_flatten.mp hname
    obtain ⟨t, -, ht⟩ := exists_of_mem_right (Outcome.mapM_eq_ok hanonymous) hpart
    exact anonymous_of_mem_scopesAux ht name hname
  · intro p hp hreach hnil
    have hmem : p.type ∈ c.parameters.map (·.type) := List.mem_map_of_mem hp
    obtain ⟨part, hpart, hok⟩ :=
      exists_of_mem_right (List.Forall₂.flip (Outcome.mapM_eq_ok hanonymous)) hmem
    obtain ⟨n, u, -, hu, hcollects⟩ := anonymousScopesAux_eq_ok hok
    obtain ⟨name, hname⟩ := hreach.mem_collects hu hcollects
    have hin : name ∈ anonymous.flatten.eraseDups :=
      List.mem_eraseDups.mpr (List.mem_flatten.mpr ⟨part, hpart, hname⟩)
    rw [hnil] at hin
    cases hin

end Store

section Tags

variable {i j : UnitId} {start : String} {names names' : List String}

theorem eq_of_append_cons_eq {α : Type} {a : α} {xs ys zs ws : List α}
    (h : xs ++ a :: zs = ys ++ a :: ws) (hx : a ∉ xs) (hy : a ∉ ys) : xs = ys := by
  induction xs generalizing ys with
  | nil =>
    cases ys with
    | nil => rfl
    | cons y ys =>
      cases h
      exact absurd List.mem_cons_self hy
  | cons x xs ih =>
    cases ys with
    | nil =>
      cases h
      exact absurd List.mem_cons_self hx
    | cons y ys =>
      rw [List.cons_append, List.cons_append] at h
      obtain ⟨rfl, hrest⟩ := List.cons.inj h
      have htail := ih hrest (fun hm ↦ hx (List.mem_cons_of_mem _ hm))
        fun hm ↦ hy (List.mem_cons_of_mem _ hm)
      rw [htail]

theorem eq_after_append_cons_eq {α : Type} {a : α} {xs ys zs ws : List α}
    (h : xs ++ a :: zs = ys ++ a :: ws) (hz : a ∉ zs) (hw : a ∉ ws) : zs = ws := by
  have hreverse : zs.reverse ++ a :: xs.reverse = ws.reverse ++ a :: ys.reverse := by
    simpa using congrArg List.reverse h
  apply List.reverse_injective
  exact eq_of_append_cons_eq hreverse (by simpa using hz) (by simpa using hw)

/-- The names that a unit makes up, where no id has an opening bracket. -/
def IsMadeUp (start : String) (unit : UnitId) (name : String) : Prop :=
  ∃ id : String, name = start ++ toString unit.val ++ "_" ++ id ∧ '[' ∉ id.toList

theorem not_mem_toString {a : Char} (ha : a.isDigit = false) (n : Nat) : a ∉ (toString n).toList := by
  intro h
  have hdigit : a ∈ Nat.toDigits 10 n := by simpa [Nat.repr_eq_ofList_toDigits] using h
  have htrue := Nat.isDigit_of_mem_toDigits (by decide) (by decide) hdigit
  rw [ha] at htrue
  cases htrue

theorem eq_of_toString_eq {m n : Nat} (h : (toString m).toList = (toString n).toList) : m = n := by
  have hdigits : Nat.toDigits 10 m = Nat.toDigits 10 n := by
    simpa [Nat.repr_eq_ofList_toDigits] using h
  have hvals := congrArg (Nat.ofDigitChars 10 · 0) hdigits
  simpa only [Nat.ofDigitChars_toDigits (by decide : 1 < 10) (by decide)] using hvals

theorem IsMadeUp.not_mem {name : String} (h : IsMadeUp start i name) (hstart : '[' ∉ start.toList) :
    '[' ∉ name.toList := by
  obtain ⟨id, rfl, hid⟩ := h
  have hunit : '[' ∉ (toString i.val).toList := not_mem_toString (by decide) _
  simp only [String.toList_append, List.mem_append]
  rintro (((h | h) | h) | h)
  · exact hstart h
  · exact hunit h
  · simp at h
  · exact hid h

theorem not_mem_intercalate (h : ∀ name ∈ names, '[' ∉ name.toList) :
    '[' ∉ (", ".intercalate names).toList := by
  induction names with
  | nil => simp
  | cons name names ih =>
    have hname := h name List.mem_cons_self
    have hrest := ih fun n hn ↦ h n (List.mem_cons_of_mem name hn)
    cases names with
    | nil => simpa using hname
    | cons next names =>
      rw [String.intercalate_cons_cons, String.toList_append, String.toList_append]
      simp only [List.mem_append]
      rintro ((h | h) | h)
      · exact hname h
      · simp at h
      · exact hrest h

theorem exists_intercalate_cons (name : String) (names : List String) :
    ∃ rest, ", ".intercalate (name :: names) = name ++ rest := by
  cases names with
  | nil => exact ⟨"", by simp⟩
  | cons next names => exact ⟨_, by rw [String.intercalate_cons_cons, String.append_assoc]⟩

theorem toList_anonymousTag (hstart : '[' ∉ start.toList)
    (hnames : ∀ name ∈ names, IsMadeUp start i name) (hne : names ≠ []) :
    ∃ rest, (anonymousTag names).toList =
      ' ' :: '[' :: (start.toList ++ ((toString i.val).toList ++ '_' :: rest)) ∧
        '[' ∉ start.toList ++ ((toString i.val).toList ++ '_' :: rest) ∧
        (anonymousTag names).toList.getLast? = some ']' := by
  cases names with
  | nil => exact absurd rfl hne
  | cons name names =>
    obtain ⟨more, hmore⟩ := exists_intercalate_cons name names
    have hfree := not_mem_intercalate fun n hn ↦ (hnames n hn).not_mem hstart
    obtain ⟨id, hid, -⟩ := hnames name List.mem_cons_self
    have htag : (anonymousTag (name :: names)).toList =
        ' ' :: '[' :: ((", ".intercalate (name :: names)).toList ++ [']']) := by
      simp [anonymousTag]
    have hlist : (", ".intercalate (name :: names)).toList ++ [']'] =
        start.toList ++ ((toString i.val).toList ++ '_' :: (id.toList ++ more.toList ++ [']'])) := by
      rw [hmore, hid]
      simp
    refine ⟨_, htag.trans (by rw [hlist]), ?_, ?_⟩
    · rw [← hlist]
      intro h
      rcases List.mem_append.mp h with h | h
      · exact hfree h
      · simp at h
    · rw [htag]
      simp [List.getLast?_cons, List.getLast?_append]

/-- Two texts with tags of made-up names are equal only if one unit made up the names. -/
theorem eq_of_anonymousTag_eq {text text' : String} (hstart : '[' ∉ start.toList)
    (hnames : ∀ name ∈ names, IsMadeUp start i name)
    (hnames' : ∀ name ∈ names', IsMadeUp start j name) (hne : names ≠ [])
    (htext' : text'.toList.getLast? ≠ some ']')
    (h : text ++ anonymousTag names = text' ++ anonymousTag names') : i = j := by
  have hlist := congrArg String.toList h
  rw [String.toList_append, String.toList_append] at hlist
  obtain ⟨rest, htag, hfree, hlast⟩ := toList_anonymousTag hstart hnames hne
  by_cases hne' : names' = []
  · -- a text without a tag does not end like one with a tag
    exfalso
    apply htext'
    have hempty : (anonymousTag names').toList = [] := by simp [hne', anonymousTag]
    rw [hempty, List.append_nil] at hlist
    rw [← hlist, List.getLast?_append, hlast]
    rfl
  · obtain ⟨rest', htag', hfree', -⟩ := toList_anonymousTag hstart hnames' hne'
    rw [htag, htag'] at hlist
    -- what comes after the last opening bracket is the same
    rw [List.append_cons, List.append_cons text'.toList] at hlist
    have hafter := eq_after_append_cons_eq hlist hfree hfree'
    have hunits := eq_of_append_cons_eq (List.append_cancel_left hafter)
      (not_mem_toString (by decide) _) (not_mem_toString (by decide) _)
    exact congrArg Id.mk (eq_of_toString_eq hunits)

end Tags

end ScopeForest
