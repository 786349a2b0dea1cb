import ScopeForest.Proofs.Types.Forms

namespace ScopeForest

open Outcome

namespace Layer

theorem isQualifier_of_mem {layer : Layer} {q : Qualifiers} (h : layer ∈ ofQualifiers q) :
    layer.isQualifier = true := by
  rcases q with ⟨const, volatile⟩
  cases const <;> cases volatile <;> simp [ofQualifiers] at h
  case false.true | true.false => rw [h]; rfl
  case true.true =>
    rcases h with rfl | rfl
    · rfl
    · rfl

theorem ofQualifiers_inj {p q : Qualifiers} : ofQualifiers p = ofQualifiers q ↔ p = q := by
  rcases p with ⟨const, volatile⟩
  rcases q with ⟨const', volatile'⟩
  cases const <;> cases volatile <;> cases const' <;> cases volatile' <;> simp [ofQualifiers]

theorem ofQualifiers_append_inj {p q : Qualifiers} {l m : Layer} {ls ms : List Layer}
    (hl : l.isQualifier = false) (hm : m.isQualifier = false) :
    ofQualifiers p ++ l :: ls = ofQualifiers q ++ m :: ms ↔ p = q ∧ l = m ∧ ls = ms := by
  refine ⟨fun h ↦ ?_, fun ⟨hpq, hlm, hrest⟩ ↦ by rw [hpq, hlm, hrest]⟩
  have hcut {q : Qualifiers} {m : Layer} {ms : List Layer} (hm : m.isQualifier = false) :
      (ofQualifiers q ++ m :: ms).takeWhile (·.isQualifier) = ofQualifiers q := by
    rw [List.takeWhile_append_of_pos fun _ ↦ isQualifier_of_mem,
      List.takeWhile_cons_of_neg (by simp [hm]), List.append_nil]
  have hpq : ofQualifiers p = ofQualifiers q := by
    rw [← hcut hl, h, hcut hm]
  rw [hpq] at h
  obtain ⟨hlm, hrest⟩ := List.cons.inj (List.append_cancel_left h)
  exact ⟨ofQualifiers_inj.mp hpq, hlm, hrest⟩

theorem find?_ofQualifiers (q : Qualifiers) : (ofQualifiers q).find? (!·.isQualifier) = none := by
  rw [List.find?_eq_none]
  intro layer hlayer
  simp [isQualifier_of_mem hlayer]

end Layer

namespace Label

def layer? : Label → Option Layer
  | pointer => some .pointer
  | reference => some .reference
  | array size => some (.array size)
  | _ => none

theorem isQualifier_of_layer? {label : Label} {layer : Layer} (h : label.layer? = some layer) :
    layer.isQualifier = false := by
  cases label <;> cases h <;> rfl

theorem layer?_inj {a b : Label} {l m : Layer} (ha : a.layer? = some l) (hb : b.layer? = some m) :
    a = b ↔ l = m := by
  cases a <;> cases ha <;> cases b <;> cases hb <;> simp

def base? : Label → Option DeclId
  | declared d => some d
  | instantiation template _ => some template
  | _ => none

end Label

namespace Ty

variable {node : Ty} {layer : Layer} {u : TypeId}

theorem layer?_label (node : Ty) : node.label.layer? = node.shape?.map Prod.fst := by
  cases node <;> rfl

theorem children_of_shape? (h : node.shape? = some (layer, u)) : node.children = [u] := by
  cases node <;> cases h <;> rfl

end Ty

namespace Store

variable {s : Store} {a b t u h : TypeId} {q : Qualifiers} {node : Ty} {layer : Layer}
  {d e : Decomposition} {rank : TypeId → Nat}

/-- How a type is taken apart: its qualifiers, then what its canonical head is a layer of. -/
inductive Peels (s : Store) : TypeId → Decomposition → Prop
  | base {t h : TypeId} {q : Qualifiers} {node : Ty} (hhead : s.canonicalHead t = .ok (h, q))
      (hnode : h.get? s.types = some node) (hshape : node.shape? = none) :
      Peels s t ⟨Layer.ofQualifiers q, h⟩
  | layer {t h u : TypeId} {q : Qualifiers} {node : Ty} {layer : Layer} {d : Decomposition}
      (hhead : s.canonicalHead t = .ok (h, q)) (hnode : h.get? s.types = some node)
      (hshape : node.shape? = some (layer, u)) (hd : Peels s u d) :
      Peels s t { d with layers := Layer.ofQualifiers q ++ layer :: d.layers }

theorem peels_of_decomposeCanonicalAux {fuel : Nat} (hd : s.decomposeCanonicalAux fuel t = .ok d) :
    s.Peels t d := by
  induction fuel generalizing t d with
  | zero => cases hd
  | succ fuel ih =>
    obtain ⟨⟨h, q⟩, hhead, hd⟩ := bind_eq_ok hd
    obtain ⟨node, hnode, hd⟩ := bind_eq_ok hd
    cases hshape : node.shape? with
    | none =>
      rw [hshape] at hd
      cases hd
      exact .base hhead (get?_of_ty hnode) hshape
    | some inner =>
      rw [hshape] at hd
      obtain ⟨e, he, hd⟩ := bind_eq_ok hd
      cases hd
      exact .layer hhead (get?_of_ty hnode) hshape (ih he)

theorem Peels.shape?_eq (hd : s.Peels t d) (hhead : s.canonicalHead t = .ok (h, q))
    (hnode : h.get? s.types = some node) : d.shape? = node.shape?.map Prod.fst := by
  cases hd with
  | base hhead' hnode' hshape =>
    rw [hhead] at hhead'
    cases hhead'
    rw [hnode] at hnode'
    cases hnode'
    rw [hshape]
    exact Layer.find?_ofQualifiers q
  | layer hhead' hnode' hshape hd =>
    rw [hhead] at hhead'
    cases hhead'
    rw [hnode] at hnode'
    cases hnode'
    have hlayer := node.layer?_label
    rw [hshape] at hlayer
    simp [Decomposition.shape?, List.find?_append, Layer.find?_ofQualifiers, hshape,
      Label.isQualifier_of_layer? hlayer]

def IsBare (s : Store) (t : TypeId) : Prop :=
  ∃ node, t.get? s.types = some node ∧ node.layer? = none ∧
    ∀ d x, node = .declared d → d.get? s.decls = some x → x.expansion? = none

theorem Peels.exists_head (hd : s.Peels t d) : ∃ node, d.base.get? s.types = some node ∧
    node.shape? = none ∧ ∀ v, ¬s.Unwraps d.base v := by
  induction hd with
  | base hhead hnode hshape => exact ⟨_, hnode, hshape, (hasHead_of_followHead hhead).last⟩
  | layer _ _ _ _ ih => exact ih

theorem Peels.isBare (hd : s.Peels t d) : s.IsBare d.base := by
  obtain ⟨node, hnode, hshape, hlast⟩ := hd.exists_head
  refine ⟨node, hnode, ?_, fun c x hc hx ↦ ?_⟩
  · cases node with
    | const v => exact absurd (.const hnode) (hlast v)
    | volatile v => exact absurd (.volatile hnode) (hlast v)
    | _ => exact hshape
  · subst hc
    cases hexp : x.expansion? with
    | none => rfl
    | some v => exact absurd (.named hnode hx hexp) (hlast v)

theorem baseDeclaration_eq (hd : s.decomposeCanonical t = .ok d)
    (hnode : d.base.get? s.types = some node) : s.baseDeclaration t = .ok node.label.base? := by
  simp only [baseDeclaration, hd, bind, Except.bind, ty_of_get? hnode]
  cases node <;> rfl

section Ranked

variable (hs : s.Linked) (hr : s.Ranking s.Expands rank)

include hs hr

theorem form_of_base (hhead : s.canonicalHead t = .ok (h, q)) (hnode : h.get? s.types = some node) :
    ∃ parts, s.form t = .ok (.node q node.label parts) ∧
      s.form h = .ok (.node {} node.label parts) := by
  obtain ⟨parts, hparts⟩ := returns_mapM fun v hv ↦ form_returns hs hr (hs.child hnode hv)
  have hnone := (hasHead_of_followHead hhead).unwrap hs hnode
  exact ⟨parts, form_of_canonicalHead hs hr hhead hnode hparts,
    form_of_head hs hr hnode hnone hparts⟩

theorem form_of_layer (hhead : s.canonicalHead t = .ok (h, q))
    (hnode : h.get? s.types = some node) (hshape : node.shape? = some (layer, u)) :
    ∃ F, s.form u = .ok F ∧ s.form t = .ok (.node q node.label [F]) := by
  have hchildren := Ty.children_of_shape? hshape
  obtain ⟨F, hF⟩ := form_returns hs hr (hs.child hnode (hchildren ▸ List.mem_singleton_self u))
  refine ⟨F, hF, form_of_canonicalHead hs hr hhead hnode ?_⟩
  rw [hchildren, List.mapM_cons, hF]
  rfl

theorem form_ne_of_shape {v k : TypeId} {p : Qualifiers} {y : Ty}
    (hhead : s.canonicalHead a = .ok (h, p)) (hnode : h.get? s.types = some node)
    (hshape : node.shape? = none) (hhead' : s.canonicalHead b = .ok (k, q))
    (hy : k.get? s.types = some y) (hshape' : y.shape? = some (layer, v)) :
    s.form a ≠ s.form b ∧ ∀ ls, Layer.ofQualifiers p ≠ Layer.ofQualifiers q ++ layer :: ls := by
  have hnone : node.label.layer? = none := by rw [Ty.layer?_label, hshape]; rfl
  have hsome : y.label.layer? = some layer := by rw [Ty.layer?_label, hshape']; rfl
  obtain ⟨parts, ha, -⟩ := form_of_base hs hr hhead hnode
  obtain ⟨F, -, hb⟩ := form_of_layer hs hr hhead' hy hshape'
  refine ⟨fun heq ↦ ?_, fun ls heq ↦ ?_⟩
  · rw [ha, hb, Except.ok.injEq, Form.node.injEq] at heq
    rw [heq.2.1, hsome] at hnone
    cases hnone
  · have hmem : layer ∈ Layer.ofQualifiers p := by simp [heq]
    have hqualifier := Layer.isQualifier_of_mem hmem
    rw [Label.isQualifier_of_layer? hsome] at hqualifier
    cases hqualifier

/-- Layers and base tell what the form is. -/
theorem Peels.form_eq_iff (hd : s.Peels a d) (he : s.Peels b e) :
    s.form a = s.form b ↔ d.layers = e.layers ∧ s.form d.base = s.form e.base := by
  induction hd generalizing b e with
  | @base a h p x hhead hx hshape =>
    cases he with
    | @base _ k q y hhead' hy hshape' =>
      obtain ⟨parts, ha, hbase⟩ := form_of_base hs hr hhead hx
      obtain ⟨parts', hb, hbase'⟩ := form_of_base hs hr hhead' hy
      simp [ha, hb, hbase, hbase', Layer.ofQualifiers_inj]
    | layer hhead' hy hshape' he' =>
      obtain ⟨hforms, hlayers⟩ := form_ne_of_shape hs hr hhead hx hshape hhead' hy hshape'
      exact ⟨fun heq ↦ absurd heq hforms, fun heq ↦ absurd heq.1 (hlayers _)⟩
  | @layer a h u p x l d hhead hx hshape hd ih =>
    cases he with
    | base hhead' hy hshape' =>
      obtain ⟨hforms, hlayers⟩ := form_ne_of_shape hs hr hhead' hy hshape' hhead hx hshape
      exact ⟨fun heq ↦ absurd heq.symm hforms, fun heq ↦ absurd heq.1.symm (hlayers _)⟩
    | @layer _ k v q y m e hhead' hy hshape' he' =>
      have hl : x.label.layer? = some l := by rw [Ty.layer?_label, hshape]; rfl
      have hm : y.label.layer? = some m := by rw [Ty.layer?_label, hshape']; rfl
      obtain ⟨F, hF, ha⟩ := form_of_layer hs hr hhead hx hshape
      obtain ⟨G, hG, hb⟩ := form_of_layer hs hr hhead' hy hshape'
      have hinner := ih he'
      rw [hF, hG, Except.ok.injEq] at hinner
      have hlayers : Layer.ofQualifiers p ++ l :: d.layers = Layer.ofQualifiers q ++ m :: e.layers ↔
          p = q ∧ l = m ∧ d.layers = e.layers :=
        Layer.ofQualifiers_append_inj (Label.isQualifier_of_layer? hl)
          (Label.isQualifier_of_layer? hm)
      simp only [ha, hb, Except.ok.injEq, Form.node.injEq, List.cons.injEq, and_true, hlayers,
        hinner, Label.layer?_inj hl hm, and_assoc]

theorem exists_peels (ht : s.HoldsType t) : ∃ d, s.decomposeCanonical t = .ok d ∧ s.Peels t d := by
  obtain ⟨d, hd⟩ := decomposeCanonical_returns hs hr ht
  exact ⟨d, hd, peels_of_decomposeCanonicalAux hd⟩

theorem structuralEquals_eq_true_iff_layers (ha : s.HoldsType a) (hb : s.HoldsType b)
    (hd : s.Peels a d) (he : s.Peels b e) : s.structuralEquals a b = .ok true ↔
      d.layers = e.layers ∧ s.structuralEquals d.base e.base = .ok true := by
  obtain ⟨x, hx, -⟩ := hd.exists_head
  obtain ⟨y, hy, -⟩ := he.exists_head
  rw [structuralEquals_eq_true_iff hs hr ha hb, structuralEquals_eq_true_iff hs hr ⟨x, hx⟩ ⟨y, hy⟩]
  exact hd.form_eq_iff hs hr he

theorem classify_eq_iff (ht : s.HoldsType t) (hd : s.Peels t d) : ∃ c, s.classify t = .ok c ∧
    (c = .pointer ↔ d.isPointer) ∧ (c = .reference ↔ d.isReference) ∧ (c = .array ↔ d.isArray) := by
  obtain ⟨h, q, hhead, hreach⟩ := canonicalHead_returns hs hr ht
  obtain ⟨node, hnode⟩ := hreach.held
  obtain ⟨c, hc⟩ := (hasHead_of_followHead hhead).exists_class hnode
  refine ⟨c, ?_, ?_⟩
  · simp only [classify, hhead, bind, Except.bind, ty_of_get? hnode, hc]
    rfl
  · rw [Decomposition.isPointer, Decomposition.isReference, Decomposition.isArray,
      hd.shape?_eq hhead hnode]
    cases node <;> cases hc <;> simp [Ty.shape?]

theorem Peels.form_base (hd : s.Peels t d) : ∃ node parts, d.base.get? s.types = some node ∧
    s.form d.base = .ok (.node {} node.label parts) := by
  induction hd with
  | base hhead hnode hshape =>
    obtain ⟨parts, -, hbase⟩ := form_of_base hs hr hhead hnode
    exact ⟨_, parts, hnode, hbase⟩
  | layer _ _ _ _ ih => exact ih

theorem baseDeclaration_congr (ha : s.HoldsType a) (hb : s.HoldsType b)
    (h : s.structuralEquals a b = .ok true) :
    ∃ r, s.baseDeclaration a = .ok r ∧ s.baseDeclaration b = .ok r := by
  obtain ⟨d, hd, hda⟩ := exists_peels hs hr ha
  obtain ⟨e, he, heb⟩ := exists_peels hs hr hb
  obtain ⟨x, parts, hx, hbase⟩ := hda.form_base hs hr
  obtain ⟨y, parts', hy, hbase'⟩ := heb.form_base hs hr
  have hforms := (structuralEquals_eq_true_iff hs hr ha hb).mp h
  have hbases := ((hda.form_eq_iff hs hr heb).mp hforms).2
  rw [hbase, hbase', Except.ok.injEq, Form.node.injEq] at hbases
  refine ⟨x.label.base?, baseDeclaration_eq hd hx, ?_⟩
  rw [hbases.2.1]
  exact baseDeclaration_eq he hy

end Ranked

/-- A type is given by its layers and its base. -/
structure DecomposesForms (s : Store) : Prop where
  equal : ∀ {a b}, s.HoldsType a → s.HoldsType b → ∃ d e, s.decomposeCanonical a = .ok d ∧
    s.decomposeCanonical b = .ok e ∧ (s.structuralEquals a b = .ok true ↔
      d.layers = e.layers ∧ s.structuralEquals d.base e.base = .ok true)
  base : ∀ {t d}, s.decomposeCanonical t = .ok d → s.IsBare d.base
  classify : ∀ {t}, s.HoldsType t → ∃ d c, s.decomposeCanonical t = .ok d ∧ s.classify t = .ok c ∧
    (c = .pointer ↔ d.isPointer) ∧ (c = .reference ↔ d.isReference) ∧ (c = .array ↔ d.isArray)
  /-- Equal types have the same declaration under their layers, if there is one. -/
  declaration : ∀ {a b}, s.HoldsType a → s.HoldsType b → s.structuralEquals a b = .ok true →
    ∃ r, s.baseDeclaration a = .ok r ∧ s.baseDeclaration b = .ok r

/-- Where no type expands to itself, two types are equal if and only if they have the same layers
around equal bases. -/
theorem decomposesForms (hs : s.Linked) (h : s.Acyclic) : s.DecomposesForms := by
  obtain ⟨rank, hr⟩ := exists_rank hs.expands h
  constructor
  case equal =>
    intro a b ha hb
    obtain ⟨d, hd, hda⟩ := exists_peels hs hr ha
    obtain ⟨e, he, heb⟩ := exists_peels hs hr hb
    exact ⟨d, e, hd, he, structuralEquals_eq_true_iff_layers hs hr ha hb hda heb⟩
  case base => exact fun hd ↦ (peels_of_decomposeCanonicalAux hd).isBare
  case classify =>
    intro t ht
    obtain ⟨d, hd, hdt⟩ := exists_peels hs hr ht
    obtain ⟨c, hc, hclass⟩ := classify_eq_iff hs hr ht hdt
    exact ⟨d, c, hd, hc, hclass⟩
  case declaration => exact baseDeclaration_congr hs hr

end Store

namespace Sample

/-- The class `c` is `box<int>`, and `t` is a typedef of `volatile c`: once `const t *`, once
`box<int> volatile const *`, and once `box<int> volatile *`. -/
def wrapped : Store where
  decls :=
    [{ id := ⟨1⟩, kind := .namespaceDecl, name := "::", unit := ⟨1⟩, externalId := "root",
        details := .scope [⟨2⟩, ⟨3⟩, ⟨4⟩] },
      member ⟨2⟩ "box" .classDecl (.cls { key := .classKey }),
      member ⟨3⟩ "c" .classDecl (.cls { key := .classKey, instantiates := some ⟨2⟩ }),
      member ⟨4⟩ "t" .typedef (.typedef ⟨4⟩)]
  types :=
    [.fundamental "int", .instantiation ⟨2⟩ [.type ⟨1⟩], .declared ⟨3⟩, .volatile ⟨3⟩,
      .declared ⟨4⟩, .const ⟨5⟩, .pointer ⟨6⟩, .const ⟨2⟩, .volatile ⟨8⟩, .pointer ⟨9⟩,
      .volatile ⟨2⟩, .pointer ⟨11⟩]

end Sample

open Sample

theorem decomposesForms_sample : wrapped.Linked ∧ wrapped.Acyclic ∧ wrapped.DecomposesForms ∧
    wrapped.decomposeCanonical ⟨7⟩ = .ok ⟨[.pointer, .const, .volatile], ⟨2⟩⟩ ∧
      wrapped.structuralEquals ⟨7⟩ ⟨10⟩ = .ok true ∧ wrapped.structuralEquals ⟨7⟩ ⟨12⟩ ≠ .ok true ∧
        wrapped.baseDeclaration ⟨7⟩ = .ok (some ⟨2⟩) := by
  obtain ⟨hlinked, hacyclic⟩ : wrapped.Linked ∧ wrapped.Acyclic :=
    Store.linked_and_acyclic_of_lt (by decide)
  have hforms := Store.decomposesForms hlinked hacyclic
  have h7 : wrapped.decomposeCanonical ⟨7⟩ = .ok ⟨[.pointer, .const, .volatile], ⟨2⟩⟩ := by cbv
  have h10 : wrapped.decomposeCanonical ⟨10⟩ = .ok ⟨[.pointer, .const, .volatile], ⟨2⟩⟩ := by cbv
  have h12 : wrapped.decomposeCanonical ⟨12⟩ = .ok ⟨[.pointer, .volatile], ⟨2⟩⟩ := by cbv
  refine ⟨hlinked, hacyclic, hforms, h7, ?_, ?_, by cbv⟩
  · obtain ⟨d, e, hd, he, hiff⟩ := hforms.equal (a := ⟨7⟩) (b := ⟨10⟩) ⟨_, rfl⟩ ⟨_, rfl⟩
    rw [h7] at hd
    rw [h10] at he
    cases hd
    cases he
    exact hiff.mpr ⟨rfl, by cbv⟩
  · obtain ⟨d, e, hd, he, hiff⟩ := hforms.equal (a := ⟨7⟩) (b := ⟨12⟩) ⟨_, rfl⟩ ⟨_, rfl⟩
    rw [h7] at hd
    rw [h12] at he
    cases hd
    cases he
    intro heq
    cases (hiff.mp heq).1

end ScopeForest
