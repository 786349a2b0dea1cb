import ScopeForest.Proofs.References
import ScopeForest.Proofs.Unit.Placing

namespace ScopeForest

section Description

variable (record? : ExternalId → Option Record) (T : ExternalId → TypeId → Prop)
  (C D : ExternalId → DeclId → Prop) (N : TypeId → Ty → Prop)

structure DescribesSignature (r : Record) (sig : Signature) : Prop where
  returnType : ∃ x, r.attrs.ref? Field.returns = some x ∧ T x sig.returnType
  parameters : List.Forall₂ (fun child t ↦ ∃ x, child.attrs.ref? Field.type = some x ∧ T x t)
    (r.childrenOf .argument) sig.parameters
  hasEllipsis : sig.hasEllipsis = !(r.childrenOf .ellipsis).isEmpty
  isConst : sig.isConst = r.attrs.flag Field.const
  isVolatile : sig.isVolatile = r.attrs.flag Field.volatile

/-- A template argument: a type, or else a value as it is written. -/
inductive DescribesArg (child : ChildRecord) : TemplateArg → Prop
  | type {x : ExternalId} {t : TypeId} (hx : child.attrs.ref? Field.type = some x) (ht : T x t) :
      DescribesArg child (.type t)
  | value {text : String} (hx : child.attrs.ref? Field.type = none)
      (hv : child.attrs.literal? Field.value = some text) : DescribesArg child (.value text)

structure DescribesMethod (r : Record) (cls : DeclId) (sig : Signature) : Prop where
  cls : ∃ x, r.attrs.ref? Field.basetype = some x ∧ C x cls
  signature : DescribesSignature T r sig

/-- The node of a type record, where `T x t` says that `x` stands for the type `t`, `C x d` that it
names the class `d`, `D x d` that it names the declaration `d`, and `N t node` that `t` has the node
`node`. -/
inductive Describes (r : Record) : Ty → Prop
  | fundamental {name : String} (h : r.tag = .fundamentalType)
      (hn : r.attrs.literal? Field.name = some name) : Describes r (.fundamental name)
  | pointer {x : ExternalId} {t : TypeId} (h : r.tag = .pointerType)
      (hx : r.attrs.ref? Field.type = some x)
      (hm : ∀ m, record? x = some m → m.tag ≠ .methodType) (ht : T x t) : Describes r (.pointer t)
  | methodPointer {x : ExternalId} {m : Record} {cls : DeclId} {sig : Signature}
      (h : r.tag = .pointerType) (hx : r.attrs.ref? Field.type = some x) (hm : record? x = some m)
      (hk : m.tag = .methodType) (hs : DescribesMethod T C m cls sig) :
      Describes r (.memberFunctionPointer cls sig)
  | reference {x : ExternalId} {t : TypeId} (h : r.tag = .referenceType)
      (hx : r.attrs.ref? Field.type = some x) (ht : T x t) : Describes r (.reference t)
  | array {x : ExternalId} {t : TypeId} (h : r.tag = .arrayType)
      (hx : r.attrs.ref? Field.type = some x) (ht : T x t) :
      Describes r (.array t (ArraySize.ofLiteral (r.attrs.literal? Field.size)))
  | constVolatile {x : ExternalId} {t u : TypeId} (h : r.TwiceQualified)
      (hx : r.attrs.ref? Field.type = some x) (hu : T x u) (ht : N t (.volatile u)) :
      Describes r (.const t)
  | const {x : ExternalId} {t : TypeId} (h : r.tag = .cvQualifiedType)
      (hc : r.attrs.flag Field.const) (hv : r.attrs.flag Field.volatile = false)
      (hx : r.attrs.ref? Field.type = some x) (ht : T x t) : Describes r (.const t)
  | volatile {x : ExternalId} {t : TypeId} (h : r.tag = .cvQualifiedType)
      (hc : r.attrs.flag Field.const = false) (hv : r.attrs.flag Field.volatile)
      (hx : r.attrs.ref? Field.type = some x) (ht : T x t) : Describes r (.volatile t)
  | function {sig : Signature} (h : r.tag = .functionType) (hs : DescribesSignature T r sig) :
      Describes r (.function sig)
  | method {cls : DeclId} {sig : Signature} (h : r.tag = .methodType)
      (hs : DescribesMethod T C r cls sig) : Describes r (.memberFunctionPointer cls sig)
  | offset {x y : ExternalId} {cls : DeclId} {t : TypeId} (h : r.tag = .offsetType)
      (hy : r.attrs.ref? Field.basetype = some y) (hd : C y cls)
      (hx : r.attrs.ref? Field.type = some x) (ht : T x t) : Describes r (.memberPointer cls t)
  | instantiation {y : ExternalId} {template : DeclId} {args : List TemplateArg}
      (h : r.tag = .templateInstantiation) (hy : r.attrs.ref? Field.template = some y)
      (hd : D y template)
      (ha : List.Forall₂ (DescribesArg T) (r.childrenOf .templateArgument) args) :
      Describes r (.instantiation template args)

end Description

section Renaming

variable {record? : ExternalId → Option Record} {T T' : ExternalId → TypeId → Prop}
  {C C' D D' : ExternalId → DeclId → Prop} {N N' : TypeId → Ty → Prop} {f : DeclId → DeclId}
  {g : TypeId → TypeId} {r : Record}

theorem DescribesSignature.rename {sig : Signature} (hT : ∀ {x t}, T x t → T' x (g t))
    (h : DescribesSignature T r sig) : DescribesSignature T' r (sig.map g) where
  returnType := by
    obtain ⟨x, hx, ht⟩ := h.returnType
    exact ⟨x, hx, hT ht⟩
  parameters := by
    refine List.forall₂_map_right_iff.mpr (h.parameters.imp ?_)
    rintro child t ⟨x, hx, ht⟩
    exact ⟨x, hx, hT ht⟩
  hasEllipsis := h.hasEllipsis
  isConst := h.isConst
  isVolatile := h.isVolatile

theorem DescribesMethod.rename {cls : DeclId} {sig : Signature} (hT : ∀ {x t}, T x t → T' x (g t))
    (hC : ∀ {x d}, C x d → C' x (f d)) (h : DescribesMethod T C r cls sig) :
    DescribesMethod T' C' r (f cls) (sig.map g) := by
  obtain ⟨x, hx, hd⟩ := h.cls
  exact ⟨⟨x, hx, hC hd⟩, h.signature.rename hT⟩

theorem DescribesArg.rename {child : ChildRecord} {arg : TemplateArg}
    (hT : ∀ {x t}, T x t → T' x (g t)) (h : DescribesArg T child arg) :
    DescribesArg T' child (arg.map g) := by
  cases h with
  | type hx ht => exact .type hx (hT ht)
  | value hx hv => exact .value hx hv

theorem Describes.rename {node : Ty} (hT : ∀ {x t}, T x t → T' x (g t))
    (hC : ∀ {x d}, C x d → C' x (f d)) (hD : ∀ {x d}, D x d → D' x (f d))
    (hN : ∀ {t node}, N t node → N' (g t) (node.rename f g))
    (h : Describes record? T C D N r node) : Describes record? T' C' D' N' r (node.rename f g) := by
  cases h with
  | fundamental h hn => exact .fundamental h hn
  | pointer h hx hm ht => exact .pointer h hx hm (hT ht)
  | methodPointer h hx hm hk hs => exact .methodPointer h hx hm hk (hs.rename hT hC)
  | reference h hx ht => exact .reference h hx (hT ht)
  | array h hx ht => exact .array h hx (hT ht)
  | constVolatile h hx hu ht => exact .constVolatile h hx (hT hu) (hN ht)
  | const h hc hv hx ht => exact .const h hc hv hx (hT ht)
  | volatile h hc hv hx ht => exact .volatile h hc hv hx (hT ht)
  | function h hs => exact .function h (hs.rename hT)
  | method h hs => exact .method h (hs.rename hT hC)
  | offset h hy hd hx ht => exact .offset h hy (hC hd) hx (hT ht)
  | instantiation h hy hd ha =>
    exact .instantiation h hy (hD hd)
      (List.forall₂_map_right_iff.mpr (ha.imp fun _ _ h ↦ h.rename hT))

end Renaming

section Holding

variable {record? : ExternalId → Option Record} {T : ExternalId → TypeId → Prop}
  {C D : ExternalId → DeclId → Prop} {N : TypeId → Ty → Prop} {r : Record} {H : Holding}

theorem DescribesSignature.children {sig : Signature} (hT : ∀ {x t}, T x t → H.type t)
    (h : DescribesSignature T r sig) : ∀ t ∈ sig.children, H.type t := by
  intro t ht
  rcases List.mem_cons.mp ht with rfl | ht
  · obtain ⟨x, -, hx⟩ := h.returnType
    exact hT hx
  · obtain ⟨child, -, x, -, hx⟩ := exists_of_mem_right h.parameters ht
    exact hT hx

theorem Describes.refers {node : Ty} (hT : ∀ {x t}, T x t → H.type t)
    (hC : ∀ {x d}, C x d → ∃ kind, H.decl d kind ∧ kind.IsClass)
    (hD : ∀ {x d}, D x d → ∃ kind, H.decl d kind) (hN : ∀ {t node}, N t node → H.type t)
    (h : Describes record? T C D N r node) : node.Refers H := by
  have hone {t u : TypeId} (h : H.type t) (hu : u ∈ [t]) : H.type u := by
    rwa [List.mem_singleton.mp hu]
  cases h with
  | fundamental h hn => exact ⟨nofun, nofun⟩
  | pointer h hx hm ht => exact ⟨fun u ↦ hone (hT ht), nofun⟩
  | reference h hx ht => exact ⟨fun u ↦ hone (hT ht), nofun⟩
  | array h hx ht => exact ⟨fun u ↦ hone (hT ht), nofun⟩
  | constVolatile h hx hu ht => exact ⟨fun u ↦ hone (hN ht), nofun⟩
  | const h hc hv hx ht => exact ⟨fun u ↦ hone (hT ht), nofun⟩
  | volatile h hc hv hx ht => exact ⟨fun u ↦ hone (hT ht), nofun⟩
  | function h hs => exact ⟨hs.children hT, nofun⟩
  | methodPointer h hx hm hk hs =>
    obtain ⟨y, -, hy⟩ := hs.cls
    exact ⟨hs.signature.children hT, fun d hd ↦ Option.some_inj.mp hd ▸ hC hy⟩
  | method h hs =>
    obtain ⟨y, -, hy⟩ := hs.cls
    exact ⟨hs.signature.children hT, fun d hd ↦ Option.some_inj.mp hd ▸ hC hy⟩
  | offset h hy hd hx ht =>
    exact ⟨fun u ↦ hone (hT ht), fun d he ↦ Option.some_inj.mp he ▸ hC hd⟩
  | instantiation h hy hd ha =>
    refine ⟨fun t ht ↦ ?_, fun d he ↦ ?_⟩
    · obtain ⟨arg, harg, ht⟩ := List.mem_filterMap.mp ht
      obtain ⟨child, -, hchild⟩ := exists_of_mem_right ha harg
      cases hchild with
      | type hx hT' =>
        cases ht
        exact hT hT'
      | value hx hv => cases ht
    · obtain ⟨kind, hk⟩ := hD hd
      exact Option.some_inj.mp he ▸ ⟨kind, hk, trivial⟩

end Holding

end ScopeForest
