import ScopeForest.Proofs.Unit.Owning
import ScopeForest.Store.Basic

namespace ScopeForest

section Names

variable (registry : Registry) (s : Store)

def Registry.NamesDecl (x : ExternalId) (d : DeclId) : Prop := registry.get? x = some (.decl d)

/-- The type that an id stands for; a type declaration stands for a type that names it. -/
def Registry.NamesType (x : ExternalId) (t : TypeId) : Prop :=
  registry.get? x = some (.type t) ∨
    ∃ d, registry.get? x = some (.decl d) ∧ t.get? s.types = some (.declared d)

def Registry.NamesClass (x : ExternalId) (d : DeclId) : Prop :=
  registry.get? x = some (.decl d) ∧ ∃ y, d.get? s.decls = some y ∧ y.kind.IsClass

end Names

/-- A node is what a type record of a unit describes, with the bindings of the unit. -/
def Registry.DescribesNode (registry : Registry) (s : Store) (records : List Record) (r : Record)
    (node : Ty) : Prop :=
  Describes (fun x ↦ records.find? (·.id == x)) (registry.NamesType s) (registry.NamesClass s)
    registry.NamesDecl (fun t node ↦ t.get? s.types = some node) r node

/-- The records of a unit, seen through its registry. -/
structure Faithful (records : List Record) (registry : Registry) (s : Store) : Prop where
  /-- The root of the unit has no parent. -/
  root : ∀ {r : Record}, rootRecord? records = some r →
    ∃ d x, registry.NamesDecl r.id d ∧ d.get? s.decls = some x ∧ x.kind = .namespaceDecl ∧
      x.parent = none
  decl : ∀ {r : Record} {kind : DeclKind}, r ∈ records → r.tag.declKind? = some kind →
    ∃ d x, registry.NamesDecl r.id d ∧ d.get? s.decls = some x ∧ x.kind = kind ∧
      (rootRecord? records ≠ some r →
        ∃ scope p, OwnedBy records r scope ∧ registry.NamesDecl scope p ∧ x.parent = some p)
  enumerator : ∀ {r : Record} {i : Nat} {child : ChildRecord}, r ∈ records →
    r.tag = .enumeration → (r.childrenOf .enumerator)[i]? = some child →
    ∃ d x p, registry.NamesDecl (enumeratorId r.id i) d ∧ d.get? s.decls = some x ∧
      x.kind = .enumerator ∧ registry.NamesDecl r.id p ∧ x.parent = some p
  type : ∀ {r : Record}, r ∈ records → r.tag.isType →
    ∃ t node, registry.get? r.id = some (.type t) ∧ t.get? s.types = some node ∧
      registry.DescribesNode s records r node

namespace Faithful

variable {records : List Record} {registry registry' : Registry} {s s' : Store}

/-- A view stays faithful when the nodes behind it are renamed, as long as kinds and parents go
along. -/
theorem rename (r : Renaming) (h : Faithful records registry s)
    (hbound : ∀ x, registry'.get? x = (registry.get? x).map r.node)
    (hdecl : ∀ {d x}, d.get? s.decls = some x → ∃ y, (r.decl d).get? s'.decls = some y ∧
      y.kind = x.kind ∧ y.parent = x.parent.map r.decl)
    (htype : ∀ {t node}, t.get? s.types = some node →
      (r.type t).get? s'.types = some (r.ty node)) :
    Faithful records registry' s' := by
  have hnames {x : ExternalId} {d : DeclId} (hx : registry.NamesDecl x d) :
      registry'.NamesDecl x (r.decl d) := by
    rw [Registry.NamesDecl, hbound, hx]
    rfl
  refine ⟨?_, ?_, ?_, ?_⟩
  · intro q hq
    obtain ⟨d, x, hd, hx, hk, hp⟩ := h.root hq
    obtain ⟨y, hy, hyk, hyp⟩ := hdecl hx
    exact ⟨_, y, hnames hd, hy, hyk.trans hk, by rw [hyp, hp]; rfl⟩
  · intro q kind hq hkind
    obtain ⟨d, x, hd, hx, hk, hp⟩ := h.decl hq hkind
    obtain ⟨y, hy, hyk, hyp⟩ := hdecl hx
    refine ⟨_, y, hnames hd, hy, hyk.trans hk, fun hne ↦ ?_⟩
    obtain ⟨scope, p, ho, hscope, hp⟩ := hp hne
    exact ⟨scope, _, ho, hnames hscope, by rw [hyp, hp]; rfl⟩
  · intro q i child hq ht hc
    obtain ⟨d, x, p, hd, hx, hk, hp, hparent⟩ := h.enumerator hq ht hc
    obtain ⟨y, hy, hyk, hyp⟩ := hdecl hx
    exact ⟨_, y, _, hnames hd, hy, hyk.trans hk, hnames hp, by rw [hyp, hparent]; rfl⟩
  · intro q hq ht
    obtain ⟨t, node, hget, hnode, hdesc⟩ := h.type hq ht
    refine ⟨_, _, by rw [hbound, hget]; rfl, htype hnode, ?_⟩
    refine Describes.rename ?_ ?_ hnames htype hdesc
    · rintro x t (hx | ⟨d, hx, hd⟩)
      · exact .inl (by rw [hbound, hx]; rfl)
      · exact .inr ⟨r.decl d, hnames hx, htype hd⟩
    · rintro x d ⟨hx, y, hy, hk⟩
      obtain ⟨z, hz, hzk, -⟩ := hdecl hy
      exact ⟨hnames hx, z, hz, hzk ▸ hk⟩

end Faithful

end ScopeForest
