import ScopeForest.Proofs.Preorder
import ScopeForest.Proofs.References

namespace ScopeForest.Store

open Relation

variable {s : Store} {t u : TypeId}

/-- The type `u` is a sub-type of `t`, or `t` names a declaration that stands for `u`. -/
inductive Expands (s : Store) (t u : TypeId) : Prop
  | child {node : Ty} (ht : t.get? s.types = some node) (hu : u ∈ node.children)
  | named {d : DeclId} {x : Declaration} (ht : t.get? s.types = some (.declared d))
      (hd : d.get? s.decls = some x) (hu : x.expansion? = some u)

/-- The text of `t` may contain that of `u`. -/
inductive Involves (s : Store) (t u : TypeId) : Prop
  | expands (h : s.Expands t u)
  /-- The class `e` around a declaration that `t` names specializes the instantiation `u`. -/
  | around {node : Ty} {d e : DeclId} {x : Declaration} (ht : t.get? s.types = some node)
      (hd : node.owner? = some d) (he : s.Below e d) (hx : e.get? s.decls = some x)
      (hu : x.instantiates? = some u)

/-- No type is part of its own text. -/
def Spellable (s : Store) : Prop := ∀ t, ¬TransGen s.Involves t t

def HoldsType (s : Store) (t : TypeId) : Prop := ∃ node, t.get? s.types = some node

def HoldsDecl (s : Store) (d : DeclId) : Prop := ∃ x, d.get? s.decls = some x

/-- What types and declarations mention is held, and scopes nest no deeper than there are
declarations. -/
structure Closed (s : Store) : Prop where
  child : ∀ {t u : TypeId} {node : Ty}, t.get? s.types = some node → u ∈ node.children →
    s.HoldsType u
  owner : ∀ {t : TypeId} {node : Ty} {d : DeclId}, t.get? s.types = some node →
    node.owner? = some d → s.HoldsDecl d
  type : ∀ {d : DeclId} {x : Declaration} {t : TypeId}, d.get? s.decls = some x →
    t ∈ x.details.types → s.HoldsType t
  base : ∀ {d : DeclId} {x : Declaration} {b : BaseSpec}, d.get? s.decls = some x → b ∈ x.bases →
    s.HoldsDecl b.cls
  parent : ∀ {d p : DeclId} {x : Declaration}, d.get? s.decls = some x → x.parent = some p →
    s.HoldsDecl p
  nested : ∃ rank : DeclId → Nat, s.Ranks rank ∧
    ∀ {d : DeclId} {x : Declaration}, d.get? s.decls = some x → rank d ≤ s.decls.length

/-- It is enough that ids are in range and that scopes come before what they hold. -/
theorem closed_of_lt
    (htypes : ∀ node ∈ s.types, (∀ u ∈ node.children, (u.get? s.types).isSome) ∧
      ∀ d ∈ node.owner?, (d.get? s.decls).isSome)
    (hdecls : ∀ d : DeclId, d ∈ Id.all s.decls → ∀ x ∈ d.get? s.decls,
      (∀ t ∈ x.details.types, (t.get? s.types).isSome) ∧
        (∀ b ∈ x.bases, (b.cls.get? s.decls).isSome) ∧
          ∀ p ∈ x.parent, (p.get? s.decls).isSome ∧ p.val < d.val) : s.Closed where
  child ht hu := Option.isSome_iff_exists.mp ((htypes _ (Id.mem_of_get? ht)).1 _ hu)
  owner ht hd := Option.isSome_iff_exists.mp ((htypes _ (Id.mem_of_get? ht)).2 _ hd)
  type hd ht := Option.isSome_iff_exists.mp ((hdecls _ (Id.mem_all_of_get? hd) _ hd).1 _ ht)
  base hd hb := Option.isSome_iff_exists.mp ((hdecls _ (Id.mem_all_of_get? hd) _ hd).2.1 _ hb)
  parent hd hp :=
    Option.isSome_iff_exists.mp ((hdecls _ (Id.mem_all_of_get? hd) _ hd).2.2 _ hp).1
  nested := by
    refine ⟨Id.val, fun hd hp ↦ ?_, fun hd ↦ (Id.val_pos_of_get? hd).2⟩
    exact ((hdecls _ (Id.mem_all_of_get? hd) _ hd).2.2 _ hp).2

theorem mem_types_of_instantiates? {x : Declaration} (h : x.instantiates? = some t) :
    t ∈ x.details.types := by
  rcases x with ⟨_, _, _, _, _, _, _, _, _, details⟩
  cases details with
  | cls c =>
    have hc : c.instantiates = some t := h
    simp [Details.types, hc]
  | _ => cases h

theorem mem_types_of_expansion? {x : Declaration} (h : x.expansion? = some t) :
    t ∈ x.details.types := by
  rcases x with ⟨_, _, _, _, _, _, _, _, _, details⟩
  cases details with
  | typedef u =>
    cases h
    exact List.mem_singleton_self t
  | cls c => exact mem_types_of_instantiates? h
  | _ => cases h

theorem types_of_callableDetails? {x : Declaration} {c : CallableDetails}
    (h : x.callableDetails? = some c) :
    x.details.types = c.returnType.toList ++ c.parameters.map (·.type) := by
  rcases x with ⟨_, _, _, _, _, _, _, _, _, details⟩
  cases details with
  | callable c' =>
    cases h
    rfl
  | _ => cases h

/-- What types lead to is held. -/
structure Linked (s : Store) : Prop where
  expands : ∀ {t u : TypeId}, s.Expands t u → s.HoldsType u
  named : ∀ {t : TypeId} {d : DeclId}, t.get? s.types = some (.declared d) → s.HoldsDecl d

theorem Linked.child (hs : s.Linked) {node : Ty} (ht : t.get? s.types = some node)
    (hu : u ∈ node.children) : s.HoldsType u :=
  hs.expands (.child ht hu)

theorem Closed.expands (hs : s.Closed) (h : s.Expands t u) : s.HoldsType u := by
  cases h with
  | child ht hu => exact hs.child ht hu
  | named ht hd hu => exact hs.type hd (mem_types_of_expansion? hu)

theorem Closed.linked (hs : s.Closed) : s.Linked where
  expands := hs.expands
  named ht := hs.owner ht rfl

theorem Closed.involves (hs : s.Closed) (h : s.Involves t u) : s.HoldsType u := by
  cases h with
  | expands h => exact hs.expands h
  | around ht hd he hx hu => exact hs.type hx (mem_types_of_instantiates? hu)

/-- Types rank above what they lead to, and no higher than there are types. -/
structure Ranking (s : Store) (leads : TypeId → TypeId → Prop) (rank : TypeId → Nat) : Prop where
  bound : ∀ t, rank t ≤ s.types.length
  lt : ∀ {t u : TypeId}, leads t u → rank u < rank t

theorem Ranking.expands {rank : TypeId → Nat} (h : s.Ranking s.Involves rank) :
    s.Ranking s.Expands rank :=
  ⟨h.bound, fun htu ↦ h.lt (.expands htu)⟩

/-- How many of the listed things something leads to; it falls from step to step away from what leads
back to itself. -/
theorem exists_depth {α : Type} (leads : α → α → Prop) (all : List α) :
    ∃ depth : α → Nat, (∀ a, depth a ≤ all.length) ∧ ∀ {a b}, TransGen leads a b → b ∈ all →
      ¬TransGen leads b b → depth b < depth a := by
  classical
  let below (a : α) : List α := all.filter fun b ↦ TransGen leads a b
  refine ⟨fun a ↦ (below a).length, fun a ↦ List.length_filter_le _ _, fun {a b} hab hb hnot ↦ ?_⟩
  -- what `b` leads to, `a` leads to as well, and to `b` besides
  have hsub : below b = (below a).filter fun c ↦ TransGen leads b c := by
    simp only [below, List.filter_filter]
    refine List.filter_congr fun c _ ↦ ?_
    have hc : TransGen leads b c → TransGen leads a c := hab.trans
    simpa using hc
  simp only [hsub]
  refine List.length_filter_lt_length_iff_exists.mpr ⟨b, ?_, by simpa using hnot⟩
  exact List.mem_filter.mpr ⟨hb, by simpa using hab⟩

theorem exists_rank {leads : TypeId → TypeId → Prop}
    (hheld : ∀ {t u}, leads t u → s.HoldsType u)
    (hacyclic : ∀ t, ¬TransGen leads t t) : ∃ rank, s.Ranking leads rank := by
  obtain ⟨depth, hbound, hlt⟩ := exists_depth leads (Id.all s.types)
  refine ⟨depth, fun t ↦ by simpa using hbound t, fun {t u} htu ↦ ?_⟩
  obtain ⟨node, hu⟩ := hheld htu
  exact hlt (.single htu) (Id.mem_all_of_get? hu) (hacyclic u)

theorem lt_of_transGen {leads : TypeId → TypeId → Prop} {rank : TypeId → Nat}
    (h : TransGen leads t u) (hlt : ∀ {t u}, leads t u → rank u < rank t) : rank u < rank t := by
  induction h with
  | single h => exact hlt h
  | tail _ h ih => exact Nat.lt_trans (hlt h) ih

theorem not_transGen_of_acc {α : Type} {r : α → α → Prop} {a : α} (h : Acc (fun b a ↦ r a b) a) :
    ¬TransGen r a a := by
  induction h with
  | intro a _ ih =>
    intro hcircle
    obtain ⟨b, hab, hba⟩ := TransGen.head'_iff.mp hcircle
    exact ih b hab (TransGen.tail' hba hab)

/-- Without typedefs and specialized classes it is enough that types come after their sub-types. -/
theorem spellable_of_ordered (hdecls : ∀ x ∈ s.decls, x.expansion? = none)
    (htypes : ∀ {t : TypeId} {node : Ty}, t.get? s.types = some node →
      ∀ u ∈ node.children, u.val < t.val) : s.Spellable := by
  have hlt {t u : TypeId} (h : s.Involves t u) : u.val < t.val := by
    cases h with
    | expands h =>
      cases h with
      | child ht hu => exact htypes ht u hu
      | named ht hd hu =>
        rw [hdecls _ (Id.mem_of_get? hd)] at hu
        cases hu
    | around ht hd he hx hu =>
      have hnone := hdecls _ (Id.mem_of_get? hx)
      simp [Declaration.expansion?, hu] at hnone
  exact fun t ht ↦ Nat.lt_irrefl _ (lt_of_transGen ht hlt)

theorem Closed.exists_ranking (hs : s.Closed) (h : s.Spellable) : ∃ rank, s.Ranking s.Involves rank :=
  exists_rank hs.involves h

end ScopeForest.Store
