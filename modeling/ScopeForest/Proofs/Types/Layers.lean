import ScopeForest.Proofs.Types.Cycles
import ScopeForest.Proofs.Types.Equality
import ScopeForest.Proofs.Types.Unnamed
import ScopeForest.Store.Layers

namespace ScopeForest.Store

open Outcome

variable {s : Store} {rank : TypeId → Nat} {t u : TypeId} {node : Ty}

theorem mem_children_of_shape? {layer : Layer} (h : node.shape? = some (layer, u)) :
    u ∈ node.children := by
  cases node with
  | pointer | reference | array =>
    cases h
    exact List.mem_singleton_self u
  | _ => cases h

theorem mem_children_of_layer? {layer : Layer} (h : node.layer? = some (layer, u)) :
    u ∈ node.children := by
  cases node with
  | const | volatile =>
    cases h
    exact List.mem_singleton_self u
  | _ => exact mem_children_of_shape? h

theorem HasHead.exists_class (h : s.HasHead t u) (hu : u.get? s.types = some node) :
    ∃ c, node.class? = some c := by
  cases node with
  | const v => exact absurd (.const hu) (h.last v)
  | volatile v => exact absurd (.volatile hu) (h.last v)
  | _ => exact ⟨_, rfl⟩

section Ranked

variable (hs : s.Linked) (hr : s.Ranking s.Expands rank)

include hs hr

theorem decomposeAux_returns {fuel : Nat} (ht : s.HoldsType t) (hfuel : rank t < fuel) :
    Returns (s.decomposeAux fuel t) := by
  induction fuel generalizing t with
  | zero => omega
  | succ fuel ih =>
    obtain ⟨node, hnode⟩ := ht
    refine returns_bind (ty_of_get? hnode) ?_
    split
    next => exact ⟨_, rfl⟩
    next layer inner hlayer =>
      have hinner := mem_children_of_layer? hlayer
      have hlt := hr.lt (.child hnode hinner)
      exact (ih (hs.child hnode hinner) (by omega)).bind fun _ ↦ ⟨_, rfl⟩

theorem decompose_returns (ht : s.HoldsType t) : Returns (s.decompose t) :=
  decomposeAux_returns hs hr ht (Nat.lt_succ_of_le (hr.bound t))

theorem decomposeCanonicalAux_returns {fuel : Nat} (ht : s.HoldsType t) (hfuel : rank t < fuel) :
    Returns (s.decomposeCanonicalAux fuel t) := by
  induction fuel generalizing t with
  | zero => omega
  | succ fuel ih =>
    obtain ⟨head, q, hhead, hreach⟩ := canonicalHead_returns hs hr ht
    obtain ⟨node, hnode⟩ := hreach.held
    refine returns_bind hhead (returns_bind (ty_of_get? hnode) ?_)
    split
    next => exact ⟨_, rfl⟩
    next layer inner hshape =>
      have hinner := mem_children_of_shape? hshape
      have hle := hr.le hreach
      have hlt := hr.lt (.child hnode hinner)
      exact (ih (hs.child hnode hinner) (by omega)).bind fun _ ↦ ⟨_, rfl⟩

theorem decomposeCanonical_returns (ht : s.HoldsType t) : Returns (s.decomposeCanonical t) :=
  decomposeCanonicalAux_returns hs hr ht (Nat.lt_succ_of_le (hr.bound t))

theorem classify_returns (ht : s.HoldsType t) : Returns (s.classify t) := by
  obtain ⟨head, q, hhead, hreach⟩ := canonicalHead_returns hs hr ht
  obtain ⟨node, hnode⟩ := hreach.held
  obtain ⟨c, hc⟩ := (hasHead_of_followHead hhead).exists_class hnode
  refine returns_bind hhead (returns_bind (ty_of_get? hnode) ?_)
  rw [hc]
  exact ⟨c, rfl⟩

end Ranked

/-- No type expands to itself, and what looks through typedefs gives an answer for every type. -/
structure Unfolds (s : Store) : Prop where
  acyclic : s.Acyclic
  canonicalHead : ∀ {t}, s.HoldsType t → Returns (s.canonicalHead t)
  structuralEquals : ∀ {t u}, s.HoldsType t → s.HoldsType u → Returns (s.structuralEquals t u)
  decomposeCanonical : ∀ {t}, s.HoldsType t → Returns (s.decomposeCanonical t)
  classify : ∀ {t}, s.HoldsType t → Returns (s.classify t)
  stripAliases : ∀ {t}, s.HoldsType t → Returns (s.stripAliases t)

theorem Acyclic.unfolds (h : s.Acyclic) (hs : s.Closed) : s.Unfolds := by
  obtain ⟨rank, hr⟩ := exists_rank hs.expands h
  constructor
  case acyclic => exact h
  case canonicalHead =>
    intro t ht
    obtain ⟨u, q, hu, -⟩ := canonicalHead_returns hs.linked hr ht
    exact ⟨_, hu⟩
  case structuralEquals => exact fun ht hu ↦ structuralEquals_returns hs.linked hr ht hu
  case decomposeCanonical => exact fun ht ↦ decomposeCanonical_returns hs.linked hr ht
  case classify => exact fun ht ↦ classify_returns hs.linked hr ht
  case stripAliases =>
    intro t ht
    obtain ⟨u, hu, -⟩ := stripAliases_returns hs.linked hr ht
    exact ⟨u, hu⟩

end ScopeForest.Store
