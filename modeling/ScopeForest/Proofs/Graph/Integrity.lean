import ScopeForest.Proofs.Forest.Integrity
import ScopeForest.Proofs.Graph.Indexes

namespace ScopeForest

/-- Every id that a graph stores, its indexes included, names something of the right kind. -/
structure Graph.Integral (g : Graph) : Prop where
  forest : g.forest.Integral
  root : g.forest.holding.decl g.root .namespaceDecl
  order : ∀ d ∈ g.order, ∃ kind, g.forest.holding.decl d kind
  named : ∀ name, ∀ d ∈ g.named name, ∃ kind, g.forest.holding.decl d kind

theorem Graph.Indexed.integral {g : Graph} (h : g.Indexed) (hf : g.forest.Integral) :
    g.Integral := by
  have hheld {d : DeclId} (hd : d ∈ g.order) : ∃ kind, g.forest.holding.decl d kind := by
    obtain ⟨x, hx⟩ := h.mem_order.mp hd
    exact ⟨x.kind, x, hx, rfl⟩
  refine ⟨hf, ?_, fun d hd ↦ hheld hd, fun name d hd ↦ ?_⟩
  · obtain ⟨x, hx, -, hk⟩ := h.tree.root_held rfl
    exact ⟨x, hx, hk⟩
  · rw [h.named] at hd
    exact hheld (List.mem_filter.mp hd).1

/-- No forest or graph that a run leads to stores an id that names nothing or the wrong thing. -/
theorem Run.integrity {units : List (List Record)} {lone : Bool} {f : Forest}
    (h : Run units lone f) : f.Integral ∧ f.freeze.Integral := by
  obtain ⟨hsound, -, -⟩ := h.sound.freeze
  exact ⟨h.sound.integral h.refers,
    h.sound.indexed.integral (hsound.integral (h.refers.freeze h.sound))⟩

theorem integral_sample : ∃ f, Run [Sample.header, Sample.source] false f ∧
    f.store.types.length = 8 ∧ f.Integral ∧ f.freeze.Integral := by
  have h : (·.store.types.length) <$> Forest.ofUnits {} [Sample.header, Sample.source] =
      .ok 8 := by
    cbv
  obtain ⟨f, hf, hlength⟩ := Outcome.map_eq_ok h
  exact ⟨f, Run.ofUnits hf, hlength, Run.integrity (Run.ofUnits hf)⟩

end ScopeForest
