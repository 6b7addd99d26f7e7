import StaticCalls.Proofs.CallGraph.Calls
import StaticCalls.Proofs.Walk.Effort

/-! The work of building a graph, of measuring depths and of planting trees, bounded by the calls of
the table or of the graph, whatever cycles there are among them (`traversals_bounded`). -/
namespace StaticCalls

theorem CallTable.drawsOn_builder (t : CallTable) : t.builder.DrawsOn t.calls.values := by
  intro symbol caller frame henter
  obtain ⟨n, hn, rfl⟩ := enter_eq_some henter
  exact StringMap.mem_values_of_get? (node?_eq_some_iff.mp hn).1

namespace CallGraph
variable {g : CallGraph} {symbol : String}

/-- The calls of each node. -/
def bodies (g : CallGraph) : List (List Mention) := g.nodes.values.map Node.calls

theorem calls_mem_bodies {n : Node} (h : g.node? symbol = some n) : n.calls ∈ g.bodies :=
  List.mem_map_of_mem (StringMap.mem_values_of_get? h)

theorem callsOf_mem_bodies (h : g.callsOf symbol ≠ []) : g.callsOf symbol ∈ g.bodies := by
  cases hn : g.node? symbol with
  | none => simp [callsOf, hn] at h
  | some n =>
    rw [callsOf_of_node? hn]
    exact calls_mem_bodies hn

theorem drawsOn_measurer (g : CallGraph) : g.measurer.DrawsOn g.bodies := by
  intro symbol caller frame henter
  rw [measurer_enter] at henter
  split at henter
  next => cases henter
  next hcalls =>
    cases henter
    exact callsOf_mem_bodies hcalls

theorem drawsOn_planter (g : CallGraph) : g.planter.DrawsOn g.bodies := by
  intro symbol caller frame henter
  obtain ⟨n, hn, rfl⟩ := planter_enter henter
  exact calls_mem_bodies hn

end CallGraph

/-- Expanding a symbol, whatever has been built before, measuring its depth, and planting its tree,
whatever has been shown before, come to their end within the same bounds. -/
theorem traversals_bounded (t : CallTable) (g : CallGraph) :
    (∀ built root, ∃ states, t.builder.Traces root none [] built states (t.expand built root) ∧
      Walk.Bounded t.calls.values states) ∧
    (∀ symbol, ∃ states out, g.measurer.Traces symbol none [] () states out ∧
      out.result.map (Option.elim · 0 (· + 1)) = .ok (g.depth symbol) ∧
      Walk.Bounded g.bodies states) ∧
    (∀ symbol caller visited, ∃ states,
      g.planter.Traces symbol caller visited () states (g.tree symbol caller visited) ∧
        Walk.Bounded g.bodies states) := by
  refine ⟨fun built root => ?_, fun symbol => ?_, fun symbol caller visited => ?_⟩
  · exact Walk.exists_traces_bounded t.drawsOn_builder root none [] built
  · obtain ⟨states, htraces, hbounded⟩ :=
      Walk.exists_traces_bounded g.drawsOn_measurer symbol none [] ()
    refine ⟨states, _, htraces, ?_, hbounded⟩
    unfold CallGraph.depth
    split <;> simp [*, Except.map]
  · exact Walk.exists_traces_bounded g.drawsOn_planter symbol caller visited ()

end StaticCalls
