import StaticCalls.CallGraph.Basic
import StaticCalls.Source.GraphError
import StaticCalls.Walk

/-! Building a call graph out of a table of calls. A walk from each symbol of the table finishes
the nodes it reaches; it does not descend into nodes that are built, nor into the body it is in. -/
namespace StaticCalls

/-- The calls of each tracked definition, and the registry of definitions. -/
structure CallTable where
  definitions : StringMap Mention
  calls : SymbolMentions

namespace CallTable

/-- A symbol without an entry has no body; one with an entry must be registered. -/
def enter (t : CallTable) (symbol : String) : Except GraphError (Option (Frame Node)) :=
  match t.calls.get? symbol with
  | none => .ok none
  | some calls =>
      match t.definitions.get? symbol with
      | none => .error (.missingDefinition symbol)
      | some definition => .ok (some ⟨⟨definition, []⟩, calls⟩)

/-- A node grows call by call while its body is walked. -/
def builder (t : CallTable) : Walk GraphError CallGraph Node where
  enter symbol _ := t.enter symbol
  note := Node.addCall
  follows g n call := !g.isBuilt call.symbol && call.symbol != n.symbol
  leave := CallGraph.addNode
  gather n _ := n
  finite := by
    refine ⟨t.calls.values.flatten.map Mention.site, fun symbol _ frame h m hm => ?_⟩
    simp only [enter] at h
    split at h
    next => cases h
    next calls hc =>
      split at h
      next => cases h
      next =>
        cases h
        have hin : calls ∈ t.calls.values :=
          List.mem_map.mpr ⟨(symbol, calls), StringMap.get?_eq_some_iff.mp hc, rfl⟩
        exact List.mem_map.mpr ⟨m, List.mem_flatten.mpr ⟨calls, hin, hm⟩, rfl⟩

/-- The graph with the nodes that can be reached from `root`. A failure keeps those built before. -/
def expand (t : CallTable) (g : CallGraph) (root : String) :
    Walk.Outcome GraphError CallGraph (Option Node) :=
  t.builder.start root none [] g

def expandNew (t : CallTable) (g : CallGraph) (root : String) : Except GraphError CallGraph :=
  if g.isBuilt root then .ok g
  else
    let outcome := t.expand g root
    outcome.result.map fun _ => outcome.store

def build (t : CallTable) : Except GraphError CallGraph :=
  t.calls.keys.foldlM t.expandNew .empty

end CallTable
end StaticCalls
