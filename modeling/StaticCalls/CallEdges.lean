import StaticCalls.Index.Mention

/-! The calls between tracked definitions. A reference becomes a call when its target has an entry
of its own; references to libraries, or to anything without a body, are dropped. -/
namespace StaticCalls

structure CallEdges where
  /-- By caller, the enclosed references with a tracked target. -/
  calls : SymbolMentions
  /-- All candidate references with a tracked target, inside of bodies or not. -/
  trackedReferences : SymbolMentions
  /-- Enclosed references whose target is not tracked. -/
  dropped : Nat

namespace CallEdges

def total (mentions : SymbolMentions) : Nat := mentions.values.flatten.length

def ofReferences (enclosed references : SymbolMentions) : CallEdges where
  calls := enclosed.map fun l => l.filter fun m => enclosed.contains m.symbol
  trackedReferences := references.filter fun target _ => enclosed.contains target
  dropped := enclosed.values.flatten.countP fun m => !enclosed.contains m.symbol

def edgeCount (e : CallEdges) : Nat := total e.calls

/-- References to tracked definitions from outside of all bodies. -/
def unscopedTrackedReferences (e : CallEdges) : Nat := total e.trackedReferences - e.edgeCount

end CallEdges
end StaticCalls
