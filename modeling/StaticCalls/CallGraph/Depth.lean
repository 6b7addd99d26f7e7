import StaticCalls.CallGraph.Basic
import StaticCalls.Walk

/-! Roots and their depths. A root is a node that no other node calls. Its depth is the length of
the longest chain of calls below it; as a site is followed at most once, a cycle adds one level
past the place where it closes. -/
namespace StaticCalls

structure RankedRoot where
  symbol : String
  depth : Nat
deriving DecidableEq, Repr

namespace CallGraph

/-- Gathers the deepest chain below the calls taken so far. Bodies without calls are not entered. -/
def measurer (g : CallGraph) : Walk Empty Unit Nat where
  enter symbol _ :=
    .ok <| match g.node? symbol with
      | some n => if n.calls.isEmpty then none else some ⟨0, n.calls⟩
      | none => none
  note deepest _ := deepest
  follows _ _ _ := true
  leave s _ := s
  gather deepest below := max deepest (below + 1)
  finite := by
    refine ⟨(g.nodes.values.flatMap Node.calls).map Mention.site, fun symbol _ frame h m hm => ?_⟩
    simp only [Except.ok.injEq] at h
    split at h
    next n hn =>
      split at h
      next => cases h
      next =>
        cases h
        have hin : n ∈ g.nodes.values :=
          List.mem_map.mpr ⟨(symbol, n), StringMap.get?_eq_some_iff.mp hn, rfl⟩
        exact List.mem_map.mpr ⟨m, List.mem_flatMap.mpr ⟨n, hin, hm⟩, rfl⟩
    next => cases h

def depth (g : CallGraph) (symbol : String) : Nat :=
  match (g.measurer.start symbol none [] ()).result with
  | .ok (some deepest) => deepest + 1
  | .ok none => 0

/-- Nodes never called from another node, in symbol order. -/
def roots (g : CallGraph) : List String := g.symbols.filter fun s => !g.isCalled s

/-- Deepest first; roots of one depth by symbol. -/
def rankOrder (a b : RankedRoot) : Ordering :=
  (compare b.depth a.depth).then (compare a.symbol b.symbol)

def rankedRoots (g : CallGraph) : List RankedRoot :=
  (g.roots.map fun s => ⟨s, g.depth s⟩).mergeSort fun a b => (rankOrder a b).isLE

end CallGraph
end StaticCalls
