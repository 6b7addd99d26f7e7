import StaticCalls.CallGraph.Depth
import StaticCalls.Source.GraphError

/-! The call forest: each root of the graph with one child per call site, down to the leaves.
Within the tree of one root a call site appears once; different sites of one callee are each
expanded. -/
namespace StaticCalls

structure DefinitionLocation where
  document : String
  range : SourceRange
  enclosingRange : Option SourceRange
deriving DecidableEq, Repr

structure ReferenceLocation where
  document : String
  range : SourceRange
deriving DecidableEq, Repr

structure CallTree where
  symbol : String
  definition : DefinitionLocation
  /-- The call that leads here; a root has none. -/
  reference : Option ReferenceLocation
  /-- The longest chain of calls below; only a root tells it. -/
  depth : Option Nat
  children : List CallTree

namespace CallTree

def leaf (n : Node) (caller : Option Mention) : CallTree where
  symbol := n.symbol
  definition := ⟨n.definition.path, n.definition.range, n.definition.body?⟩
  reference := caller.map fun c => ⟨c.path, c.range⟩
  depth := none
  children := []

def addChild (t child : CallTree) : CallTree := { t with children := t.children ++ [child] }

/-- The number of records, the top one included. -/
def size : CallTree → Nat
  | ⟨_, _, _, _, children⟩ => sizes children + 1
where
  sizes : List CallTree → Nat
    | [] => 0
    | t :: rest => t.size + sizes rest

end CallTree

structure CallForest where
  roots : List CallTree

namespace CallGraph

def planter (g : CallGraph) : Walk GraphError Unit CallTree where
  enter symbol caller :=
    match g.node? symbol with
    | some n => .ok (some ⟨.leaf n caller, n.calls⟩)
    | none => .error (.missingNode symbol)
  note t _ := t
  follows _ _ _ := true
  leave s _ := s
  gather := CallTree.addChild
  finite := by
    refine ⟨(g.nodes.values.flatMap Node.calls).map Mention.site, fun symbol caller frame h m hm => ?_⟩
    split at h
    next n hn =>
      cases h
      have hin : n ∈ g.nodes.values :=
        List.mem_map.mpr ⟨(symbol, n), StringMap.get?_eq_some_iff.mp hn, rfl⟩
      exact List.mem_map.mpr ⟨m, List.mem_flatMap.mpr ⟨n, hin, hm⟩, rfl⟩
    next => cases h

/-- The tree below `symbol`. Sites in `visited` count as shown already, and the outcome tells
which ones have been shown afterwards. -/
def tree (g : CallGraph) (symbol : String) (caller : Option Mention) (visited : List CallSite) :
    Walk.Outcome GraphError Unit (Option CallTree) :=
  g.planter.start symbol caller visited ()

def rootTree (g : CallGraph) (root : RankedRoot) : Except GraphError CallTree := do
  match ← (g.tree root.symbol none []).result with
  | some t => return { t with depth := some root.depth }
  | none => throw (.missingNode root.symbol)

def forest (g : CallGraph) : Except GraphError CallForest := do
  return ⟨← g.rankedRoots.mapM g.rootTree⟩

end CallGraph

def CallForest.rankedRoots (f : CallForest) : List RankedRoot :=
  f.roots.map fun t => ⟨t.symbol, t.depth.getD 0⟩

end StaticCalls
