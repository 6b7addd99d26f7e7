import StaticCalls.Index.Mention

/-! The call graph: a node for each tracked definition, with the calls in its body in source
order, and for each symbol the calls that target it from other nodes. -/
namespace StaticCalls

structure Node where
  definition : Mention
  calls : List Mention
deriving DecidableEq, Repr

namespace Node

abbrev symbol (n : Node) : String := n.definition.symbol

def addCall (n : Node) (call : Mention) : Node := { n with calls := n.calls ++ [call] }

end Node

structure CallGraph where
  nodes : StringMap Node
  /-- By target; a node's calls of itself are not listed. -/
  callers : SymbolMentions

namespace CallGraph

def empty : CallGraph := ⟨.empty, .empty⟩

instance : Inhabited CallGraph := ⟨empty⟩

def node? (g : CallGraph) (symbol : String) : Option Node := g.nodes.get? symbol

def isBuilt (g : CallGraph) (symbol : String) : Bool := g.nodes.contains symbol

def symbols (g : CallGraph) : List String := g.nodes.keys

def callersOf (g : CallGraph) (symbol : String) : List Mention := g.callers.getD symbol []

def isCalled (g : CallGraph) (symbol : String) : Bool := !(g.callersOf symbol).isEmpty

def nodeCount (g : CallGraph) : Nat := g.nodes.size

def edgeCount (g : CallGraph) : Nat := (g.nodes.values.flatMap Node.calls).length

/-- The first node of a symbol stays; its calls of other symbols enter the index of callers. -/
def addNode (g : CallGraph) (n : Node) : CallGraph :=
  if g.isBuilt n.symbol then g
  else
    { nodes := g.nodes.insert n.symbol n
      callers := (n.calls.filter fun c => c.symbol != n.symbol).foldl
        (fun callers c => callers.append c.symbol c) g.callers }

end CallGraph
end StaticCalls
