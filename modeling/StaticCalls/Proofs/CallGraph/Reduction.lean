import StaticCalls.Proofs.CallGraph.Union
import StaticCalls.Proofs.Scope.Reduction

/-! Graphs that differ at most in what no tree shows of them. Their walks are the same call by call,
so that depths, roots and trees are the same (`Resembles.forest_eq`). -/
namespace StaticCalls

/-- Both mentions are the same reference. -/
def Mention.SameReference (m m' : Mention) : Prop := m.asReference = m'.asReference

namespace Mention.SameReference
variable {m m' : Mention}

theorem site (h : m.SameReference m') : m.site = m'.site := asReference_eq_iff.mp h

theorem symbol (h : m.SameReference m') : m.symbol = m'.symbol := congrArg CallSite.symbol h.site

end Mention.SameReference

/-- The node with its mentions as nothing but a definition and references. -/
def Node.reduced (n : Node) : Node := ⟨n.definition.asDefinition, n.calls.map Mention.asReference⟩

/-- A record shows no more of a node and of a call than this. -/
theorem CallTree.leaf_reduced (n : Node) (caller : Option Mention) :
    leaf n.reduced (caller.map Mention.asReference) = leaf n caller := by
  cases caller <;> rfl

theorem map_eq_map_iff_forall₂ {α β : Type} {f : α → β} {l l' : List α} :
    l.map f = l'.map f ↔ List.Forall₂ (fun a a' => f a = f a') l l' := by
  rw [← List.forall₂_eq_eq_eq, List.forall₂_map_left_iff, List.forall₂_map_right_iff]

namespace CallTable

def reduced (t : CallTable) : CallTable where
  definitions := t.definitions.map Mention.asDefinition
  calls := t.calls.map (List.map Mention.asReference)

theorem nodes_reduced (t : CallTable) : t.reduced.nodes = t.nodes.map Node.reduced := by
  refine StringMap.ext_get? fun symbol => ?_
  simp only [nodes, reduced, StringMap.get?_map, StringMap.get?_filterMap]
  cases t.calls.get? symbol with
  | none => rfl
  | some calls => cases hdef : t.definitions.get? symbol <;> simp [Node.reduced]

end CallTable

namespace CallGraph
variable {g g' : CallGraph} {symbol : String}

/-- The nodes of both graphs show the same in trees, and both indexes of callers are in step. -/
structure Resembles (g g' : CallGraph) : Prop where
  nodes : g.nodes.map Node.reduced = g'.nodes.map Node.reduced
  indexed : g.Indexed
  indexed' : g'.Indexed

namespace Resembles

theorem symbols_eq (h : g.Resembles g') : g.symbols = g'.symbols := by
  rw [symbols, symbols, ← StringMap.keys_map Node.reduced, h.nodes, StringMap.keys_map]

theorem nodeCount_eq (h : g.Resembles g') : g.nodeCount = g'.nodeCount := by
  have hlength := congrArg List.length h.symbols_eq
  simp only [symbols, StringMap.keys, List.length_map] at hlength
  exact hlength

theorem edgeCount_eq (h : g.Resembles g') : g.edgeCount = g'.edgeCount := by
  have hcount (g : CallGraph) : g.edgeCount =
      ((g.nodes.map Node.reduced).values.map fun n => n.calls.length).sum := by
    rw [edgeCount, List.length_flatMap, StringMap.values_map, List.map_map]
    congr 1
    exact List.map_congr_left fun n _ => (List.length_map _).symm
  rw [hcount, hcount, h.nodes]

theorem node?_eq (h : g.Resembles g') (symbol : String) :
    (g.node? symbol).map Node.reduced = (g'.node? symbol).map Node.reduced := by
  rw [node?, node?, ← StringMap.get?_map, ← StringMap.get?_map, h.nodes]

theorem callsOf_eq (h : g.Resembles g') (symbol : String) :
    (g.callsOf symbol).map Mention.asReference = (g'.callsOf symbol).map Mention.asReference := by
  have hnode := h.node?_eq symbol
  unfold callsOf
  cases hn : g.node? symbol <;> cases hn' : g'.node? symbol <;> simp_all [Node.reduced]

theorem sameReferences (h : g.Resembles g') (symbol : String) :
    List.Forall₂ Mention.SameReference (g.callsOf symbol) (g'.callsOf symbol) :=
  map_eq_map_iff_forall₂.mp (h.callsOf_eq symbol)

theorem isCalled_eq (h : g.Resembles g') (symbol : String) :
    g.isCalled symbol = g'.isCalled symbol := by
  have hcalls (g : CallGraph) (caller : String) : g.Calls caller symbol ↔
      symbol ∈ ((g.callsOf caller).map Mention.asReference).map Mention.symbol := by
    simp [Calls]
  rw [Bool.eq_iff_iff, h.indexed.isCalled_iff, h.indexed'.isCalled_iff]
  simp only [hcalls, h.callsOf_eq]

theorem roots_eq (h : g.Resembles g') : g.roots = g'.roots := by
  rw [roots, roots, h.symbols_eq]
  exact List.filter_congr fun symbol _ => by rw [h.isCalled_eq]

/-! ### Walks -/

theorem measurer_entered (h : g.Resembles g') (symbol : String) (caller caller' : Option Mention) :
    Walk.Entered Mention.SameReference (g.measurer.enter symbol caller)
      (g'.measurer.enter symbol caller') := by
  have hcalls := h.sameReferences symbol
  rw [measurer_enter, measurer_enter]
  generalize g.callsOf symbol = calls at hcalls
  generalize g'.callsOf symbol = calls' at hcalls
  cases hcalls with
  | nil => exact .absent
  | cons hcall hrest => exact .body (.cons hcall hrest)

theorem measurer_simulates (h : g.Resembles g') :
    g.measurer.Simulates g'.measurer Mention.SameReference where
  site hcall := hcall.site.symm
  enter hcall := by
    rw [← hcall.symbol]
    exact h.measurer_entered _ _ _
  note _ _ := rfl
  follows _ _ _ := rfl
  leave := rfl
  gather := rfl

theorem depth_eq (h : g.Resembles g') (symbol : String) : g.depth symbol = g'.depth symbol := by
  rw [depth, depth, h.measurer_simulates.start_eq (h.measurer_entered symbol none none)]

theorem planter_entered (h : g.Resembles g') (symbol : String) {caller caller' : Option Mention}
    (hcaller : caller.map Mention.asReference = caller'.map Mention.asReference) :
    Walk.Entered Mention.SameReference (g.planter.enter symbol caller)
      (g'.planter.enter symbol caller') := by
  have hnode := h.node?_eq symbol
  simp only [planter]
  cases hn : g.node? symbol with
  | none =>
    rw [hn, Option.map_none, eq_comm, Option.map_eq_none_iff] at hnode
    rw [hnode]
    exact .refused
  | some n =>
    rw [hn, Option.map_some, eq_comm, Option.map_eq_some_iff] at hnode
    obtain ⟨n', hn', hreduced⟩ := hnode
    have hleaf : CallTree.leaf n' caller' = CallTree.leaf n caller := by
      rw [← CallTree.leaf_reduced n', hreduced, ← hcaller, CallTree.leaf_reduced]
    have hcalls : n.calls.map Mention.asReference = n'.calls.map Mention.asReference :=
      (congrArg Node.calls hreduced).symm
    rw [hn']
    simp only [hleaf]
    exact .body (map_eq_map_iff_forall₂.mp hcalls)

theorem planter_simulates (h : g.Resembles g') :
    g.planter.Simulates g'.planter Mention.SameReference where
  site hcall := hcall.site.symm
  enter hcall := by
    rw [← hcall.symbol]
    exact h.planter_entered _ (congrArg some hcall)
  note _ _ := rfl
  follows _ _ _ := rfl
  leave := rfl
  gather := rfl

theorem rootTree_eq (h : g.Resembles g') (root : RankedRoot) :
    g.rootTree root = g'.rootTree root := by
  have hentered : Walk.Entered Mention.SameReference (g.planter.enter root.symbol none)
      (g'.planter.enter root.symbol none) := h.planter_entered root.symbol rfl
  rw [rootTree, rootTree, tree, tree, h.planter_simulates.start_eq hentered]

theorem rankedRoots_eq (h : g.Resembles g') : g.rankedRoots = g'.rankedRoots := by
  rw [rankedRoots, rankedRoots, h.roots_eq, funext h.depth_eq]

/-- Graphs that resemble each other have one forest, or fail alike. -/
theorem forest_eq (h : g.Resembles g') : g.forest = g'.forest := by
  rw [forest, forest, h.rankedRoots_eq, funext h.rootTree_eq]

end Resembles
end CallGraph
end StaticCalls
