import StaticCalls.Proofs.CallGraph.Callers
import StaticCalls.Proofs.CallGraph.Ranking
import StaticCalls.Proofs.Walk.Agreement

/-! Graphs that consist of two parts without calls between them. Depths, trees and roots are those
of the parts, so that a forest of the whole is made of theirs (`Joins.roots_of_forest`). -/
namespace StaticCalls.CallGraph
open scoped List
variable {g g₁ g₂ : CallGraph} {symbol : String}

theorem mem_symbols_iff : symbol ∈ g.symbols ↔ g.isBuilt symbol := StringMap.mem_keys_iff

theorem isBuilt_of_mem_rankedRoots {root : RankedRoot} (h : root ∈ g.rankedRoots) :
    g.isBuilt root.symbol := by
  obtain ⟨_, hroot, rfl⟩ := List.mem_map.mp (g.rankedRoots_perm.mem_iff.mp h)
  exact mem_symbols_iff.mp (List.mem_of_mem_filter hroot)

theorem Calls.isBuilt {caller callee : String} (h : g.Calls caller callee) : g.isBuilt caller := by
  obtain ⟨m, hm, _⟩ := h
  cases hn : g.node? caller with
  | none => simp [callsOf, hn] at hm
  | some n => exact isBuilt_iff.mpr ⟨n, hn⟩

theorem Calls.isBuilt_callee (hclosed : g.Closed) {caller callee : String}
    (h : g.Calls caller callee) : g.isBuilt callee := by
  obtain ⟨m, hm, rfl⟩ := h
  exact hclosed caller m hm

/-- The nodes of `part` are nodes of `g`, and no calls lead out of them or into them. -/
structure Part (part g : CallGraph) : Prop where
  node? : ∀ symbol, part.isBuilt symbol → g.node? symbol = part.node? symbol
  closed : part.Closed
  entered : ∀ {caller callee}, g.Calls caller callee → part.isBuilt callee → part.isBuilt caller

namespace Part
variable {part : CallGraph}

theorem callsOf_eq (h : part.Part g) (hsymbol : part.isBuilt symbol) :
    g.callsOf symbol = part.callsOf symbol := by
  simp only [callsOf, h.node? symbol hsymbol]

theorem planter_agrees (h : part.Part g) :
    part.planter.Agrees g.planter fun symbol => part.isBuilt symbol where
  enter symbol caller hsymbol := by simp only [planter, h.node? symbol hsymbol]
  closed := by
    intro symbol caller frame _ henter m hm
    obtain ⟨n, hn, rfl⟩ := planter_enter henter
    exact h.closed symbol m (by rwa [callsOf_of_node? hn])
  note := rfl
  follows := rfl
  leave := rfl
  gather := rfl

theorem measurer_agrees (h : part.Part g) :
    part.measurer.Agrees g.measurer fun symbol => part.isBuilt symbol where
  enter symbol caller hsymbol := by rw [measurer_enter, measurer_enter, h.callsOf_eq hsymbol]
  closed := by
    intro symbol caller frame _ henter m hm
    rw [(part.measurer_follows).entered henter] at hm
    exact h.closed symbol m hm
  note := rfl
  follows := rfl
  leave := rfl
  gather := rfl

theorem depth_eq (h : part.Part g) (hsymbol : part.isBuilt symbol) :
    g.depth symbol = part.depth symbol := by
  rw [depth, depth, h.measurer_agrees.start_eq hsymbol]

theorem rootTree_eq (h : part.Part g) {root : RankedRoot} (hroot : part.isBuilt root.symbol) :
    g.rootTree root = part.rootTree root := by
  rw [rootTree, rootTree, tree, tree, h.planter_agrees.start_eq hroot]

theorem isCalled_eq (h : part.Part g) (hg : g.Indexed) (hpart : part.Indexed)
    (hsymbol : part.isBuilt symbol) : g.isCalled symbol = part.isCalled symbol := by
  have hcalls {caller : String} : g.Calls caller symbol ↔ part.Calls caller symbol := by
    constructor
    · intro hcall
      rwa [Calls, ← h.callsOf_eq (h.entered hcall hsymbol)]
    · intro hcall
      rwa [Calls, h.callsOf_eq hcall.isBuilt]
  rw [Bool.eq_iff_iff, hg.isCalled_iff, hpart.isCalled_iff]
  simp only [hcalls]

end Part

/-- The graph `g` has the nodes of two others, which have none in common and call only their own. -/
structure Joins (g g₁ g₂ : CallGraph) : Prop where
  left : ∀ symbol, g₁.isBuilt symbol → g.node? symbol = g₁.node? symbol
  right : ∀ symbol, g₂.isBuilt symbol → g.node? symbol = g₂.node? symbol
  covered : ∀ symbol, g.isBuilt symbol → g₁.isBuilt symbol ∨ g₂.isBuilt symbol
  apart : ∀ symbol, g₁.isBuilt symbol → ¬ g₂.isBuilt symbol
  closed₁ : g₁.Closed
  closed₂ : g₂.Closed

namespace Joins

theorem symm (h : g.Joins g₁ g₂) : g.Joins g₂ g₁ where
  left := h.right
  right := h.left
  covered symbol hsymbol := (h.covered symbol hsymbol).symm
  apart symbol h₂ h₁ := h.apart symbol h₁ h₂
  closed₁ := h.closed₂
  closed₂ := h.closed₁

theorem part (h : g.Joins g₁ g₂) : g₁.Part g where
  node? := h.left
  closed := h.closed₁
  entered := by
    intro caller callee hcall hcallee
    rcases h.covered caller hcall.isBuilt with hcaller | hcaller
    · exact hcaller
    · -- a caller in the other part would have its target there
      rw [Calls, callsOf, h.right caller hcaller] at hcall
      exact absurd (Calls.isBuilt_callee h.closed₂ hcall) (h.apart callee hcallee)

theorem isBuilt_iff (h : g.Joins g₁ g₂) :
    g.isBuilt symbol ↔ g₁.isBuilt symbol ∨ g₂.isBuilt symbol := by
  refine ⟨h.covered symbol, ?_⟩
  rintro (h₁ | h₂)
  · rw [CallGraph.isBuilt_iff, h.left symbol h₁, ← CallGraph.isBuilt_iff]
    exact h₁
  · rw [CallGraph.isBuilt_iff, h.right symbol h₂, ← CallGraph.isBuilt_iff]
    exact h₂

theorem symbols_perm (h : g.Joins g₁ g₂) : g.symbols ~ g₁.symbols ++ g₂.symbols := by
  have hdisjoint : g₁.symbols.Disjoint g₂.symbols := fun symbol h₁ h₂ =>
    h.apart symbol (mem_symbols_iff.mp h₁) (mem_symbols_iff.mp h₂)
  have hnodup : g.symbols.Nodup := g.nodes.nodup_keys
  have hparts : (g₁.symbols ++ g₂.symbols).Nodup :=
    g₁.nodes.nodup_keys.append g₂.nodes.nodup_keys hdisjoint
  refine (List.perm_ext_iff_of_nodup hnodup hparts).mpr ?_
  intro symbol
  rw [List.mem_append, mem_symbols_iff, mem_symbols_iff, mem_symbols_iff, h.isBuilt_iff]

theorem nodeCount_eq (h : g.Joins g₁ g₂) : g.nodeCount = g₁.nodeCount + g₂.nodeCount := by
  have hlength := h.symbols_perm.length_eq
  simp only [symbols, StringMap.keys, List.length_append, List.length_map] at hlength
  exact hlength

variable (h : g.Joins g₁ g₂) (hg : g.Indexed) (hg₁ : g₁.Indexed) (hg₂ : g₂.Indexed)
include h hg hg₁ hg₂

theorem roots_perm : g.roots ~ g₁.roots ++ g₂.roots := by
  have hsame {part : CallGraph} (hpart : part.Part g) (hindexed : part.Indexed) :
      part.symbols.filter (fun s => !g.isCalled s) = part.roots :=
    List.filter_congr fun s hs => by rw [hpart.isCalled_eq hg hindexed (mem_symbols_iff.mp hs)]
  rw [← hsame h.part hg₁, ← hsame h.symm.part hg₂, ← List.filter_append]
  exact h.symbols_perm.filter _

theorem rankedRoots_perm : g.rankedRoots ~ g₁.rankedRoots ++ g₂.rankedRoots := by
  have hsame {part : CallGraph} (hpart : part.Part g) :
      part.roots.map (fun s => (⟨s, g.depth s⟩ : RankedRoot)) ~ part.rankedRoots := by
    have hdepths : part.roots.map (fun s => (⟨s, g.depth s⟩ : RankedRoot)) =
        part.roots.map fun s => ⟨s, part.depth s⟩ := by
      refine List.map_congr_left fun s hs => ?_
      rw [hpart.depth_eq (mem_symbols_iff.mp (List.mem_of_mem_filter hs))]
    rw [hdepths]
    exact part.rankedRoots_perm.symm
  calc g.rankedRoots
      ~ g.roots.map fun s => ⟨s, g.depth s⟩ := g.rankedRoots_perm
    _ ~ (g₁.roots ++ g₂.roots).map fun s => ⟨s, g.depth s⟩ := (h.roots_perm hg hg₁ hg₂).map _
    _ ~ g₁.rankedRoots ++ g₂.rankedRoots := by
      rw [List.map_append]
      exact (hsame h.part).append (hsame h.symm.part)

/-- The trees of a forest are those of the forests of both parts, with their depths. -/
theorem roots_of_forest {f f₁ f₂ : CallForest} (hf : g.forest = .ok f)
    (hf₁ : g₁.forest = .ok f₁) (hf₂ : g₂.forest = .ok f₂) : f.roots ~ f₁.roots ++ f₂.roots := by
  have hsame {part : CallGraph} {f : CallForest} (hpart : part.Part g)
      (hforest : part.forest = .ok f) :
      part.rankedRoots.filterMap (fun root => (g.rootTree root).toOption) = f.roots := by
    rw [CallGraph.roots_of_forest hforest]
    refine List.filterMap_congr fun root hroot => ?_
    rw [hpart.rootTree_eq (isBuilt_of_mem_rankedRoots hroot)]
  rw [← hsame h.part hf₁, ← hsame h.symm.part hf₂, ← List.filterMap_append,
    CallGraph.roots_of_forest hf]
  exact (h.rankedRoots_perm hg hg₁ hg₂).filterMap _

end Joins
end StaticCalls.CallGraph
