import StaticCalls.Proofs.CallGraph.Coverage
import StaticCalls.Proofs.Pipeline.Union

/-! What the forest of a run shows of its index. The calls of the graph are those of the bodies that
stand for their symbols, so that roots, records and coverage can be told from the index alone
(`run_covers`). -/
namespace StaticCalls
open Relation

namespace Index
variable {index : Index} {policy : ReferencePolicy}

/-- The body that stands for the caller holds a reference to the callee, which is tracked. -/
def Calls (index : Index) (policy : ReferencePolicy) (caller callee : String) : Prop :=
  ∃ b, OwnedCalls.standing (index.ownedCalls policy caller) = some b ∧
    (∃ m ∈ b.references, m.symbol = callee) ∧ callee ∈ index.scopedSymbols policy

/-- A tracked symbol that no body but its own calls. -/
def IsRoot (index : Index) (policy : ReferencePolicy) (symbol : String) : Prop :=
  symbol ∈ index.scopedSymbols policy ∧
    ¬ ∃ caller, caller ≠ symbol ∧ index.Calls policy caller symbol

theorem tracks_iff {m : Mention} :
    index.tracks policy m ↔ m.symbol ∈ index.scopedSymbols policy := by
  rw [tracks, List.contains_iff_mem]

theorem mem_scopedSymbols_of_standing {symbol : String} {b : OwnedCalls}
    (h : OwnedCalls.standing (index.ownedCalls policy symbol) = some b) :
    symbol ∈ index.scopedSymbols policy := by
  by_contra hnot
  rw [ownedCalls_eq_nil hnot] at h
  cases h

end Index

namespace Pipeline
variable {policy : ReferencePolicy} {index : Index} {r : ScopeResolution} {g : CallGraph}
  {f : CallForest} {symbol : String}

/-- A node has the references of the body that stands for it, as far as their targets are tracked. -/
theorem Stages.callsOf_eq (h : Stages policy index r g) (symbol : String) :
    g.callsOf symbol = ((OwnedCalls.standing (index.ownedCalls policy symbol)).map fun b =>
      b.references.filter (index.tracks policy)).getD [] := by
  have hholds := ScopeResolution.holds_ofPartitions h.merged symbol
  simp only [CallGraph.callsOf, CallTable.node?_of_build h.keyed h.built, CallTable.node?,
    ScopeResolution.callTable, CallEdges.ofReferences, StringMap.get?_map, hholds.enclosed,
    hholds.definition, ScopeResolution.contains_symbol_eq h.merged]
  cases OwnedCalls.standing (index.ownedCalls policy symbol) <;> rfl

theorem Stages.calls_iff (h : Stages policy index r g) {caller callee : String} :
    g.Calls caller callee ↔ index.Calls policy caller callee := by
  rw [CallGraph.Calls, Index.Calls, h.callsOf_eq]
  cases OwnedCalls.standing (index.ownedCalls policy caller) with
  | none => simp
  | some b =>
    simp only [Option.map_some, Option.getD_some, List.mem_filter, Index.tracks_iff,
      Option.some.injEq, exists_eq_left']
    constructor
    · rintro ⟨m, ⟨hm, htracked⟩, rfl⟩
      exact ⟨⟨m, hm, rfl⟩, htracked⟩
    · rintro ⟨⟨m, hm, rfl⟩, htracked⟩
      exact ⟨m, ⟨hm, htracked⟩, rfl⟩

theorem Stages.calls_eq (h : Stages policy index r g) : g.Calls = index.Calls policy := by
  funext caller callee
  exact propext h.calls_iff

theorem Stages.mem_roots_iff (h : Stages policy index r g) :
    symbol ∈ g.roots ↔ index.IsRoot policy symbol := by
  rw [CallGraph.mem_roots_iff (CallTable.indexed_of_build h.built), h.isBuilt_iff, h.calls_eq]
  rfl

/-! ### The greatest depth -/

theorem foldl_max_of_le {l : List Nat} {a : Nat} (h : ∀ b ∈ l, b ≤ a) : l.foldl max a = a := by
  induction l with
  | nil => rfl
  | cons b rest ih =>
    rw [List.forall_mem_cons] at h
    rw [List.foldl_cons, Nat.max_eq_left h.1, ih h.2]

/-- Of numbers that do not rise the first one is the greatest. -/
theorem foldl_max_eq_head {l : List Nat} (h : l.Pairwise fun a b => b ≤ a) :
    l.foldl max 0 = l.head?.getD 0 := by
  cases l with
  | nil => rfl
  | cons a rest =>
    rw [List.pairwise_cons] at h
    rw [List.foldl_cons, Nat.zero_max, foldl_max_of_le h.1]
    rfl

theorem depth_of_mem_roots (hkeyed : g.Keyed) (hf : g.forest = .ok f) {t : CallTree}
    (ht : t ∈ f.roots) : t.depth = some (g.depth t.symbol) := by
  obtain ⟨symbol, _, t', htree, rfl⟩ := CallGraph.exists_tree_of_mem_roots hf ht
  show some (g.depth symbol) = some (g.depth t'.symbol)
  rw [CallGraph.symbol_of_tree hkeyed htree]

/-- The greatest depth is that of the first root. -/
theorem foldl_max_depths (hkeyed : g.Keyed) (hf : g.forest = .ok f) :
    (f.roots.filterMap CallTree.depth).foldl max 0 =
      (f.rankedRoots.head?.map RankedRoot.depth).getD 0 := by
  have hdepths : f.roots.filterMap CallTree.depth = f.rankedRoots.map RankedRoot.depth := by
    rw [CallForest.rankedRoots, List.map_map, ← List.filterMap_eq_map]
    refine List.filterMap_congr fun t ht => ?_
    simp [depth_of_mem_roots hkeyed hf ht]
  have hsorted : (f.rankedRoots.map RankedRoot.depth).Pairwise fun a b => b ≤ a := by
    rw [List.pairwise_map, CallGraph.rankedRoots_of_forest hkeyed hf]
    refine g.rankedRoots_pairwise.imp ?_
    rintro a b (hlt | ⟨heq, _⟩)
    · exact Nat.le_of_lt hlt
    · exact Nat.le_of_eq heq.symm
  rw [hdepths, foldl_max_eq_head hsorted, List.head?_map]

/-! ### Coverage -/

/-- What a result shows of an index that has the graph `g`. -/
structure Covers (policy : ReferencePolicy) (index : Index) (g : CallGraph)
    (result : PipelineResult) : Prop where
  nodes : ∀ symbol, g.isBuilt symbol ↔ symbol ∈ index.scopedSymbols policy
  calls : ∀ caller callee, g.Calls caller callee ↔ index.Calls policy caller callee
  roots : ∀ symbol, symbol ∈ result.forest.roots.map CallTree.symbol ↔ index.IsRoot policy symbol
  once : (result.forest.roots.map CallTree.symbol).Nodup
  depths : ∀ t ∈ result.forest.roots, t.depth = some (g.depth t.symbol)
  ranked : result.forest.rankedRoots.Pairwise RankedRoot.Precedes
  maxDepth : result.stats.maxDepth = (result.forest.rankedRoots.head?.map RankedRoot.depth).getD 0
  shows : ∀ symbol, result.forest.Shows symbol ↔
    ∃ root, index.IsRoot policy root ∧ ReflTransGen (index.Calls policy) root symbol
  covered : RunsInNoCircle (index.Calls policy) → ∀ symbol ∈ index.scopedSymbols policy,
    result.forest.Shows symbol

theorem Stages.covers (h : Stages policy index r g) (hf : g.forest = .ok f) :
    Covers policy index g ⟨f, statsOf (index.extract policy) r (r.edges index policy) g f⟩ := by
  have hkeyed : g.Keyed := CallGraph.keyed_of_build h.keyed h.built
  have hindexed : g.Indexed := CallTable.indexed_of_build h.built
  have hsymbols : (f.roots.map CallTree.symbol).Perm g.roots := by
    have hranked : f.rankedRoots.map RankedRoot.symbol = f.roots.map CallTree.symbol := by
      rw [CallForest.rankedRoots, List.map_map]
      rfl
    rw [← hranked, CallGraph.rankedRoots_of_forest hkeyed hf]
    have hperm := g.rankedRoots_perm.map RankedRoot.symbol
    rwa [List.map_map, Function.comp_def, List.map_id'] at hperm
  have hshows (symbol : String) : f.Shows symbol ↔
      ∃ root, index.IsRoot policy root ∧ ReflTransGen (index.Calls policy) root symbol := by
    rw [CallGraph.shows_iff hkeyed h.closed hf, ← h.calls_eq]
    simp only [h.mem_roots_iff]
    rfl
  exact {
    nodes := fun _ => h.isBuilt_iff
    calls := fun _ _ => h.calls_iff
    roots := fun symbol => by rw [hsymbols.mem_iff, h.mem_roots_iff]
    once := hsymbols.nodup_iff.mpr g.nodup_roots
    depths := fun t => depth_of_mem_roots hkeyed hf
    ranked := by
      rw [CallGraph.rankedRoots_of_forest hkeyed hf]
      exact g.rankedRoots_pairwise
    maxDepth := foldl_max_depths hkeyed hf
    shows := hshows
    covered := by
      intro hcircle symbol hsymbol
      rw [← h.calls_eq] at hcircle
      rw [CallGraph.shows_iff hkeyed h.closed hf]
      exact CallGraph.exists_root_reaches hindexed hcircle (h.isBuilt_iff.mpr hsymbol) }

/-- The trees of a forest are those of the tracked symbols that no other body calls, deepest first,
and they show what these call; where calls run in no circle this is every tracked symbol. -/
theorem run_covers (config : Config) (index : Index) {result : PipelineResult}
    (h : (run config.analysis.referencePolicy index).result = .ok result) :
    ∃ r g, Stages config.analysis.referencePolicy index r g ∧ g.forest = .ok result.forest ∧
      Covers config.analysis.referencePolicy index g result := by
  obtain ⟨r, g, f, hstages, hf, rfl⟩ := result_of_run h
  exact ⟨r, g, hstages, hf, hstages.covers hf⟩

/-- Documents that define different symbols contest none. -/
theorem exists_result_of_scopedSymbols (h : index.documents.Pairwise fun d d' =>
    ∀ symbol ∈ d.scopedSymbols policy, symbol ∉ d'.scopedSymbols policy) :
    ∃ result, (run policy index).result = .ok result := by
  refine exists_result_iff.mpr (h.imp fun hapart symbol howns => ?_)
  exact hapart symbol howns.1.mem_scopedSymbols howns.2.mem_scopedSymbols

/-- A function that calls another one, which calls itself. -/
def recursive : Index :=
  ⟨[Sample.document "pkg/a.go" [.function Sample.caller 0 5, .call Sample.callee 2 1],
    Sample.document "pkg/b.go" [.function Sample.callee 0 2, .call Sample.callee 1 1]]⟩

theorem calls_recursive {caller callee : String} (h : recursive.Calls .methods caller callee)
    (hne : caller ≠ callee) : caller = Sample.caller ∧ callee = Sample.callee := by
  have hsymbols : recursive.scopedSymbols .methods = [Sample.caller, Sample.callee] := by
    decide +kernel
  have hbody : ∀ b ∈ OwnedCalls.standing (recursive.ownedCalls .methods Sample.callee),
      ∀ m ∈ b.references, m.symbol = Sample.callee := by decide +kernel
  obtain ⟨b, hb, ⟨m, hm, htarget⟩, hcallee⟩ := h
  have hcaller := Index.mem_scopedSymbols_of_standing hb
  rw [hsymbols, List.mem_pair] at hcaller hcallee
  rcases hcaller with rfl | rfl
  · exact ⟨rfl, hcallee.resolve_left (Ne.symm hne)⟩
  · exact absurd ((hbody b hb m hm).symm.trans htarget) hne

/-- The call of a body by itself does not count as a circle. -/
theorem runsInNoCircle_recursive : RunsInNoCircle (recursive.Calls .methods) := by
  intro symbol hcircle
  obtain ⟨_, ⟨hfirst, hne⟩, _⟩ := TransGen.head'_iff.mp hcircle
  obtain ⟨_, _, hlast, hne'⟩ := TransGen.tail'_iff.mp hcircle
  have hcaller := (calls_recursive hfirst hne).1
  have hcallee := (calls_recursive hlast hne').2
  exact absurd (hcaller.symm.trans hcallee) (by decide)

theorem recursive_covers : ∃ result,
    (run ({} : Config).analysis.referencePolicy recursive).result = .ok result ∧
    (∃ r g, Stages ({} : Config).analysis.referencePolicy recursive r g ∧
      g.forest = .ok result.forest ∧
      Covers ({} : Config).analysis.referencePolicy recursive g result) ∧
    result.forest.Shows Sample.callee := by
  obtain ⟨result, hresult⟩ : ∃ result, (run .methods recursive).result = .ok result :=
    exists_result_of_scopedSymbols (by decide +kernel)
  obtain ⟨r, g, hstages, hforest, hcovers⟩ := run_covers {} recursive hresult
  refine ⟨result, hresult, ⟨r, g, hstages, hforest, hcovers⟩, ?_⟩
  exact hcovers.covered runsInNoCircle_recursive Sample.callee (by decide +kernel)

end Pipeline
end StaticCalls
