import StaticCalls.Proofs.CallGraph.Reduction
import StaticCalls.Proofs.Pipeline.Order

/-! Runs over documents that come to the same for the scopes. All later stages see no more than the
reduced documents, so that runs over two indexes with the same ones fail with one error or end with
one forest and the same counters (`alike_of_reduced`). -/
namespace StaticCalls

/-- What the scopes take from the documents of the index. -/
def Index.reduced (index : Index) (policy : ReferencePolicy) : List Partition :=
  (index.extract policy).partitions.map Partition.reduced

theorem Index.reduced_eq_of_forall₂ {index index' : Index} {policy : ReferencePolicy}
    (h : List.Forall₂ (fun d d' => (d.partition policy).reduced = (d'.partition policy).reduced)
      index.documents index'.documents) : index.reduced policy = index'.reduced policy := by
  have hdocuments (index : Index) : index.reduced policy =
      index.documents.map fun d => (d.partition policy).reduced := List.map_map
  rw [hdocuments, hdocuments, map_eq_map_iff_forall₂]
  exact h

namespace CallEdges

theorem calls_ofReferences_reduced (enclosed references references' : SymbolMentions) :
    (ofReferences (enclosed.map (List.map Mention.asReference)) references').calls =
      (ofReferences enclosed references).calls.map (List.map Mention.asReference) := by
  refine StringMap.ext_get? fun symbol => ?_
  simp only [ofReferences, StringMap.get?_map, StringMap.contains_map, Option.map_map]
  refine Option.map_congr fun l _ => ?_
  simp only [Function.comp_apply, List.filter_map]
  rfl

theorem dropped_ofReferences_reduced (enclosed references references' : SymbolMentions) :
    (ofReferences (enclosed.map (List.map Mention.asReference)) references').dropped =
      (ofReferences enclosed references).dropped := by
  simp only [ofReferences, StringMap.values_map, ← List.map_flatten, List.countP_map,
    StringMap.contains_map]
  rfl

end CallEdges

namespace ScopeResolution
variable {r : ScopeResolution}

theorem callTable_reduced (r : ScopeResolution) (references references' : SymbolMentions) :
    r.reduced.callTable references' = (r.callTable references).reduced := by
  rw [callTable, reduced, CallEdges.calls_ofReferences_reduced _ references]
  rfl

end ScopeResolution

namespace Index
variable {index : Index} {policy : ReferencePolicy} {r : ScopeResolution}

theorem map_unscopedReferences (index : Index) (policy : ReferencePolicy) :
    (index.unscopedReferences policy).map Mention.asReference =
      (index.reduced policy).flatMap Partition.unscopedReferences := by
  rw [unscopedReferences, reduced, List.map_flatMap, List.flatMap_map]
  simp only [Partition.unscopedReferences_reduced]

/-- The references to tracked symbols outside of all bodies, counted in the reduced documents. -/
theorem countP_unscopedReferences
    (h : ScopeResolution.ofPartitions (index.extract policy).partitions = .ok r) :
    (index.unscopedReferences policy).countP (index.tracks policy) =
      ((index.reduced policy).flatMap Partition.unscopedReferences).countP
        fun m => r.reduced.enclosed.contains m.symbol := by
  rw [← map_unscopedReferences, List.countP_map, ← ScopeResolution.contains_symbol_eq h]
  simp only [ScopeResolution.contains_reduced]
  rfl

theorem map_ofPartitions (index : Index) (policy : ReferencePolicy) :
    (ScopeResolution.ofPartitions (index.extract policy).partitions).map ScopeResolution.reduced =
      ScopeResolution.ofPartitions (index.reduced policy) :=
  (ScopeResolution.ofPartitions_map_reduced _).symm

end Index

namespace Pipeline
variable {policy : ReferencePolicy} {index index' : Index} {r r' : ScopeResolution}
  {g g' : CallGraph} {R : PipelineStats → PipelineStats → Prop}

/-- Both results are the same error, or they have the same forest and related statistics. -/
inductive Alike (R : PipelineStats → PipelineStats → Prop) :
    Except GraphError PipelineResult → Except GraphError PipelineResult → Prop where
  | failed (e : GraphError) : Alike R (.error e) (.error e)
  | finished (forest : CallForest) {stats stats' : PipelineStats} (h : R stats stats') :
      Alike R (.ok ⟨forest, stats⟩) (.ok ⟨forest, stats'⟩)

def SameGraphCounters (stats stats' : PipelineStats) : Prop :=
  graphCounters stats = graphCounters stats'

theorem run_of_error {e : GraphError}
    (h : ScopeResolution.ofPartitions (index.extract policy).partitions = .error e) :
    (run policy index).result = .error e := by
  simp only [run, h]

theorem resembles_of_reduced (h : Stages policy index r g) (h' : Stages policy index' r' g')
    (hreduced : r.reduced = r'.reduced) : g.Resembles g' where
  nodes := by
    rw [CallTable.nodes_of_build h.keyed h.built, CallTable.nodes_of_build h'.keyed h'.built,
      ← CallTable.nodes_reduced, ← CallTable.nodes_reduced,
      ← ScopeResolution.callTable_reduced r _ .empty, hreduced,
      ScopeResolution.callTable_reduced r' (index'.extract policy).references]
  indexed := CallTable.indexed_of_build h.built
  indexed' := CallTable.indexed_of_build h'.built

theorem sameGraphCounters_of_reduced (h : Stages policy index r g)
    (h' : Stages policy index' r' g') (hreduced : r.reduced = r'.reduced)
    (hindex : index.reduced policy = index'.reduced policy) (f : CallForest) :
    SameGraphCounters (statsOf (index.extract policy) r (r.edges index policy) g f)
      (statsOf (index'.extract policy) r' (r'.edges index' policy) g' f) := by
  have hgraph := resembles_of_reduced h h' hreduced
  have hunscoped : r.unscoped = r'.unscoped := by
    show r.reduced.unscoped = r'.reduced.unscoped
    rw [hreduced]
  have hdropped : (r.edges index policy).dropped = (r'.edges index' policy).dropped := by
    rw [ScopeResolution.edges, ScopeResolution.edges,
      ← CallEdges.dropped_ofReferences_reduced r.enclosed _ .empty,
      ← CallEdges.dropped_ofReferences_reduced r'.enclosed _ .empty]
    exact congrArg (fun r : ScopeResolution => (CallEdges.ofReferences r.enclosed .empty).dropped)
      hreduced
  have htracked : (r.edges index policy).unscopedTrackedReferences =
      (r'.edges index' policy).unscopedTrackedReferences := by
    rw [ScopeResolution.unscopedTracked_edges h.merged,
      ScopeResolution.unscopedTracked_edges h'.merged, Index.countP_unscopedReferences h.merged,
      Index.countP_unscopedReferences h'.merged, hreduced, hindex]
  simp only [SameGraphCounters, graphCounters, statsOf, hunscoped, hdropped, htracked,
    hgraph.nodeCount_eq, hgraph.edgeCount_eq]

/-- Indexes with the same reduced documents give one result, but for the counters of their
extractions. -/
theorem alike_of_reduced (hindex : index.reduced policy = index'.reduced policy)
    (hR : ∀ stats stats', SameGraphCounters stats stats' →
      stats.extract = (index.extract policy).stats →
      stats'.extract = (index'.extract policy).stats → R stats stats') :
    Alike R (run policy index).result (run policy index').result := by
  have hmerged : (ScopeResolution.ofPartitions (index.extract policy).partitions).map
      ScopeResolution.reduced = (ScopeResolution.ofPartitions (index'.extract policy).partitions).map
        ScopeResolution.reduced := by
    rw [Index.map_ofPartitions, Index.map_ofPartitions, hindex]
  cases hr : ScopeResolution.ofPartitions (index.extract policy).partitions with
  | error e =>
    cases hr' : ScopeResolution.ofPartitions (index'.extract policy).partitions with
    | error e' =>
      rw [hr, hr'] at hmerged
      cases hmerged
      rw [run_of_error hr, run_of_error hr']
      exact .failed e
    | ok r' =>
      rw [hr, hr'] at hmerged
      cases hmerged
  | ok r =>
    rw [hr, eq_comm] at hmerged
    obtain ⟨r', hr', hreduced⟩ := map_eq_ok_iff.mp hmerged
    obtain ⟨g, f, hg, hf⟩ := (ScopeResolution.tracks_ofPartitions hr).exists_forest
      (index.extract policy).references
    obtain ⟨g', f', hg', hf'⟩ := (ScopeResolution.tracks_ofPartitions hr').exists_forest
      (index'.extract policy).references
    have h : Stages policy index r g := ⟨hr, hg⟩
    have h' : Stages policy index' r' g' := ⟨hr', hg'⟩
    have hforest := (resembles_of_reduced h h' hreduced.symm).forest_eq
    rw [hf, hf'] at hforest
    cases hforest
    rw [h.run_eq hf, h'.run_eq hf']
    exact .finished f (hR _ _ (sameGraphCounters_of_reduced h h' hreduced.symm hindex f) rfl rfl)

end Pipeline
end StaticCalls
