import StaticCalls.Proofs.Extraction.Counters
import StaticCalls.Proofs.Pipeline.Outcome
import StaticCalls.Proofs.Scope.Conservation
import StaticCalls.Sample
import Mathlib.Data.List.Dedup

/-! The counters of a run. Each candidate reference becomes a call, is dropped for its target or is
left unscoped, and no stage between the extraction and the graph counts one of them twice. -/
namespace StaticCalls
open scoped List

namespace Document
variable {d : Document} {policy : ReferencePolicy} {symbol : String}

/-- The symbols of the scoped definitions that are extracted from the document, with repetitions. -/
def scopedSymbols (d : Document) (policy : ReferencePolicy) : List String :=
  (select Verdict.isDefinition (d.classified policy)).map Mention.symbol

theorem contains_definitions_iff :
    (d.partition policy).definitions.contains symbol ↔ symbol ∈ d.scopedSymbols policy := by
  simp only [partition, StringMap.contains_ofList_iff, List.map_map, scopedSymbols,
    Function.comp_def]

/-- All definitions that are extracted have a body. -/
theorem exists_hasBody_iff : (∃ b, (d.partition policy).HasBody b ∧ b.symbol = symbol) ↔
    symbol ∈ d.scopedSymbols policy := by
  rw [← contains_definitions_iff, StringMap.contains, Option.isSome_iff_exists]
  constructor
  · rintro ⟨b, ⟨m, hm, _⟩, rfl⟩
    exact ⟨m, hm⟩
  · rintro ⟨m, hm⟩
    have hscoped := (mem_definitions hm).2.2.2
    rw [Occurrence.isScopedDefinition, Bool.and_eq_true] at hscoped
    obtain ⟨range, hrange⟩ := Option.isSome_iff_exists.mp hscoped.2
    exact ⟨⟨symbol, range⟩, ⟨m, hm, hrange⟩, rfl⟩

theorem OwnsCalls.references_ne_nil (h : d.OwnsCalls policy symbol) :
    (d.partition policy).references ≠ [] := by
  intro hnil
  obtain ⟨_, _, _, howned⟩ := h
  apply howned
  rw [StringMap.getD, Partition.get?_enclosed, Partition.placements, Partition.sortedReferences,
    hnil, List.mergeSort_nil]
  cases ((d.partition policy).definitions.get? symbol).bind Mention.body? <;> rfl

end Document

namespace Index

def candidates (index : Index) (policy : ReferencePolicy) : List Mention :=
  (index.extract policy).partitions.flatMap Partition.references

/-- The candidate references that are recorded in the body of a definition. -/
def recordedReferences (index : Index) (policy : ReferencePolicy) : List Mention :=
  (index.extract policy).partitions.flatMap fun p => p.resolve.enclosed.values.flatten

def unscopedReferences (index : Index) (policy : ReferencePolicy) : List Mention :=
  (index.extract policy).partitions.flatMap Partition.unscopedReferences

/-- The symbols of all scoped definitions that are extracted, with repetitions. -/
def scopedSymbols (index : Index) (policy : ReferencePolicy) : List String :=
  index.documents.flatMap fun d => d.scopedSymbols policy

/-- The mention is one of a symbol that has a scoped definition. -/
def tracks (index : Index) (policy : ReferencePolicy) (m : Mention) : Bool :=
  (index.scopedSymbols policy).contains m.symbol

/-- The references of each document are those recorded in a body and those left unscoped. -/
theorem candidates_perm (index : Index) (policy : ReferencePolicy) : index.candidates policy ~
    index.recordedReferences policy ++ index.unscopedReferences policy :=
  calc index.candidates policy
      ~ (index.extract policy).partitions.flatMap fun p =>
          p.resolve.enclosed.values.flatten ++ p.unscopedReferences :=
        List.Perm.flatMap_left _ fun p _ => p.references_perm
    _ ~ index.recordedReferences policy ++ index.unscopedReferences policy :=
        (List.flatMap_append_perm _ _ _).symm

theorem references_stats (index : Index) (policy : ReferencePolicy) :
    (index.extract policy).stats.references = (index.candidates policy).length := by
  rw [references_eq_sum, candidates, List.length_flatMap]

end Index

namespace CallEdges
variable (enclosed references : SymbolMentions)

theorem edgeCount_ofReferences : (ofReferences enclosed references).edgeCount =
    enclosed.values.flatten.countP fun m => enclosed.contains m.symbol := by
  rw [edgeCount, total, ofReferences, StringMap.values_map, ← List.filter_flatten,
    List.countP_eq_length_filter]

theorem total_trackedReferences (l : List Mention) :
    total (ofReferences enclosed (.groupBy Mention.symbol l)).trackedReferences =
      l.countP fun m => enclosed.contains m.symbol := by
  have hkey : ∀ k, ∀ m ∈ (StringMap.groupBy Mention.symbol l).getD k [], m.symbol = k := by
    intro k m hm
    rw [StringMap.getD_groupBy] at hm
    simpa using (List.mem_filter.mp hm).2
  rw [total, ofReferences, StringMap.flatten_values_filter hkey, ← List.countP_eq_length_filter]
  exact (StringMap.flatten_values_groupBy Mention.symbol l).countP_eq _

end CallEdges

namespace CallTable
variable {t : CallTable} {g : CallGraph}

theorem nodeCount_of_build (ht : t.Keyed) (h : t.build = .ok g) :
    g.nodeCount = t.calls.keys.length := by
  rw [← symbols_of_build ht h, CallGraph.symbols, StringMap.keys, List.length_map]
  rfl

theorem edgeCount_of_build (ht : t.Keyed) (h : t.build = .ok g) :
    g.edgeCount = CallEdges.total t.calls := by
  rw [CallEdges.total, ← calls_of_build ht h, StringMap.values_map, ← List.flatMap_def]
  rfl

end CallTable

namespace ScopeResolution
variable {policy : ReferencePolicy} {index : Index} {r : ScopeResolution}

theorem tracks_ofPartitions (h : ofPartitions (index.extract policy).partitions = .ok r) :
    r.Tracks := by
  rcases ofPartitions_cases index policy with ⟨⟨r', hr', htracks⟩, _⟩ | ⟨⟨_, _, hfail⟩, _⟩
  · rw [h] at hr'
    cases hr'
    exact htracks
  · rw [h] at hfail
    cases hfail

theorem contains_enclosed_iff (h : ofPartitions (index.extract policy).partitions = .ok r)
    {symbol : String} : r.enclosed.contains symbol ↔ symbol ∈ index.scopedSymbols policy := by
  rw [contains_ofPartitions_iff h, Index.scopedSymbols, List.mem_flatMap]
  show (∃ p ∈ index.documents.map (·.partition policy), _) ↔ _
  simp only [List.mem_map, exists_exists_and_eq_and, Document.exists_hasBody_iff]

theorem length_keys_enclosed (h : ofPartitions (index.extract policy).partitions = .ok r) :
    r.enclosed.keys.length = (index.scopedSymbols policy).dedup.length := by
  apply List.Perm.length_eq
  rw [List.perm_ext_iff_of_nodup r.enclosed.nodup_keys (List.nodup_dedup _)]
  intro symbol
  rw [StringMap.mem_keys_iff, contains_enclosed_iff h, List.mem_dedup]

/-- A target is tracked if it has a scoped definition anywhere in the index. -/
theorem contains_symbol_eq (h : ofPartitions (index.extract policy).partitions = .ok r) :
    (fun m : Mention => r.enclosed.contains m.symbol) = index.tracks policy := by
  funext m
  rw [Bool.eq_iff_iff, contains_enclosed_iff h, Index.tracks, List.contains_iff_mem]

/-- The edges between the merged scopes of an index. -/
def edges (r : ScopeResolution) (index : Index) (policy : ReferencePolicy) : CallEdges :=
  .ofReferences r.enclosed (index.extract policy).references

theorem edgeCount_edges (h : ofPartitions (index.extract policy).partitions = .ok r) :
    (r.edges index policy).edgeCount =
      (index.recordedReferences policy).countP (index.tracks policy) := by
  rw [edges, CallEdges.edgeCount_ofReferences, contains_symbol_eq h]
  exact (recorded_perm_of_ofPartitions h).countP_eq _

theorem dropped_edges (h : ofPartitions (index.extract policy).partitions = .ok r) :
    (r.edges index policy).dropped =
      (index.recordedReferences policy).countP fun m => !index.tracks policy m := by
  rw [← contains_symbol_eq h]
  exact (recorded_perm_of_ofPartitions h).countP_eq _

/-- The tracked references are the edges and those that are left unscoped. -/
theorem total_tracked_edges (h : ofPartitions (index.extract policy).partitions = .ok r) :
    CallEdges.total (r.edges index policy).trackedReferences =
      (r.edges index policy).edgeCount +
        (index.unscopedReferences policy).countP (index.tracks policy) := by
  rw [edgeCount_edges h, ← List.countP_append, ← (index.candidates_perm policy).countP_eq,
    ← contains_symbol_eq h]
  exact CallEdges.total_trackedReferences r.enclosed (index.candidates policy)

theorem unscopedTracked_edges (h : ofPartitions (index.extract policy).partitions = .ok r) :
    (r.edges index policy).unscopedTrackedReferences =
      (index.unscopedReferences policy).countP (index.tracks policy) := by
  rw [CallEdges.unscopedTrackedReferences, total_tracked_edges h, Nat.add_sub_cancel_left]

end ScopeResolution

namespace Pipeline
variable {policy : ReferencePolicy} {index : Index} {result : PipelineResult}

/-- The merged scopes of an index and the graph that is built from them. -/
structure Stages (policy : ReferencePolicy) (index : Index) (r : ScopeResolution) (g : CallGraph) :
    Prop where
  merged : ScopeResolution.ofPartitions (index.extract policy).partitions = .ok r
  built : (r.callTable (index.extract policy).references).build = .ok g

theorem result_of_run (h : (run policy index).result = .ok result) :
    ∃ r g f, Stages policy index r g ∧ g.forest = .ok f ∧
      result = ⟨f, statsOf (index.extract policy) r (r.edges index policy) g f⟩ := by
  unfold run at h
  cases hmerge : ScopeResolution.ofPartitions (index.extract policy).partitions with
  | error e => simp [hmerge] at h
  | ok r =>
    cases hbuild : (r.callTable (index.extract policy).references).build with
    | error e =>
      rw [ScopeResolution.callTable] at hbuild
      simp [hmerge, hbuild] at h
    | ok g =>
      rw [ScopeResolution.callTable] at hbuild
      cases hforest : g.forest with
      | error e => simp [hmerge, hbuild, hforest] at h
      | ok f =>
        simp only [hmerge, hbuild, hforest, Except.ok.injEq] at h
        exact ⟨r, g, f, ⟨hmerge, hbuild⟩, hforest, h.symm⟩

theorem stages_of_run (h : (run policy index).result = .ok result) :
    ∃ r g f, Stages policy index r g ∧
      result.stats = statsOf (index.extract policy) r (r.edges index policy) g f := by
  obtain ⟨r, g, f, hstages, _, rfl⟩ := result_of_run h
  exact ⟨r, g, f, hstages, rfl⟩

theorem Stages.run_eq {r : ScopeResolution} {g : CallGraph} {f : CallForest}
    (h : Stages policy index r g) (hf : g.forest = .ok f) : (run policy index).result =
      .ok ⟨f, statsOf (index.extract policy) r (r.edges index policy) g f⟩ := by
  have hbuilt := h.built
  rw [ScopeResolution.callTable] at hbuilt
  simp only [run, h.merged, hbuilt, hf]
  rfl

namespace Stages
variable {r : ScopeResolution} {g : CallGraph}

theorem keyed (h : Stages policy index r g) :
    (r.callTable (index.extract policy).references).Keyed :=
  (ScopeResolution.tracks_ofPartitions h.merged).keyed

theorem edgeCount_eq (h : Stages policy index r g) :
    g.edgeCount = (index.recordedReferences policy).countP (index.tracks policy) := by
  rw [CallTable.edgeCount_of_build h.keyed h.built]
  exact ScopeResolution.edgeCount_edges h.merged

theorem nodeCount_eq (h : Stages policy index r g) :
    g.nodeCount = (index.scopedSymbols policy).dedup.length := by
  have hkeys : (r.callTable (index.extract policy).references).calls.keys = r.enclosed.keys :=
    StringMap.keys_map _ _
  rw [CallTable.nodeCount_of_build h.keyed h.built, hkeys,
    ScopeResolution.length_keys_enclosed h.merged]

end Stages

/-- What the counters of a run say about its candidate references and scoped definitions. -/
structure Accounts (policy : ReferencePolicy) (index : Index) (stats : PipelineStats) : Prop where
  candidates : stats.extract.references = (index.candidates policy).length
  candidates_perm : index.candidates policy ~
    index.recordedReferences policy ++ index.unscopedReferences policy
  edges : stats.edges = (index.recordedReferences policy).countP (index.tracks policy)
  dropped : stats.droppedReferences =
    (index.recordedReferences policy).countP fun m => !index.tracks policy m
  unscoped : stats.unscopedReferences = (index.unscopedReferences policy).length
  references : stats.extract.references =
    stats.edges + stats.droppedReferences + stats.unscopedReferences
  unscopedTracked : stats.unscopedTrackedReferences =
    (index.unscopedReferences policy).countP (index.tracks policy)
  unscopedTracked_le : stats.unscopedTrackedReferences ≤ stats.unscopedReferences
  unsaturated : ∀ r, ScopeResolution.ofPartitions (index.extract policy).partitions = .ok r →
    (r.edges index policy).edgeCount ≤ CallEdges.total (r.edges index policy).trackedReferences
  nodes : stats.nodes = (index.scopedSymbols policy).dedup.length

theorem Stages.accounts {r : ScopeResolution} {g : CallGraph} (h : Stages policy index r g)
    (f : CallForest) :
    Accounts policy index (statsOf (index.extract policy) r (r.edges index policy) g f) where
  candidates := index.references_stats policy
  candidates_perm := index.candidates_perm policy
  edges := h.edgeCount_eq
  dropped := ScopeResolution.dropped_edges h.merged
  unscoped := ScopeResolution.unscoped_ofPartitions h.merged
  references := by
    have hrecorded : (index.recordedReferences policy).length =
        g.edgeCount + (r.edges index policy).dropped := by
      rw [h.edgeCount_eq, ScopeResolution.dropped_edges h.merged,
        List.length_eq_countP_add_countP (index.tracks policy)]
      simp only [Bool.not_eq_true, Bool.decide_eq_false]
    calc (index.extract policy).stats.references
        = (index.recordedReferences policy ++ index.unscopedReferences policy).length := by
          rw [index.references_stats policy, (index.candidates_perm policy).length_eq]
      _ = g.edgeCount + (r.edges index policy).dropped + r.unscoped := by
          rw [List.length_append, hrecorded, ScopeResolution.unscoped_ofPartitions h.merged]
          rfl
  unscopedTracked := ScopeResolution.unscopedTracked_edges h.merged
  unscopedTracked_le := by
    show (r.edges index policy).unscopedTrackedReferences ≤ r.unscoped
    rw [ScopeResolution.unscopedTracked_edges h.merged,
      ScopeResolution.unscoped_ofPartitions h.merged]
    exact List.countP_le_length
  unsaturated r' hr' := by
    rw [ScopeResolution.total_tracked_edges hr']
    exact Nat.le_add_right _ _
  nodes := h.nodeCount_eq

/-- A run that succeeds accounts for each candidate reference exactly once. -/
theorem run_accounts (config : Config) (index : Index) {result : PipelineResult}
    (h : (run config.analysis.referencePolicy index).result = .ok result) :
    Accounts config.analysis.referencePolicy index result.stats := by
  obtain ⟨r, g, f, hstages, hstats⟩ := stages_of_run h
  rw [hstats]
  exact hstages.accounts f

/-- A run goes through where all references are in one document. -/
theorem exists_result_of_tail
    (h : ∀ d ∈ index.documents.tail, (d.partition policy).references = []) :
    ∃ result, (run policy index).result = .ok result := by
  rcases ScopeResolution.ofPartitions_cases index policy with
    ⟨⟨r, hmerge, hr⟩, _⟩ | ⟨_, symbol, i, j, d, d', hne, hi, hj, hd, hd'⟩
  · obtain ⟨g, f, hg, hf⟩ := hr.exists_forest (index.extract policy).references
    rw [ScopeResolution.callTable] at hg
    simp only [run, hmerge, hg, hf]
    exact ⟨_, rfl⟩
  · have hzero : ∀ (k : Nat) (d : Document), index.documents[k]? = some d →
        d.OwnsCalls policy symbol → k = 0 := by
      intro k d hk howns
      cases k with
      | zero => rfl
      | succ k =>
        rw [← List.getElem?_tail] at hk
        exact absurd (h d (List.mem_of_getElem? hk)) howns.references_ne_nil
    exact absurd ((hzero i d hi hd).trans (hzero j d' hj hd').symm) hne

/-- A call that is listed twice, calls at module level, calls into a library, and a function that
is defined in two documents. -/
def crowded : Index :=
  ⟨[Sample.document "pkg/a.go" [.function Sample.caller 0 5, .call Sample.callee 2 1,
      .call Sample.callee 2 1, .call Sample.libraryCall 3 1, .call Sample.callee 7 1,
      .call Sample.libraryCall 8 1],
    Sample.document "pkg/b.go" [.function Sample.callee 0 2],
    Sample.document "pkg/c.go" [.function Sample.callee 0 2]]⟩

theorem crowded_accounts : ∃ result,
    (run ({} : Config).analysis.referencePolicy crowded).result = .ok result ∧
      Accounts ({} : Config).analysis.referencePolicy crowded result.stats := by
  have hrest : ∀ d ∈ crowded.documents.tail, (d.partition .methods).references = [] := by
    decide +kernel
  obtain ⟨result, hresult⟩ := exists_result_of_tail hrest
  exact ⟨result, hresult, run_accounts {} crowded hresult⟩

end Pipeline
end StaticCalls
