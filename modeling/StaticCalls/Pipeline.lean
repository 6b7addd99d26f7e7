import StaticCalls.CallEdges
import StaticCalls.CallGraph.Build
import StaticCalls.CallTree
import StaticCalls.Config
import StaticCalls.Extraction.Elements
import StaticCalls.Scope.Resolution

/-! From an index to its call forest: extraction, scopes, edges, graph, forest. The first
contradiction in the index ends the run. -/
namespace StaticCalls

/-- Counters of one run. -/
structure PipelineStats where
  extract : ExtractStats := {}
  /-- Candidate references outside of all bodies. -/
  unscopedReferences : Nat := 0
  /-- Enclosed references without a tracked target. -/
  droppedReferences : Nat := 0
  /-- References to tracked definitions from outside of all bodies. -/
  unscopedTrackedReferences : Nat := 0
  nodes : Nat := 0
  edges : Nat := 0
  roots : Nat := 0
  maxDepth : Nat := 0
  /-- Left to whoever has a clock. -/
  elapsedMs : Nat := 0

structure PipelineResult where
  forest : CallForest
  stats : PipelineStats

/-- What a run tells about its progress. -/
inductive Progress where
  | start (task : String) (stages : Nat)
  | advance (amount : Nat)
  | message (text : String)
  | finish
deriving DecidableEq, Repr

namespace Pipeline

def stages : List String :=
  ["Extracting occurrences", "Resolving scopes", "Filtering call edges", "Building call graph",
    "Serializing call trees"]

/-- The progress of a run that comes as far as stage `n`. -/
def progressTo (n : Nat) : List Progress :=
  .start "call graph" stages.length ::
    (stages.take n).flatMap fun stage => [.advance 1, .message stage]

structure Run where
  progress : List Progress
  result : Except GraphError PipelineResult

def statsOf (elements : ExtractedElements) (resolution : ScopeResolution) (edges : CallEdges)
    (graph : CallGraph) (forest : CallForest) : PipelineStats where
  extract := elements.stats
  unscopedReferences := resolution.unscoped
  droppedReferences := edges.dropped
  unscopedTrackedReferences := edges.unscopedTrackedReferences
  nodes := graph.nodeCount
  edges := graph.edgeCount
  roots := forest.roots.length
  maxDepth := (forest.roots.filterMap CallTree.depth).foldl max 0

def run (policy : ReferencePolicy) (index : Index) (workers : Workers := .one) : Run :=
  let elements := index.extract policy workers
  match ScopeResolution.ofPartitions elements.partitions workers with
  | .error e => ⟨progressTo 2, .error e⟩
  | .ok resolution =>
      let edges := CallEdges.ofReferences resolution.enclosed elements.references
      match CallTable.build ⟨resolution.definitions, edges.calls⟩ with
      | .error e => ⟨progressTo 4, .error e⟩
      | .ok graph =>
          match graph.forest with
          | .error e => ⟨progressTo 5, .error e⟩
          | .ok forest =>
              ⟨progressTo 5 ++ [.finish],
                .ok ⟨forest, statsOf elements resolution edges graph forest⟩⟩

/-- A run comes to the same whether documents are worked on side by side or not. -/
theorem run_workers (policy : ReferencePolicy) (index : Index) (workers : Workers) :
    run policy index workers = run policy index := by
  rw [run, run, index.extract_workers, ScopeResolution.ofPartitions_eq,
    ScopeResolution.ofPartitions_eq]

/-- A contradiction found by a run, as it is reported. -/
def errorMessage (e : GraphError) : String := "Call graph invariant violated: " ++ e.message

end Pipeline
end StaticCalls
