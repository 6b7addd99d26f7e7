import StaticCalls.Json.Record
import StaticCalls.Pipeline

/-! The JSON rendition of counters and ranked roots. -/
namespace StaticCalls
open Json (Decoder)

namespace SkippedSymbol

def toJson (s : SkippedSymbol) : Json :=
  .object [("symbol", .string s.symbol), ("document", .string s.document),
    ("reason", .string s.reason)]

def ofJson? : Decoder SkippedSymbol := fun room v => do
  let r ← Json.record? ["symbol", "document", "reason"] room v
  return ⟨← r.required "symbol" Json.string?, ← r.required "document" Json.string?,
    ← r.required "reason" Json.string?⟩

end SkippedSymbol

namespace ExtractStats

def toJson (s : ExtractStats) : Json :=
  .object [("documents", .nat s.documents), ("occurrences", .nat s.occurrences),
    ("locals_skipped", .nat s.localsSkipped), ("definitions", .nat s.definitions),
    ("references", .nat s.references), ("skipped", .list SkippedSymbol.toJson s.skipped),
    ("kind_counts", Json.ofMap .nat s.kindCounts),
    ("suffix_counts", Json.ofMap .nat s.suffixCounts)]

def ofJson? : Decoder ExtractStats := fun room v => do
  let r ← Json.record? ["documents", "occurrences", "locals_skipped", "definitions", "references",
    "skipped", "kind_counts", "suffix_counts"] room v
  return {
    documents := ← r.required "documents" Json.size?
    occurrences := ← r.required "occurrences" Json.size?
    localsSkipped := ← r.required "locals_skipped" Json.size?
    definitions := ← r.required "definitions" Json.size?
    references := ← r.required "references" Json.size?
    skipped := ← r.required "skipped" (Json.list? SkippedSymbol.ofJson?)
    kindCounts := ← r.required "kind_counts" (Json.map? Json.size?)
    suffixCounts := ← r.required "suffix_counts" (Json.map? Json.size?) }

end ExtractStats

namespace PipelineStats

def toJson (s : PipelineStats) : Json :=
  .object [("extract", s.extract.toJson), ("unscoped_references", .nat s.unscopedReferences),
    ("dropped_references", .nat s.droppedReferences),
    ("unscoped_tracked_references", .nat s.unscopedTrackedReferences), ("nodes", .nat s.nodes),
    ("edges", .nat s.edges), ("roots", .nat s.roots), ("max_depth", .nat s.maxDepth),
    ("elapsed_ms", .nat s.elapsedMs)]

def ofJson? : Decoder PipelineStats := fun room v => do
  let r ← Json.record? ["extract", "unscoped_references", "dropped_references",
    "unscoped_tracked_references", "nodes", "edges", "roots", "max_depth", "elapsed_ms"] room v
  return {
    extract := ← r.required "extract" ExtractStats.ofJson?
    unscopedReferences := ← r.required "unscoped_references" Json.size?
    droppedReferences := ← r.required "dropped_references" Json.size?
    unscopedTrackedReferences := ← r.required "unscoped_tracked_references" Json.size?
    nodes := ← r.required "nodes" Json.size?
    edges := ← r.required "edges" Json.size?
    roots := ← r.required "roots" Json.size?
    maxDepth := ← r.required "max_depth" Json.size?
    elapsedMs := ← r.required "elapsed_ms" Json.size? }

end PipelineStats

namespace RankedRoot

def toJson (r : RankedRoot) : Json :=
  .object [("symbol", .string r.symbol), ("depth", .nat r.depth)]

def ofJson? : Decoder RankedRoot := fun room v => do
  let r ← Json.record? ["symbol", "depth"] room v
  return ⟨← r.required "symbol" Json.string?, ← r.required "depth" Json.size?⟩

end RankedRoot

end StaticCalls
