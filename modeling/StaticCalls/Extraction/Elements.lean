import StaticCalls.Extraction.Partition
import StaticCalls.Workers

/-! The extraction of a whole index: its documents one by one, merged in index order. -/
namespace StaticCalls

structure ExtractedElements where
  /-- At most one scoped definition per symbol. -/
  definitions : StringMap Mention
  /-- The candidate references of all documents by target symbol. -/
  references : SymbolMentions
  symbols : StringMap SymbolInformation
  partitions : List Partition
  stats : ExtractStats

namespace Index

/-- Of several entries for one symbol the last one stays, in document order, then table order. -/
def symbolTable (index : Index) : StringMap SymbolInformation :=
  .ofList ((index.documents.flatMap Document.symbols).map fun info => (info.symbol, info))

def kindText (info : SymbolInformation) : String :=
  if info.kind = "" then "Unspecified" else info.kind

def extract (index : Index) (policy : ReferencePolicy) (workers : Workers := .one) :
    ExtractedElements :=
  let partitions := workers.map (·.partition policy) index.documents
  let symbols := index.symbolTable
  let stats := (workers.map (·.extractStats policy) index.documents).foldl ExtractStats.merge {}
  { definitions := .ofList (partitions.flatMap fun p => p.definitions.entries)
    references := .groupBy Mention.symbol (partitions.flatMap Partition.references)
    symbols
    partitions
    stats := { stats with kindCounts := .histogram (symbols.values.map kindText) } }

theorem extract_workers (index : Index) (policy : ReferencePolicy) (workers : Workers) :
    index.extract policy workers = index.extract policy := by
  simp only [extract, Workers.map_eq]

end Index
end StaticCalls
