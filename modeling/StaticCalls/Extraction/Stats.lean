import StaticCalls.StringMap

/-! Counters of an extraction. None of them has an effect on the call graph. -/
namespace StaticCalls

/-- An occurrence left out because its symbol has no parse. -/
structure SkippedSymbol where
  symbol : String
  document : String
  reason : String
deriving DecidableEq, Repr

structure ExtractStats where
  documents : Nat := 0
  occurrences : Nat := 0
  localsSkipped : Nat := 0
  definitions : Nat := 0
  references : Nat := 0
  skipped : List SkippedSymbol := []
  /-- How many symbols of the merged symbol tables have each kind. -/
  kindCounts : StringMap Nat := .empty
  /-- How many classified occurrences have each last descriptor. -/
  suffixCounts : StringMap Nat := .empty

namespace ExtractStats

/-- Kinds belong to the merged symbol tables, so two counters do not add theirs up. -/
def merge (a b : ExtractStats) : ExtractStats where
  documents := a.documents + b.documents
  occurrences := a.occurrences + b.occurrences
  localsSkipped := a.localsSkipped + b.localsSkipped
  definitions := a.definitions + b.definitions
  references := a.references + b.references
  skipped := a.skipped ++ b.skipped
  kindCounts := a.kindCounts
  suffixCounts := a.suffixCounts.add b.suffixCounts

end ExtractStats
end StaticCalls
