import StaticCalls.Extraction.Policy
import StaticCalls.Workers

/-! Settings of an analysis and of its output. -/
namespace StaticCalls

structure AnalysisSection where
  referencePolicy : ReferencePolicy := .methods
  /-- Whether documents may be worked on side by side; no result depends on it. -/
  parallel : Bool := true
deriving DecidableEq, Repr, Inhabited

/-- Who works on the documents, where `pool` stands ready to do so side by side. -/
def AnalysisSection.workers (analysis : AnalysisSection) (pool : Workers) : Workers :=
  if analysis.parallel then pool else .one

structure OutputSection where
  pretty : Bool := true
deriving DecidableEq, Repr, Inhabited

structure Config where
  analysis : AnalysisSection := {}
  output : OutputSection := {}
deriving DecidableEq, Repr, Inhabited

/-- The name under which a configuration is looked for beside the index. -/
def Config.fileName : String := "charter.toml"

end StaticCalls
