import StaticCalls.Json.Writer
import StaticCalls.Rendition.Stats

/-! The statistics of a run as a text of aligned columns or as JSON. -/
namespace StaticCalls.Command

/-- Blanks in front, up to a width. -/
def alignRight (width : Nat) (s : String) : String := "".pushn ' ' (width - s.length) ++ s

def alignLeft (width : Nat) (s : String) : String := s.pushn ' ' (width - s.length)

/-- A counter under its label; the number ends in column 28. -/
def counterLine (label : String) (n : Nat) : String :=
  alignLeft 20 ("  " ++ label ++ ":") ++ alignRight 8 n.repr

def kindOrder (a b : String × Nat) : Ordering := (compare b.2 a.2).then (compare a.1 b.1)

/-- The most frequent kind first. -/
def kindLines (counts : StringMap Nat) : List String :=
  if counts.isEmpty then []
  else "  Symbol kinds:" :: (counts.entries.mergeSort fun a b => (kindOrder a b).isLE).map
    fun (kind, count) => "    " ++ alignLeft 20 kind ++ " " ++ alignRight 6 count.repr

def extractLines (s : ExtractStats) : List String :=
  ["Extraction:", counterLine "Documents" s.documents, counterLine "Occurrences" s.occurrences,
    counterLine "Locals skipped" s.localsSkipped, counterLine "Definitions" s.definitions,
    counterLine "References" s.references, counterLine "Unparseable" s.skipped.length] ++
    kindLines s.kindCounts

def graphLines (s : PipelineStats) : List String :=
  ["Call graph:", counterLine "Nodes" s.nodes, counterLine "Edges" s.edges,
    counterLine "Roots" s.roots, counterLine "Max depth" s.maxDepth,
    counterLine "Unscoped refs" s.unscopedReferences,
    counterLine "Untracked calls" s.droppedReferences,
    alignLeft 20 "  Elapsed:" ++ alignRight 6 s.elapsedMs.repr ++ "ms"]

def rankLine (number depth symbol : String) : String :=
  alignLeft 4 number ++ " " ++ alignRight 6 depth ++ "  " ++ symbol

def rootLines (roots : List RankedRoot) : List String :=
  ["Top " ++ roots.length.repr ++ " roots by depth:", rankLine "#" "Depth" "Symbol",
    "".pushn '-' 80] ++
    roots.zipIdx.map fun (root, i) => rankLine (i + 1).repr root.depth.repr root.symbol

def topRoots (result : PipelineResult) (top : Nat) : List RankedRoot :=
  result.forest.rankedRoots.take top

def textReport (result : PipelineResult) (top : Nat) : String :=
  let lines := extractLines result.stats.extract ++ [""] ++ graphLines result.stats ++ [""] ++
    rootLines (topRoots result top)
  String.join (lines.map (· ++ "\n"))

/-- Keys stand in ascending order. -/
def jsonReport (result : PipelineResult) (top : Nat) : String :=
  let report : Json := .object [("stats", result.stats.toJson),
    ("top_roots", .list RankedRoot.toJson (topRoots result top))]
  report.sortKeys.pretty ++ "\n"

end StaticCalls.Command
