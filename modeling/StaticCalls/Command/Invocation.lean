import StaticCalls.Command.Scan
import StaticCalls.Extraction.Policy

/-! What a command line asks for: options that hold for any command, the name of a command, and
the options of that command. -/
namespace StaticCalls.Command

structure Loudness where
  quiet : Bool := false
deriving DecidableEq, Repr

/-- What every command reads and how. -/
structure AnalysisOptions extends Loudness where
  inputFile : String := "index.scip"
  /-- Without one, a configuration is looked for beside the input. -/
  config : Option String := none
  policy : Option ReferencePolicy := none
  noParallel : Bool := false
deriving DecidableEq, Repr

structure DetectOptions extends AnalysisOptions where
  outputFile : String := "call_graph.json"
  compact : Bool := false
deriving DecidableEq, Repr

inductive ReportFormat where
  | text
  | json
deriving DecidableEq, Repr

structure StatsOptions extends AnalysisOptions where
  /-- How many of the roots are listed. -/
  top : Nat := 10
  format : ReportFormat := .text
deriving DecidableEq, Repr

inductive Invocation where
  | detect (options : DetectOptions)
  | stats (options : StatsOptions)
deriving DecidableEq, Repr

/-! ### Readers of values -/

/-- No file has an empty path. -/
def path? (text : String) : Option String := if text = "" then none else some text

/-- Digits, after a plus sign or not, for a number below 2^64. -/
def count? (text : String) : Option Nat :=
  let digits :=
    match text.toList with
    | '+' :: digits => digits
    | digits => digits
  if digits.isEmpty || !digits.all Char.isDigit then none
  else
    let n := digits.foldl (fun n c => 10 * n + (c.toNat - '0'.toNat)) 0
    if n < UInt64.size then some n else none

def ReportFormat.ofText? (text : String) : Option ReportFormat :=
  if text = "text" then some .text else if text = "json" then some .json else none

/-! ### Rules -/

/-- Log lines have no place in a result, so being verbose changes nothing here. -/
def loudnessRules : List (Rule Loudness) := [
  { name := "verbose", letter := some 'v', repeatable := true, effect := .set id },
  { name := "quiet", letter := some 'q', effect := .set fun o => { o with quiet := true } },
  { name := "help", letter := some 'h', effect := .stop .help }]

def generalRules : List (Rule Loudness) :=
  loudnessRules ++ [{ name := "version", letter := some 'V', effect := .stop .version }]

def analysisRules : List (Rule AnalysisOptions) :=
  loudnessRules.map (.lift fun f o => { o with toLoudness := f o.toLoudness }) ++ [
    { name := "input-file"
      effect := .read fun t => (path? t).map fun p o => { o with inputFile := p } },
    { name := "config"
      effect := .read fun t => (path? t).map fun p o => { o with config := some p } },
    { name := "policy"
      effect := .read fun t => (ReferencePolicy.ofText? t).map fun p o => { o with policy := some p } },
    { name := "no-parallel", effect := .set fun o => { o with noParallel := true } }]

def detectRules : List (Rule DetectOptions) :=
  analysisRules.map (.lift fun f o => { o with toAnalysisOptions := f o.toAnalysisOptions }) ++ [
    { name := "output-file"
      effect := .read fun t => (path? t).map fun p o => { o with outputFile := p } },
    { name := "compact", effect := .set fun o => { o with compact := true } }]

def statsRules : List (Rule StatsOptions) :=
  analysisRules.map (.lift fun f o => { o with toAnalysisOptions := f o.toAnalysisOptions }) ++ [
    { name := "top", effect := .read fun t => (count? t).map fun n o => { o with top := n } },
    { name := "format"
      effect := .read fun t => (ReportFormat.ofText? t).map fun f o => { o with format := f } }]

/-! ### Command lines -/

/-- All words have to be options; two hyphens may close them. -/
def scanAll {α : Type} (rules : List (Rule α)) (start : α) (words : List String) :
    Except Stop α := do
  match ← Settings.scan rules { values := start } words with
  | (s, []) => return s.values
  | (s, ["--"]) => return s.values
  | _ => throw .usage

def commandNames : List String := ["detect", "stats", "help"]

def Invocation.parse (words : List String) : Except Stop Invocation := do
  let (general, rest) ← Settings.scan generalRules { values := {} } words
  match rest with
  | "detect" :: words =>
      return .detect (← scanAll detectRules { toLoudness := general.values } words)
  | "stats" :: words =>
      return .stats (← scanAll statsRules { toLoudness := general.values } words)
  | ["help"] => throw .help
  | ["help", command] => throw (if commandNames.contains command then .help else .usage)
  | _ => throw .usage

end StaticCalls.Command
