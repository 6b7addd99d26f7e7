import StaticCalls.Command.Invocation
import StaticCalls.Command.Report
import StaticCalls.ConfigFile
import StaticCalls.IndexFile
import StaticCalls.Rendition.CallTree

/-! Carrying out a command: configuration, index, call graph, output, in this order. The first
stage that fails ends the command. -/
namespace StaticCalls.Command

/-- What a command works with. -/
structure Environment (m : Type → Type) where
  files : FileSystem m
  /-- Carries out a computation and tells the milliseconds that it took. -/
  time : {α : Type} → (Unit → α) → m (α × Nat)

/-- The stage that failed, the path it was about, and why. -/
inductive Failure where
  | config (path : String) (error : ConfigError)
  | index (path : String) (error : LoadError)
  | graph (error : GraphError)
  | directory (path : String) (error : FileError)
  | output (path : String) (error : FileError)
deriving DecidableEq, Repr

namespace Failure

/-- A contradiction in the index is reported together with its own words. -/
def message : Failure → String
  | config path e => "Cannot load config: " ++ path ++ ": " ++ e.message
  | index path e => "Cannot read index: " ++ path ++ ": " ++ e.chain
  | graph e => Pipeline.errorMessage e ++ ": " ++ e.message
  | directory path e => "Cannot create output directory: " ++ path ++ ": " ++ e.message
  | output path e => "Cannot write output: " ++ path ++ ": " ++ e.message

def occursIn (words : List Char) : List Char → Bool
  | [] => words.isEmpty
  | c :: rest => words.isPrefixOf (c :: rest) || occursIn words rest

theorem occursIn_iff {words text : List Char} : occursIn words text ↔ words <:+: text := by
  induction text with
  | nil => simp [occursIn]
  | cons c rest ih => simp [occursIn, List.infix_cons_iff, ih]

/-- The letters of the text may be large or small. -/
def mentions (text words : String) : Bool :=
  occursIn words.toList (text.toList.map Char.toLower)

/-- Trouble with the output has no code of its own: the words of its message decide. -/
def codeOfWords (message : String) : UInt32 :=
  if mentions message "config" then 2
  else if mentions message "index file not found" || mentions message "cannot read index" then 3
  else 1

def exitCode (failure : Failure) : UInt32 :=
  match failure with
  | config _ _ => 2
  | index _ _ => 3
  | graph _ => 4
  | directory _ _ => codeOfWords failure.message
  | output _ _ => codeOfWords failure.message

end Failure

/-- What a command leaves behind, apart from files. -/
structure Outcome where
  exitCode : UInt32
  output : String
  errorOutput : String
deriving DecidableEq, Repr

namespace Outcome

def ofResult : Except Failure String → Outcome
  | .ok output => ⟨0, output, ""⟩
  | .error failure => ⟨failure.exitCode, "", "Error: " ++ failure.message ++ "\n"⟩

def usage : String :=
  "Usage: charter [-v...] [-q] detect [--input-file PATH] [--config PATH] " ++
    "[--policy methods|any] [--no-parallel] [--output-file PATH] [--compact]\n" ++
  "       charter [-v...] [-q] stats [--input-file PATH] [--config PATH] " ++
    "[--policy methods|any] [--no-parallel] [--top N] [--format text|json]\n"

def ofStop : Stop → Outcome
  | .usage => ⟨2, "", usage⟩
  | .help => ⟨0, usage, ""⟩
  | .version => ⟨0, "charter 0.2.0\n", ""⟩

end Outcome

/-- The path of the configuration that goes with an input. -/
def configPathBeside (input : String) : String :=
  match Path.parent? input with
  | some directory => Path.join directory Config.fileName
  | none => Config.fileName

def AnalysisOptions.override (options : AnalysisOptions) (config : Config) : Config :=
  { config with
    analysis := {
      referencePolicy := options.policy.getD config.analysis.referencePolicy
      parallel := config.analysis.parallel && !options.noParallel } }

def detectedText (stats : PipelineStats) (path : String) : String :=
  "Wrote " ++ stats.roots.repr ++ " call trees (" ++ stats.nodes.repr ++ " nodes, " ++
    stats.edges.repr ++ " edges, max depth " ++ stats.maxDepth.repr ++ ") to " ++ path ++ "\n"

section
variable {m : Type → Type} [Monad m]

def AnalysisOptions.resolveConfig (options : AnalysisOptions) (env : Environment m) :
    ExceptT Failure m Config := do
  let path := options.config.getD (configPathBeside options.inputFile)
  let load := if options.config.isSome then Config.load else Config.loadOrDefault
  match ← (load env.files path : m _) with
  | .ok config => return options.override config
  | .error e => throw (.config path e)

def AnalysisOptions.loadIndex (options : AnalysisOptions) (env : Environment m) :
    ExceptT Failure m Index := do
  match ← (Index.load env.files options.inputFile : m _) with
  | .ok index => return index
  | .error e => throw (.index options.inputFile e)

def analyze (env : Environment m) (config : Config) (index : Index) :
    ExceptT Failure m PipelineResult := do
  let (run, elapsed) ← env.time fun _ =>
    Pipeline.run config.analysis.referencePolicy index (config.analysis.workers .tasks)
  match run.result with
  | .ok result => return { result with stats := { result.stats with elapsedMs := elapsed } }
  | .error e => throw (.graph e)

/-- Writes a file, after the directories it goes into. -/
def writeOutput (env : Environment m) (path text : String) : ExceptT Failure m Unit := do
  match Path.parent? path with
  | none => pure ()
  | some directory =>
      if directory ≠ "" then
        match ← env.files.createDirectories directory with
        | .ok () => pure ()
        | .error e => throw (.directory directory e)
  match ← env.files.write path text.toUTF8.toList with
  | .ok () => pure ()
  | .error e => throw (.output path e)

def DetectOptions.run (options : DetectOptions) (env : Environment m) : ExceptT Failure m String := do
  let config ← options.resolveConfig env
  let index ← options.loadIndex env
  let result ← analyze env config index
  let pretty := config.output.pretty && !options.compact
  writeOutput env options.outputFile
    (if pretty then result.forest.pretty else result.forest.compact)
  return if options.quiet then "" else detectedText result.stats options.outputFile

def StatsOptions.run (options : StatsOptions) (env : Environment m) : ExceptT Failure m String := do
  let config ← options.resolveConfig env
  let index ← options.loadIndex env
  let result ← analyze env config index
  return match options.format with
    | .text => textReport result options.top
    | .json => jsonReport result options.top

def Invocation.run (invocation : Invocation) (env : Environment m) : ExceptT Failure m String :=
  match invocation with
  | .detect options => options.run env
  | .stats options => options.run env

/-- Answers the words of a command line. -/
def respond (env : Environment m) (words : List String) : m Outcome := do
  match Invocation.parse words with
  | .error reason => return .ofStop reason
  | .ok invocation => return .ofResult (← (invocation.run env).run)

end
end StaticCalls.Command
