import StaticCalls.Proofs.Command.Wording
import StaticCalls.Proofs.Except
import StaticCalls.Proofs.Files.Tree

/-! What a command comes to, told from its stages. Each of the first three is asked on its own, in the
state at the start, since none of them changes it; the first one that fails ends the command
(`respond_tells_stage`). -/
namespace StaticCalls.Command
variable {σ : Type} {env : Environment (StateM σ)} {s s' : σ}

/-- Files change only when something is made or written, and computations are carried out. -/
structure Environment.Faithful (env : Environment (StateM σ)) : Prop where
  files : env.files.Passive
  time : ∀ {α : Type} (f : Unit → α) (s : σ), ∃ elapsed, (env.time f).run s = ((f (), elapsed), s)

/-! ### The stages -/

namespace AnalysisOptions

def configPath (o : AnalysisOptions) : String := o.config.getD (configPathBeside o.inputFile)

/-- A configuration that is asked for has to be there. -/
def configured (o : AnalysisOptions) (env : Environment (StateM σ)) (s : σ) :
    Except ConfigError Config :=
  ((if o.config.isSome then Config.load env.files o.configPath
    else Config.loadOrDefault env.files o.configPath).run s).1

def loaded (o : AnalysisOptions) (env : Environment (StateM σ)) (s : σ) : Except LoadError Index :=
  ((Index.load env.files o.inputFile).run s).1

def analyzed (o : AnalysisOptions) (config : Config) (index : Index) :
    Except GraphError PipelineResult :=
  (Pipeline.run (o.override config).analysis.referencePolicy index).result

end AnalysisOptions

/-- What is read before anything is written. -/
structure Reading where
  config : Config
  index : Index
  result : PipelineResult

/-- The first three stages succeed with this. -/
structure Reads (env : Environment (StateM σ)) (s : σ) (o : AnalysisOptions) (r : Reading) :
    Prop where
  configured : o.configured env s = .ok r.config
  loaded : o.loaded env s = .ok r.index
  analyzed : o.analyzed r.config r.index = .ok r.result

/-- The directory that an output goes into, if its path names one. -/
def outputDirectory? (path : String) : Option String := (Path.parent? path).filter (· ≠ "")

/-- The state in which the output is written, or why its directory cannot be made. -/
def prepared (env : Environment (StateM σ)) (path : String) (s : σ) : Except FileError Unit × σ :=
  match outputDirectory? path with
  | none => (.ok (), s)
  | some directory => (env.files.createDirectories directory).run s

/-- What is written by `detect`. -/
def DetectOptions.text (o : DetectOptions) (r : Reading) : String :=
  if (o.override r.config).output.pretty && !o.compact then r.result.forest.pretty
  else r.result.forest.compact

def Invocation.options : Invocation → AnalysisOptions
  | detect o => o.toAnalysisOptions
  | stats o => o.toAnalysisOptions

/-- The failure of the first stage that fails. -/
inductive FailsFirst (env : Environment (StateM σ)) (s : σ) : Invocation → Failure → Prop
  | configuration {i : Invocation} {e : ConfigError}
      (h : i.options.configured env s = .error e) :
      FailsFirst env s i (.config i.options.configPath e)
  | loading {i : Invocation} {config : Config} {e : LoadError}
      (hconfig : i.options.configured env s = .ok config)
      (h : i.options.loaded env s = .error e) :
      FailsFirst env s i (.index i.options.inputFile e)
  | analysis {i : Invocation} {config : Config} {index : Index} {e : GraphError}
      (hconfig : i.options.configured env s = .ok config)
      (hindex : i.options.loaded env s = .ok index)
      (h : i.options.analyzed config index = .error e) :
      FailsFirst env s i (.graph e)
  | directory {o : DetectOptions} {r : Reading} {path : String} {e : FileError}
      (hreads : Reads env s o.toAnalysisOptions r)
      (hpath : outputDirectory? o.outputFile = some path)
      (h : ((env.files.createDirectories path).run s).1 = .error e) :
      FailsFirst env s (.detect o) (.directory path e)
  | output {o : DetectOptions} {r : Reading} {s' : σ} {e : FileError}
      (hreads : Reads env s o.toAnalysisOptions r)
      (hprepared : prepared env o.outputFile s = (.ok (), s'))
      (h : ((env.files.write o.outputFile (o.text r).toUTF8.toList).run s').1 = .error e) :
      FailsFirst env s (.detect o) (.output o.outputFile e)

/-! ### What the stages do -/

theorem snd_run_configLoad (h : env.files.Passive) (path : String) (s : σ) :
    ((Config.load env.files path).run s).2 = s := by
  rw [Config.load, run_bind_eq (h.run_read path s)]
  split
  next => split <;> rfl
  next => rfl

theorem snd_run_loadOrDefault (h : env.files.Passive) (path : String) (s : σ) :
    ((Config.loadOrDefault env.files path).run s).2 = s := by
  rw [Config.loadOrDefault, run_bind_eq (h.run_isThere path s)]
  split
  next => exact snd_run_configLoad h path s
  next => rfl

theorem snd_run_indexLoad (h : env.files.Passive) (path : String) (s : σ) :
    ((Index.load env.files path).run s).2 = s := by
  rw [Index.load, run_bind_eq (h.run_isThere path s)]
  split
  next => rfl
  next =>
    rw [run_bind_eq (h.run_read path s)]
    split <;> rfl

namespace AnalysisOptions

theorem run_resolveConfig (h : env.files.Passive) (o : AnalysisOptions) (s : σ) :
    (o.resolveConfig env).run.run s =
      (((o.configured env s).map o.override).mapError (.config o.configPath), s) := by
  have hload : ((if o.config.isSome then Config.load else Config.loadOrDefault)
      env.files o.configPath).run s = (o.configured env s, s) := by
    rw [configured]
    split
    next => exact Prod.ext rfl (snd_run_configLoad h _ s)
    next => exact Prod.ext rfl (snd_run_loadOrDefault h _ s)
  rw [configPath] at hload
  rw [resolveConfig, run_bind_ok (run_lift_eq hload)]
  cases o.configured env s <;> rfl

theorem run_loadIndex (h : env.files.Passive) (o : AnalysisOptions) (s : σ) :
    (o.loadIndex env).run.run s = ((o.loaded env s).mapError (.index o.inputFile), s) := by
  have hload : (Index.load env.files o.inputFile).run s = (o.loaded env s, s) :=
    Prod.ext rfl (snd_run_indexLoad h _ s)
  rw [loadIndex, run_bind_ok (run_lift_eq hload)]
  cases o.loaded env s <;> rfl

theorem run_analyze (h : env.Faithful) (o : AnalysisOptions) (config : Config) (index : Index)
    (s : σ) : ∃ elapsed, (analyze env (o.override config) index).run.run s =
      (((o.analyzed config index).map fun result =>
        { result with stats := { result.stats with elapsedMs := elapsed } }).mapError .graph, s) := by
  obtain ⟨elapsed, htime⟩ := h.time
    (fun _ => Pipeline.run (o.override config).analysis.referencePolicy index) s
  refine ⟨elapsed, ?_⟩
  rw [analyze, Pipeline.run_workers, run_bind_ok (run_lift_eq htime), analyzed]
  dsimp only
  cases (Pipeline.run (o.override config).analysis.referencePolicy index).result <;> rfl

end AnalysisOptions

theorem run_writeFile {path text : String} {answer : Except FileError Unit}
    (h : (env.files.write path text.toUTF8.toList).run s = (answer, s')) : (do
      match ← (env.files.write path text.toUTF8.toList : StateM σ _) with
      | .ok () => pure ()
      | .error e => throw (.output path e) : ExceptT Failure (StateM σ) Unit).run.run s =
        (answer.mapError (.output path), s') := by
  rw [run_bind_ok (run_lift_eq h)]
  cases answer <;> rfl

theorem run_writeOutput_of_none {path text : String} {answer : Except FileError Unit}
    (hpath : outputDirectory? path = none)
    (h : (env.files.write path text.toUTF8.toList).run s = (answer, s')) :
    (writeOutput env path text).run.run s = (answer.mapError (.output path), s') := by
  unfold writeOutput
  cases hparent : Path.parent? path with
  | none => exact run_writeFile h
  | some directory =>
    have hempty : directory = "" := by simpa [outputDirectory?, hparent] using hpath
    subst hempty
    exact run_writeFile h

theorem run_writeOutput_of_made {path text directory : String} {answer : Except FileError Unit}
    {s'' : σ} (hpath : outputDirectory? path = some directory)
    (hmade : (env.files.createDirectories directory).run s = (.ok (), s'))
    (h : (env.files.write path text.toUTF8.toList).run s' = (answer, s'')) :
    (writeOutput env path text).run.run s = (answer.mapError (.output path), s'') := by
  obtain ⟨hparent, hne⟩ := Option.filter_eq_some_iff.mp hpath
  unfold writeOutput
  rw [hparent]
  dsimp only
  rw [if_pos (by simpa using hne), run_bind_ok (run_lift_eq hmade)]
  exact run_writeFile h

theorem run_writeOutput_of_not_made {path text directory : String} {e : FileError}
    (hpath : outputDirectory? path = some directory)
    (hmade : (env.files.createDirectories directory).run s = (.error e, s')) :
    (writeOutput env path text).run.run s = (.error (.directory directory e), s') := by
  obtain ⟨hparent, hne⟩ := Option.filter_eq_some_iff.mp hpath
  unfold writeOutput
  rw [hparent]
  dsimp only
  rw [if_pos (by simpa using hne), run_bind_ok (run_lift_eq hmade)]
  rfl

theorem run_writeOutput_of_prepared {path text : String} {answer : Except FileError Unit} {s'' : σ}
    (hprepared : prepared env path s = (.ok (), s'))
    (h : (env.files.write path text.toUTF8.toList).run s' = (answer, s'')) :
    (writeOutput env path text).run.run s = (answer.mapError (.output path), s'') := by
  cases hpath : outputDirectory? path with
  | none =>
    rw [prepared, hpath] at hprepared
    cases hprepared
    exact run_writeOutput_of_none hpath h
  | some directory =>
    rw [prepared, hpath] at hprepared
    exact run_writeOutput_of_made hpath hprepared h

/-! ### The command -/

/-- What comes after the first three stages. -/
def Invocation.finish (env : Environment (StateM σ)) : Invocation → Config → PipelineResult →
    ExceptT Failure (StateM σ) String
  | detect o, config, result => do
      writeOutput env o.outputFile (if config.output.pretty && !o.compact then result.forest.pretty
        else result.forest.compact)
      return if o.quiet then "" else detectedText result.stats o.outputFile
  | stats o, _, result => return match o.format with
      | .text => textReport result o.top
      | .json => jsonReport result o.top

theorem Invocation.run_eq (i : Invocation) : i.run env = (do
    let config ← i.options.resolveConfig env
    let index ← i.options.loadIndex env
    let result ← analyze env config index
    i.finish env config result) := by
  cases i <;> rfl

section
variable {i : Invocation} {f : Failure}

/-- Once everything is read, the result differs from that of the pipeline in its time at most. -/
theorem run_of_reads (henv : env.Faithful) {r : Reading} (h : Reads env s i.options r) :
    ∃ result, result.forest = r.result.forest ∧ (i.run env).run.run s =
      (i.finish env (i.options.override r.config) result).run.run s := by
  obtain ⟨elapsed, hanalyze⟩ := i.options.run_analyze henv r.config r.index s
  have hconfig := i.options.run_resolveConfig henv.files s
  have hindex := i.options.run_loadIndex henv.files s
  rw [h.configured] at hconfig
  rw [h.loaded] at hindex
  rw [h.analyzed] at hanalyze
  refine ⟨{ r.result with stats := { r.result.stats with elapsedMs := elapsed } }, rfl, ?_⟩
  rw [i.run_eq, run_bind_ok hconfig, run_bind_ok hindex, run_bind_ok hanalyze]

theorem run_detect_of_prepared (henv : env.Faithful) {o : DetectOptions} {r : Reading}
    {answer : Except FileError Unit} {s'' : σ} (h : Reads env s o.toAnalysisOptions r)
    (hprepared : prepared env o.outputFile s = (.ok (), s'))
    (hanswer : (env.files.write o.outputFile (o.text r).toUTF8.toList).run s' = (answer, s'')) :
    ∃ message, ((Invocation.detect o).run env).run.run s =
      ((answer.mapError (.output o.outputFile)).map fun _ => message, s'') := by
  obtain ⟨result, hforest, hrun⟩ := run_of_reads henv (i := .detect o) h
  have hwritten := run_writeOutput_of_prepared hprepared hanswer
  refine ⟨if o.quiet then "" else detectedText result.stats o.outputFile, ?_⟩
  rw [hrun, Invocation.finish, hforest]
  cases answer with
  | error e => exact run_bind_error hwritten _
  | ok _ => exact run_bind_ok hwritten _

theorem run_detect_of_not_made (henv : env.Faithful) {o : DetectOptions} {r : Reading}
    {directory : String} {e : FileError} (h : Reads env s o.toAnalysisOptions r)
    (hpath : outputDirectory? o.outputFile = some directory)
    (hmade : (env.files.createDirectories directory).run s = (.error e, s')) :
    ((Invocation.detect o).run env).run.run s = (.error (.directory directory e), s') := by
  obtain ⟨result, hforest, hrun⟩ := run_of_reads henv (i := .detect o) h
  rw [hrun, Invocation.finish, hforest]
  exact run_bind_error (run_writeOutput_of_not_made hpath hmade) _

theorem run_of_failsFirst (henv : env.Faithful) (h : FailsFirst env s i f) :
    ∃ s', (i.run env).run.run s = (.error f, s') ∧ (f.stage ≠ .output → s' = s) := by
  cases h with
  | configuration h =>
    have hconfig := i.options.run_resolveConfig henv.files s
    rw [h] at hconfig
    exact ⟨s, by rw [i.run_eq, run_bind_error hconfig], fun _ => rfl⟩
  | loading hok h =>
    have hconfig := i.options.run_resolveConfig henv.files s
    have hindex := i.options.run_loadIndex henv.files s
    rw [hok] at hconfig
    rw [h] at hindex
    exact ⟨s, by rw [i.run_eq, run_bind_ok hconfig, run_bind_error hindex], fun _ => rfl⟩
  | analysis hok hok' h =>
    have hconfig := i.options.run_resolveConfig henv.files s
    have hindex := i.options.run_loadIndex henv.files s
    obtain ⟨_, hanalyze⟩ := i.options.run_analyze henv _ _ s
    rw [hok] at hconfig
    rw [hok'] at hindex
    rw [h] at hanalyze
    exact ⟨s, by rw [i.run_eq, run_bind_ok hconfig, run_bind_ok hindex, run_bind_error hanalyze],
      fun _ => rfl⟩
  | directory hreads hpath h =>
    have hrun := run_detect_of_not_made henv hreads hpath (Prod.ext h rfl)
    exact ⟨_, hrun, fun hstage => absurd rfl hstage⟩
  | output hreads hprepared h =>
    obtain ⟨message, hrun⟩ := run_detect_of_prepared henv hreads hprepared (Prod.ext h rfl)
    exact ⟨_, hrun, fun hstage => absurd rfl hstage⟩

theorem failsFirst_or_reads (env : Environment (StateM σ)) (i : Invocation) (s : σ) :
    (∃ f, FailsFirst env s i f) ∨ ∃ r, Reads env s i.options r := by
  cases hconfig : i.options.configured env s with
  | error e => exact .inl ⟨_, .configuration hconfig⟩
  | ok config =>
    cases hindex : i.options.loaded env s with
    | error e => exact .inl ⟨_, .loading hconfig hindex⟩
    | ok index =>
      cases hanalyzed : i.options.analyzed config index with
      | error e => exact .inl ⟨_, .analysis hconfig hindex hanalyzed⟩
      | ok result => exact .inr ⟨⟨config, index, result⟩, hconfig, hindex, hanalyzed⟩

theorem failsFirst_or_prepared {o : DetectOptions} {r : Reading}
    (h : Reads env s o.toAnalysisOptions r) : (∃ f, FailsFirst env s (.detect o) f) ∨
      ∃ s', prepared env o.outputFile s = (.ok (), s') := by
  rw [prepared]
  cases hpath : outputDirectory? o.outputFile with
  | none => exact .inr ⟨s, rfl⟩
  | some directory =>
    rcases hmade : (env.files.createDirectories directory).run s with ⟨answer, s'⟩
    cases answer with
    | error e => exact .inl ⟨_, .directory h hpath (congrArg Prod.fst hmade)⟩
    | ok _ => exact .inr ⟨s', hmade⟩

/-- A command that does not succeed has a stage that fails first. -/
theorem run_cases (henv : env.Faithful) (i : Invocation) (s : σ) :
    (∃ f, FailsFirst env s i f) ∨ ∃ text s', (i.run env).run.run s = (.ok text, s') := by
  rcases failsFirst_or_reads env i s with hfails | ⟨r, hreads⟩
  · exact .inl hfails
  cases i with
  | stats o =>
    obtain ⟨_, _, hrun⟩ := run_of_reads henv hreads
    exact .inr ⟨_, s, hrun⟩
  | detect o =>
    rcases failsFirst_or_prepared hreads with hfails | ⟨s', hprepared⟩
    · exact .inl hfails
    rcases hanswer : (env.files.write o.outputFile (o.text r).toUTF8.toList).run s' with
      ⟨answer, s''⟩
    cases answer with
    | error e => exact .inl ⟨_, .output hreads hprepared (congrArg Prod.fst hanswer)⟩
    | ok _ =>
      obtain ⟨message, hrun⟩ := run_detect_of_prepared henv hreads hprepared hanswer
      exact .inr ⟨message, s'', hrun⟩

theorem FailsFirst.unique (henv : env.Faithful) {f' : Failure} (h : FailsFirst env s i f)
    (h' : FailsFirst env s i f') : f = f' := by
  obtain ⟨_, hrun, _⟩ := run_of_failsFirst henv h
  obtain ⟨_, hrun', _⟩ := run_of_failsFirst henv h'
  rw [hrun] at hrun'
  cases hrun'
  rfl

theorem run_respond {words : List String} {result : Except Failure String}
    (hwords : Invocation.parse words = .ok i) (h : (i.run env).run.run s = (result, s')) :
    (respond env words).run s = (.ofResult result, s') := by
  rw [respond, hwords]
  exact run_bind_eq h _

/-- What the answer tells about the stages of the command. -/
structure TellsStage (env : Environment (StateM σ)) (i : Invocation) (s : σ)
    (answer : Outcome × σ) : Prop where
  success_iff : answer.1.exitCode = 0 ↔ ¬ ∃ f, FailsFirst env s i f
  unique : ∀ f f', FailsFirst env s i f → FailsFirst env s i f' → f = f'
  code_iff : ∀ f, FailsFirst env s i f → (answer.1.exitCode = f.stage.code ↔ ¬ f.Misled)
  misled : ∀ f, FailsFirst env s i f → f.Misled →
    f.stage = .output ∧ (answer.1.exitCode = 2 ∨ answer.1.exitCode = 3)
  unchanged : ∀ f, FailsFirst env s i f → f.stage ≠ .output → answer.2 = s

/-- The exit code is that of the first stage that fails, unless that is the output and its path, or
what the system says about it, has words of another stage in it. Stages before the output leave the
files as they are. -/
theorem respond_tells_stage (henv : env.Faithful) {words : List String}
    (hwords : Invocation.parse words = .ok i) (s : σ) :
    TellsStage env i s ((respond env words).run s) := by
  rcases run_cases henv i s with ⟨f, hf⟩ | ⟨text, s', hrun⟩
  · obtain ⟨s', hrun, hunchanged⟩ := run_of_failsFirst henv hf
    rw [run_respond hwords hrun]
    have honly {f' : Failure} (h : FailsFirst env s i f') : f' = f := h.unique henv hf
    constructor
    case success_iff => exact iff_of_false f.exitCode_ne_zero (not_not_intro ⟨f, hf⟩)
    case unique => exact fun _ _ h h' => h.unique henv h'
    case code_iff =>
      intro f' h
      rw [honly h]
      exact f.exitCode_eq_iff
    case misled =>
      intro f' h hmisled
      rw [honly h] at hmisled ⊢
      rcases f.exitCode_cases with ⟨_, hnot⟩ | ⟨hcode, hstage, _⟩
      · exact absurd hmisled hnot
      · exact ⟨hstage, hcode⟩
    case unchanged =>
      intro f' h hstage
      rw [honly h] at hstage
      exact hunchanged hstage
  · have hnone : ¬ ∃ f, FailsFirst env s i f := by
      rintro ⟨f, hf⟩
      obtain ⟨_, hfails, _⟩ := run_of_failsFirst henv hf
      rw [hrun] at hfails
      cases hfails
    rw [run_respond hwords hrun]
    exact {
      success_iff := iff_of_true rfl hnone
      unique := fun f _ h _ => absurd ⟨f, h⟩ hnone
      code_iff := fun f h => absurd ⟨f, h⟩ hnone
      misled := fun f h => absurd ⟨f, h⟩ hnone
      unchanged := fun f h => absurd ⟨f, h⟩ hnone }

end

/-! ### On a tree of files -/

/-- Works on a tree, in no time. -/
def environment : Environment (StateM FileTree) where
  files := FileTree.system
  time f := return (f (), 0)

theorem faithful_environment : environment.Faithful where
  files := FileTree.passive_system
  time _ _ := ⟨0, rfl⟩

def detectWords (input output : String) : List String :=
  ["detect", "--input-file", input, "--output-file", output]

def detecting (input output : String) : Invocation :=
  .detect { inputFile := input, outputFile := output }

/-- A file with an index of no documents. -/
def bareTree : FileTree := ⟨.ofList [("i.json", .file [0x7b, 0x7d])]⟩

theorem missing_index_tells_stage : environment.Faithful ∧
    Invocation.parse (detectWords "x.json" "config") = .ok (detecting "x.json" "config") ∧
    FailsFirst environment bareTree (detecting "x.json" "config")
      (.index "x.json" (.notFound "x.json")) ∧
    TellsStage environment (detecting "x.json" "config") bareTree
      ((respond environment (detectWords "x.json" "config")).run bareTree) :=
  ⟨faithful_environment, rfl, .loading (show _ = Except.ok ({} : Config) from rfl) rfl,
    respond_tells_stage faithful_environment rfl bareTree⟩

/-- Trouble with an output below a directory named `config` ends like trouble with a configuration,
after a directory has been made. -/
theorem output_taken_for_configuration :
    Invocation.parse (detectWords "i.json" "out/config/") = .ok (detecting "i.json" "out/config/") ∧
    FailsFirst environment bareTree (detecting "i.json" "out/config/")
      (.output "out/config/" .isDirectory) ∧
    (Failure.output "out/config/" .isDirectory).stage.code = 1 ∧
    ∃ outcome t', (respond environment (detectWords "i.json" "out/config/")).run bareTree =
      (outcome, t') ∧ outcome.exitCode = 2 ∧ ¬ bareTree.isThere "out" ∧ t'.isThere "out" := by
  have hloaded : ({ inputFile := "i.json" } : AnalysisOptions).loaded environment bareTree =
      .ok ⟨[]⟩ := toOption_eq_some_iff.mp (by decide +kernel)
  have hanalyzed : (({ inputFile := "i.json" } : AnalysisOptions).analyzed {} ⟨[]⟩).toOption.isSome :=
    by decide +kernel
  obtain ⟨result, hresult⟩ := Option.isSome_iff_exists.mp hanalyzed
  have hreads : Reads environment bareTree { inputFile := "i.json" } ⟨{}, ⟨[]⟩, result⟩ :=
    ⟨rfl, hloaded, toOption_eq_some_iff.mp hresult⟩
  exact ⟨rfl, .output hreads (Prod.ext rfl rfl) rfl, rfl, _, _, rfl, by decide +kernel,
    by decide +kernel, by decide +kernel⟩

end StaticCalls.Command
