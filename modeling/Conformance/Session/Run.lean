import Conformance.Session.Report
import Conformance.Settings

/-!
# Sessions

A session runs the files of a corpus one after another.  In a comparison each file goes through
the reference and then the candidate toolchain and the outputs are compared; in a smoke test it
goes through the compiler, which has to succeed silently.  What runs the toolchains is a parameter:
a `Runner` over a state of its own.
-/

namespace Conformance

/-- What carries out the runs of a session; `σ` is the state of the system they run on. -/
structure Runner (σ : Type) where
  runPipeline : Toolchain → Option Duration → Path → σ → Except PipelineError CapturedRun × σ
  runCompiler : Invocation → Option Duration → Path → σ → Except PipelineError CapturedRun × σ

/-- What a session does with every file. -/
inductive Mode
  | compare
  | smoke
  deriving DecidableEq, Repr

/-- What a session tells while it runs: a file is begun, a file is done. -/
inductive Event
  | started (index total : Nat) (name : Text)
  | finished (index total : Nat) (outcome : Outcome)
  deriving DecidableEq, Repr

namespace Session

/-- What running one file gives: its outcome, what was measured, and the state afterwards. -/
structure FileResult (σ : Type) where
  outcome : Outcome
  measured : List Metrics.Operation
  state : σ

/-- What running many files gives. -/
structure Result (σ : Type) where
  report : Report
  events : List Event
  measured : List Metrics.Operation
  state : σ

/-- The name under which a file of the session is shown. -/
def nameOf (s : Settings) (path : Path) : Text := path.displayName (some s.corpusDir)

/-- The name of the compiler in failures and measurements. -/
def compilerName : Text := "compiler".toList

/-- The measurement of a captured run. -/
def lengthOf (toolchain : Text) (run : CapturedRun) : Metrics.Operation :=
  Metrics.pipelineOperation toolchain run.elapsed.toFloat

/-- The run as it is compared: with its line markers masked unless the settings say otherwise. -/
def presented (s : Settings) (run : CapturedRun) : CapturedRun :=
  if s.normalize then run.normalized else run

/-- The outcome of a comparison of two runs. -/
def judge (s : Settings) (blank : Outcome) (reference candidate : CapturedRun) : Outcome :=
  match (compareRuns (presented s reference) (presented s candidate)).divergence with
  | none => blank
  | some divergence => blank.failed (.mismatch divergence)

/-- Runs a file through both toolchains and compares; the candidate is not run if the reference
gives no output. -/
def compareFile {σ : Type} (runner : Runner σ) (s : Settings) (path : Path) (state : σ) :
    FileResult σ :=
  let blank := Outcome.clean path (nameOf s path)
  match runner.runPipeline s.reference s.timeout path state with
  | (.error e, state) => ⟨blank.failed (.pipeline s.reference.name e), [], state⟩
  | (.ok reference, state) =>
    let measured := [lengthOf s.reference.name reference]
    match runner.runPipeline s.candidate s.timeout path state with
    | (.error e, state) => ⟨blank.failed (.pipeline s.candidate.name e), measured, state⟩
    | (.ok candidate, state) =>
      ⟨judge s blank reference candidate,
        measured ++ [lengthOf s.candidate.name candidate], state⟩

/-- The outcome of a compiler run: it passes if the run is clean, and its lines are kept as they
are. -/
def inspect (blank : Outcome) (run : CapturedRun) : Outcome :=
  let outcome := { blank with output := run.stdout, errors := run.stderr }
  if run.isClean then outcome
  else outcome.failed (.compile (run.exitCode?.map Int.ofNat) run.stderr)

/-- Runs a file through the compiler. -/
def smokeFile {σ : Type} (runner : Runner σ) (s : Settings) (path : Path) (state : σ) :
    FileResult σ :=
  let blank := Outcome.clean path (nameOf s path)
  match runner.runCompiler s.compiler s.timeout path state with
  | (.error e, state) => ⟨blank.failed (.pipeline compilerName e), [], state⟩
  | (.ok run, state) => ⟨inspect blank run, [lengthOf compilerName run], state⟩

/-- Runs one file. -/
def runFile {σ : Type} (runner : Runner σ) (s : Settings) (mode : Mode) (path : Path)
    (state : σ) : FileResult σ :=
  match mode with
  | .compare => compareFile runner s path state
  | .smoke => smokeFile runner s path state

/-- Goes on with the files from position `index + 1` of `total`. -/
def runFrom {σ : Type} (runFile : Path → σ → FileResult σ) (s : Settings) (total index : Nat)
    (sofar : Result σ) : List Path → Result σ
  | [] => sofar
  | path :: rest =>
    let file := runFile path sofar.state
    let next : Result σ :=
      { report := sofar.report.add file.outcome
        events := sofar.events ++ [.started (index + 1) total (nameOf s path),
          .finished (index + 1) total file.outcome]
        measured := sofar.measured ++ file.measured ++ [file.outcome.operation]
        state := file.state }
    if !file.outcome.passed && s.failurePolicy == .failFast then
      { next with report := { next.report with notRun := total - (index + 1) } }
    else runFrom runFile s total (index + 1) next rest

/-- Runs the files of a session in order; a session that stops at the first failure counts the
files behind it as not run. -/
def run {σ : Type} (runner : Runner σ) (s : Settings) (mode : Mode) (files : List Path)
    (state : σ) : Result σ :=
  runFrom (runFile runner s mode) s files.length 0 ⟨.empty, [], [], state⟩ files

end Session

end Conformance
