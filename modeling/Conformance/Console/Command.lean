import Conformance.Arguments.CommandLine
import Conformance.Console.Item
import Conformance.Corpus.Discovery

/-!
# Running a command line

A command finds its corpus, runs a session over it and shows what came out.  It exits with zero
exactly if the corpus was found and no file of it failed.
-/

namespace Conformance

/-- What a command leaves behind. -/
structure Finished (σ : Type) where
  exitCode : Nat
  stdout : List Console.Item
  stderr : List Console.Item
  measured : List Metrics.Operation
  state : σ

namespace Command

open Console

/-- Where a command looks for source files. -/
def policy : Command → CorpusPolicy
  | dir d _ _ => .directory d
  | files listed corpus _ => .files corpus listed
  | smoke d _ _ _ => .tree d

/-- The filter on the names of the source files. -/
def filter : Command → Option Text
  | dir _ f _ => f
  | files .. => none
  | smoke _ _ f _ => f

/-- What a command does with every file. -/
def mode : Command → Mode
  | dir .. | files .. => .compare
  | smoke .. => .smoke

/-- The settings that toolchain options ask for. -/
def toolchainChoices (o : ToolchainOptions) (corpus : Path) : List Settings.Choice :=
  [.reference o.referenceLexer o.referenceParser, .candidate o.candidateLexer o.candidateParser,
    .normalize (!o.noNormalize), .timeoutSeconds o.timeout, .corpusDir corpus]

/-- The settings of the session of a command; only a list of files stops at the first failure. -/
def settings : Command → Settings
  | dir d _ o => .ofChoices (toolchainChoices o d ++ [.failurePolicy .continue])
  | files _ corpus o => .ofChoices (toolchainChoices o corpus ++ [.failurePolicy .failFast])
  | smoke d compiler _ timeout =>
    .ofChoices [.compiler compiler, .timeoutSeconds timeout, .corpusDir d,
      .failurePolicy .continue]

/-- What is said before a session begins. -/
def introduction (c : Command) (count : Nat) : List Item :=
  let s := c.settings
  match c.mode with
  | .compare =>
    [.message .info s.reference.display, .message .info s.candidate.display] ++
      (if s.normalize then []
        else [.message .info "line-number normalization disabled".toList]) ++
      [.message .info ("Comparing ".toList ++ Text.ofNat count ++ " file(s)".toList)]
  | .smoke =>
    [.message .info ("Compiler: ".toList ++ s.compiler.display),
      .message .info ("Compiling ".toList ++ Text.ofNat count ++ " file(s)".toList)]

/-- Shows a session over the files of a corpus. -/
def present {σ : Type} (c : Command) (silent : Bool) (count : Nat) (r : Session.Result σ) :
    Finished σ where
  exitCode := r.report.exitCode
  stdout :=
    (if silent then [] else [.blank]) ++ r.events.flatMap (eventItems silent) ++
      summaryItems r.report
  stderr := (if silent then [] else c.introduction count) ++ summaryRemarks r.report
  measured := r.measured
  state := r.state

/-- Runs a command on the corpus that was found for it. -/
def runOn {σ : Type} (runner : Runner σ) (silent : Bool) (c : Command) (state : σ) :
    Except CorpusError (List Path) → Finished σ
  | .error e =>
    { exitCode := 1
      stdout := []
      stderr := [.message .fail ("Error: ".toList ++ e.message)]
      measured := []
      state }
  | .ok found =>
    c.present silent found.length (Session.run runner c.settings c.mode found state)

/-- Runs a command. -/
def run {σ : Type} (runner : Runner σ) (fs : FileSystem) (silent : Bool) (c : Command)
    (state : σ) : Finished σ :=
  runOn runner silent c state (c.policy.discover fs c.filter)

end Command

namespace CommandLine

/-- Runs a command line; with metrics, their summary is written last. -/
def run {σ : Type} (runner : Runner σ) (fs : FileSystem) (line : CommandLine) (state : σ) :
    Finished σ :=
  let done := line.command.run runner fs line.silent state
  if line.metrics then
    let recorder := Metrics.Recorder.empty.recordAll (Metrics.describeAll ++ done.measured)
    { done with stdout := done.stdout ++ recorder.summary.map .plain }
  else done

end CommandLine

end Conformance
