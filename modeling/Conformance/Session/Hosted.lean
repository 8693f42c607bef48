import Conformance.Session.Run

/-!
# Sessions on a host

The runs of a session carried out on a host.  Waiting for the processes of a run is followed for a
number of rounds; there is no state behind a run that has not ended by then, and what a runner says
from there on is no answer.
-/

namespace Conformance

namespace Host

variable {σ : Type}

/-- What stands in the place of an answer where there is none. -/
def unanswered : Except PipelineError CapturedRun := .error (.collect .compiler (.described []))

/-- The answer of a run and the state behind it, if it ends and the runs before it did. -/
def answered (run : σ → Option (Except PipelineError CapturedRun) × σ) :
    Option σ → Except PipelineError CapturedRun × Option σ
  | none => (unanswered, none)
  | some s =>
    match run s with
    | (some result, s) => (result, some s)
    | (none, _) => (unanswered, none)

/-- Carries out the runs of a session on a host, each for a number of rounds of polling. -/
def runner (h : Host σ) (rounds : Nat) : Runner (Option σ) where
  runPipeline t limit source := answered (Executor.runPipeline h rounds limit t source)
  runCompiler c limit source := answered (Executor.runCompiler h rounds limit c source)

end Host

end Conformance
