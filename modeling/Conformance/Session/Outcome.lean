import Conformance.Comparison
import Conformance.Metrics.Recorder
import Conformance.Pipeline.Error

/-!
# The outcome of a file

What a session finds out about one source file: whether it passed, why not, and what the compiler
wrote about it.
-/

namespace Conformance

/-- Why a file failed. -/
inductive Failure
  | mismatch (divergence : Divergence)
  | pipeline (toolchain : Text) (error : PipelineError)
  | compile (exitCode : Option Int) (stderr : List Text)
  deriving DecidableEq, Repr

namespace Failure

/-- The class of a failure. -/
def category : Failure → Text
  | mismatch divergence => divergence.kind
  | pipeline _ error => error.category
  | compile .. => "compile".toList

/-- The wording of a failure. -/
def message : Failure → Text
  | mismatch divergence => divergence.message
  | pipeline toolchain error => toolchain ++ " pipeline: ".toList ++ error.message
  | compile (some code) _ => "compiler exited with code ".toList ++ Text.ofInt code
  | compile none _ => "compiler was terminated by a signal".toList

end Failure

/-- What is known of a file after it was run. -/
structure Outcome where
  path : Path
  name : Text
  failure : Option Failure
  output : List Text
  errors : List Text
  deriving DecidableEq, Repr

namespace Outcome

/-- A file about which nothing is known against it. -/
def clean (path : Path) (name : Text) : Outcome := ⟨path, name, none, [], []⟩

/-- The outcome with a failure. -/
def failed (o : Outcome) (failure : Failure) : Outcome := { o with failure := some failure }

/-- Whether the file passed. -/
def passed (o : Outcome) : Bool := o.failure.isNone

/-- What is measured of an outcome. -/
def operation (o : Outcome) : Metrics.Operation :=
  Metrics.fileOperation o.passed (o.failure.map Failure.category)

end Outcome

end Conformance
