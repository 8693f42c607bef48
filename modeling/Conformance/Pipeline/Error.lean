import Conformance.Duration
import Conformance.SystemFault
import Conformance.Text.Lines
import Conformance.Text.Utf8
import Conformance.Toolchain.Basic

/-!
# Why a run has no result

The four causes for which a run of a pipeline gives no captured output.
-/

namespace Conformance

/-- Why a run gives no captured output. -/
inductive PipelineError
  | launch (stage : Stage) (cause : SystemFault)
  | decode (stage : Stage) (channel : Channel) (fault : Utf8.Fault)
  | timeout (limit : Duration)
  | collect (stage : Stage) (cause : SystemFault)
  deriving DecidableEq, Repr

namespace PipelineError

/-- The class of an error. -/
def category : PipelineError → Text
  | launch .. => "launch".toList
  | decode .. => "decode".toList
  | timeout .. => "timeout".toList
  | collect .. => "io".toList

/-- The wording of an error. -/
def message : PipelineError → Text
  | launch stage cause =>
    "failed to launch ".toList ++ stage.name ++ ": ".toList ++ cause.message
  | decode stage channel fault =>
    stage.name ++ [' '] ++ channel.name ++ " is not valid UTF-8: ".toList ++ fault.message
  | timeout limit => "pipeline timed out after ".toList ++ limit.secondsText ++ ['s']
  | collect stage cause =>
    "failed to collect ".toList ++ stage.name ++ " output: ".toList ++ cause.message

end PipelineError

/-- The lines of an output of a stage, if its bytes are UTF-8. -/
def decodeLines (stage : Stage) (channel : Channel) (bytes : List UInt8) :
    Except PipelineError (List Text) :=
  match Utf8.decode? bytes with
  | .ok t => .ok t.lines
  | .error fault => .error (.decode stage channel fault)

end Conformance
