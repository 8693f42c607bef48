import Conformance.Console.Command

/-!
# The program

From the arguments to the text of both outputs and the exit code.
-/

namespace Conformance

/-- What the program leaves behind: its exit code and the text of its outputs. -/
structure Printed where
  exitCode : Nat
  stdout : Text
  stderr : Text
  deriving DecidableEq, Repr

namespace Printed

/-- What is printed for a command line that is not run: requested information goes to the standard
output, a refusal to the error output. -/
def ofUsage (e : UsageError) : Printed :=
  let text := (e.sentence.getD UsageError.programPurpose) ++ ['\n']
  if e.exitCode = 0 then ⟨0, text, []⟩ else ⟨e.exitCode, [], text⟩

/-- What is printed for a command that was run. -/
def ofFinished {σ : Type} (f : Finished σ) : Printed :=
  ⟨f.exitCode, Console.render f.stdout, Console.render f.stderr⟩

end Printed

/-- Runs the program on its arguments: what it leaves behind, and the state of the system. -/
def runProgram {σ : Type} (runner : Runner σ) (fs : FileSystem) (args : List Text) (state : σ) :
    Printed × σ :=
  match CommandLine.read args with
  | .error e => (.ofUsage e, state)
  | .ok line =>
    let finished := line.run runner fs state
    (.ofFinished finished, finished.state)

end Conformance
