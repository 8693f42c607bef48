import Conformance.Duration
import Conformance.Text.Lines
import Conformance.Text.Marker
import Conformance.Toolchain.Basic

/-!
# Captured runs

What a run of a toolchain leaves behind: the lines of both outputs of its last stage, how the
stages ended, and how long it took.
-/

namespace Conformance

/-- How a process ended, as the word of 32 bits in which the system reports it: the exit code
stands in the second byte, and a signal that ended the process in the lowest seven bits. -/
structure ExitStatus where
  word : Nat
  deriving DecidableEq, Repr

namespace ExitStatus

/-- The status of a process that exited with a code. -/
def exited (code : Int) : ExitStatus := ⟨(code % 0x1000000).toNat * 256⟩

/-- The status of a process that a signal ended. -/
def signaled (signal : Int) : ExitStatus := ⟨(signal % 0x100000000).toNat⟩

/-- The signal that ended the process; zero for a process that exited. -/
def signal (s : ExitStatus) : Nat := s.word % 128

/-- The exit code; none for a process that a signal ended. -/
def code? (s : ExitStatus) : Option Nat :=
  if s.signal = 0 then some (s.word / 256 % 256) else none

/-- Whether nothing at all is reported against the process. -/
def success (s : ExitStatus) : Bool := s.word == 0

end ExitStatus

/-- The captured output of a run. -/
structure CapturedRun where
  stdout : List Text
  stderr : List Text
  status : ExitStatus
  lexerStatus : Option ExitStatus
  elapsed : Duration
  deriving DecidableEq, Repr

namespace CapturedRun

/-- A successful run of no length with the given lines. -/
def ofLines (stdout stderr : List Text) : CapturedRun :=
  ⟨stdout, stderr, .exited 0, none, ⟨0⟩⟩

/-- The lines of one output. -/
def lines (r : CapturedRun) : Channel → List Text
  | .stdout => r.stdout
  | .stderr => r.stderr

/-- The run with the line markers of both outputs masked. -/
def normalized (r : CapturedRun) : CapturedRun :=
  { r with stdout := Text.maskLines r.stdout, stderr := Text.maskLines r.stderr }

/-- The exit code of the last stage. -/
def exitCode? (r : CapturedRun) : Option Nat := r.status.code?

/-- Whether the last stage exited with code zero and wrote nothing to its error output. -/
def isClean (r : CapturedRun) : Bool := r.status.success && r.stderr.isEmpty

end CapturedRun

end Conformance
