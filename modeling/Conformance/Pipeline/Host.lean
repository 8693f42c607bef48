import Conformance.Capture
import Conformance.Pipeline.Error

/-!
# The host of a run

What the executor asks of the system that it runs on.  The system is a state of any type; each
request takes it to its next state and gives an answer, about which nothing is assumed.
-/

namespace Conformance

/-- A child process, by the number that the host gave it. -/
abbrev Child := Nat

/-- A process that is to be started: the bytes of its program and of its arguments, and the child
whose output it reads, if it reads any. -/
structure Launch where
  program : List UInt8
  args : List (List UInt8)
  input : Option Child
  deriving DecidableEq, Repr

/-- How the reading of an output within some time ends: all its bytes, a fault, or nothing by
then. -/
inductive Drained
  | bytes (content : List UInt8)
  | fault (cause : SystemFault)
  | late
  deriving DecidableEq, Repr

/-- The requests of the executor; `σ` is the state of the system. -/
structure Host (σ : Type) where
  /-- The time. -/
  now : σ → Duration × σ
  /-- Starts a process, whose outputs are read from then on. -/
  spawn : Launch → σ → Except SystemFault Child × σ
  /-- Whether a child has exited, and how. -/
  poll : Child → σ → Except SystemFault (Option ExitStatus) × σ
  /-- Kills a child. -/
  kill : Child → σ → σ
  /-- Waits for a child to end and reaps it. -/
  reap : Child → σ → Option ExitStatus × σ
  /-- All that comes from an output of a child, waiting for its end as long as it takes. -/
  drain : Child → Channel → σ → Except SystemFault (List UInt8) × σ
  /-- What was read from an output of a child, waiting for its end no longer than the time left. -/
  drainWithin : Child → Channel → Duration → σ → Drained × σ
  /-- Lets some time pass. -/
  sleep : Duration → σ → σ

end Conformance
