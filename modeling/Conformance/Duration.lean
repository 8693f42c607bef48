import Conformance.Number.Shortest

/-!
# Durations

Lengths of time in whole nanoseconds, and their text in seconds.
-/

namespace Conformance

/-- A length of time in nanoseconds. -/
structure Duration where
  nanos : Nat
  deriving DecidableEq, Repr

namespace Duration

/-- A whole number of seconds. -/
def ofSeconds (n : Nat) : Duration := ⟨n * 1000000000⟩

/-- Seconds and nanoseconds together. -/
def ofParts (seconds nanos : Nat) : Duration := ⟨seconds * 1000000000 + nanos⟩

/-- The whole seconds. -/
def seconds (d : Duration) : Nat := d.nanos / 1000000000

/-- The nanoseconds beyond the whole seconds. -/
def subsecNanos (d : Duration) : Nat := d.nanos % 1000000000

/-- The time left of a limit after some time has passed; nothing once it is used up. -/
def minus (limit elapsed : Duration) : Duration := ⟨limit.nanos - elapsed.nanos⟩

/-- The duration in seconds as a float: the whole seconds and the rest are rounded on their own,
then added. -/
def toFloat (d : Duration) : Float :=
  d.seconds.toUInt64.toFloat + d.subsecNanos.toUInt64.toFloat / 1000000000.0

/-- The duration in seconds, with the fewest digits that read back as the same float. -/
def secondsText (d : Duration) : Text := Shortest.text d.toFloat

end Duration

end Conformance
