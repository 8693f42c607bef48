import Conformance.Number.Places

/-!
# Measurements and their totals

A recorder keeps the totals of counters and timings, each under the name of its series.  Its
operations are values, so that a history is a list and the totals are a fold over it.

Totals and counts are natural numbers without a limit.  A recorder that keeps them in 64 bits has
the same totals as long as none of them passes 2 ^ 64 - 1; a session adds at most one to a counter
for each of its files (`Session.counter_le_files`).
-/

namespace Conformance.Metrics

/-- What a measurement is filed under: a name and labels in order. -/
structure Key where
  name : Text
  labels : List (Text × Text)
  deriving DecidableEq, Repr

/-- The name of the series of a key: the labels stand in braces behind the name, if there are
any. -/
def Key.series (k : Key) : Text :=
  if k.labels.isEmpty then k.name
  else k.name ++ ['{'] ++ Text.join [','] (k.labels.map fun l => l.1 ++ '=' :: l.2) ++ ['}']

/-- Count, least, greatest and sum of the values of a series. -/
structure Timing where
  count : Nat
  least : Float
  greatest : Float
  sum : Float

namespace Timing

/-- The lesser of two floats; a value that is not a number gives way to the other. -/
def lesser (a b : Float) : Float := if a.isNaN || b < a then b else a

/-- The greater of two floats; a value that is not a number gives way to the other. -/
def greater (a b : Float) : Float := if a.isNaN || a < b then b else a

/-- One value. -/
def first (x : Float) : Timing := ⟨1, x, x, x⟩

/-- One value more. -/
def add (t : Timing) (x : Float) : Timing :=
  ⟨t.count + 1, lesser t.least x, greater t.greatest x, t.sum + x⟩

/-- The sum divided by the count. -/
def mean (t : Timing) : Float := t.sum / t.count.toUInt64.toFloat

end Timing

/-- A map from names to values, kept in the byte order of the names. -/
abbrev Table (α : Type) := List (Text × α)

namespace Table

variable {α : Type}

/-- The value under a name. -/
def get? (t : Table α) (name : Text) : Option α :=
  match t with
  | [] => none
  | (n, x) :: rest => if n = name then some x else get? rest name

/-- The table with the value under a name changed. -/
def update (name : Text) (f : Option α → α) : Table α → Table α
  | [] => [(name, f none)]
  | (n, x) :: rest =>
    match Text.order name n with
    | .eq => (n, f (some x)) :: rest
    | .lt => (name, f none) :: (n, x) :: rest
    | .gt => (n, x) :: update name f rest

end Table

/-- One operation on a recorder. -/
inductive Operation
  | describe
  | increment (key : Key) (amount : Nat)
  | absolute (key : Key) (value : Nat)
  | histogram (key : Key) (value : Float)
  | gauge (key : Key) (value : Float)

/-- The totals of all series. -/
structure Recorder where
  counters : Table Nat
  timings : Table Timing

namespace Recorder

/-- A recorder before any operation. -/
def empty : Recorder := ⟨[], []⟩

/-- The totals after one operation; descriptions and gauges are not kept. -/
def record (r : Recorder) : Operation → Recorder
  | .describe => r
  | .increment key amount =>
    { r with counters := r.counters.update key.series fun old => old.getD 0 + amount }
  | .absolute key value => { r with counters := r.counters.update key.series fun _ => value }
  | .histogram key value =>
    { r with
      timings := r.timings.update key.series fun old =>
        match old with
        | none => .first value
        | some t => t.add value }
  | .gauge _ _ => r

/-- The totals after a history. -/
def recordAll (r : Recorder) (ops : List Operation) : Recorder := ops.foldl record r

/-- The value of a counter. -/
def counter? (r : Recorder) (series : Text) : Option Nat := r.counters.get? series

/-- The totals of a timing. -/
def timing? (r : Recorder) (series : Text) : Option Timing := r.timings.get? series

/-- A number of seconds with three places. -/
def secondsText (x : Float) : Text := Places.text 3 x ++ ['s']

/-- The line of a counter. -/
def counterLine (entry : Text × Nat) : Text :=
  [' ', ' '] ++ entry.1 ++ [':', ' '] ++ Text.ofNat entry.2

/-- The line of a timing. -/
def timingLine (entry : Text × Timing) : Text :=
  [' ', ' '] ++ entry.1 ++ ": n=".toList ++ Text.ofNat entry.2.count ++ " min=".toList ++
    secondsText entry.2.least ++ " mean=".toList ++ secondsText entry.2.mean ++ " max=".toList ++
    secondsText entry.2.greatest

/-- The lines of the summary: a header, then every counter and every timing in the order of their
names. -/
def summary (r : Recorder) : List Text :=
  [] :: "=== Metrics ===".toList ::
    if r.counters.isEmpty && r.timings.isEmpty then ["(none recorded)".toList]
    else r.counters.map counterLine ++ r.timings.map timingLine

end Recorder

/-! ## What a session measures -/

def filesPassed : Text := "frontdiff_files_passed_total".toList
def filesFailed : Text := "frontdiff_files_failed_total".toList
def pipelineSeconds : Text := "frontdiff_pipeline_duration_seconds".toList

/-- Names the series of a session to the recorder. -/
def describeAll : List Operation := [.describe, .describe, .describe]

/-- One file more that passed, or that failed for a reason. -/
def fileOperation (passed : Bool) (reason : Option Text) : Operation :=
  if passed then .increment ⟨filesPassed, []⟩ 1
  else .increment ⟨filesFailed, [("reason".toList, reason.getD "unknown".toList)]⟩ 1

/-- The length of one run of a toolchain. -/
def pipelineOperation (toolchain : Text) (seconds : Float) : Operation :=
  .histogram ⟨pipelineSeconds, [("toolchain".toList, toolchain)]⟩ seconds

end Conformance.Metrics
