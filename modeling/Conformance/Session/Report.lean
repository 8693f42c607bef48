import Conformance.Session.Outcome

/-!
# The report of a session
-/

namespace Conformance

/-- The totals of a session and its failures in order. -/
structure Report where
  passed : Nat
  failed : Nat
  notRun : Nat
  failures : List Outcome
  deriving DecidableEq, Repr

namespace Report

/-- The report of a session that has run nothing. -/
def empty : Report := ⟨0, 0, 0, []⟩

/-- The number of files that were run. -/
def total (r : Report) : Nat := r.passed + r.failed

/-- Whether no file failed. -/
def allPassed (r : Report) : Bool := r.failed == 0

/-- Zero if no file failed, else one. -/
def exitCode (r : Report) : Nat := if r.allPassed then 0 else 1

/-- The names of the files that failed, in order. -/
def failedNames (r : Report) : List Text := r.failures.map (·.name)

/-- The report with one more outcome. -/
def add (r : Report) (o : Outcome) : Report :=
  if o.passed then { r with passed := r.passed + 1 }
  else { r with failed := r.failed + 1, failures := r.failures ++ [o] }

end Report

end Conformance
