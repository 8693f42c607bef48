import Conformance.Capture

/-!
# Comparing two runs

The outputs of a reference run and a candidate run are compared line by line, the standard output
first.  The comparison stops at the first divergence; within one output a line that differs comes
before a difference in length.
-/

namespace Conformance

/-- The first difference between two runs: two lines at one position, counted from one, or two
lengths of an output. -/
inductive Divergence
  | line (channel : Channel) (index : Nat) (reference candidate : Text)
  | length (channel : Channel) (reference candidate : Nat)
  deriving DecidableEq, Repr

namespace Divergence

/-- The output in which the runs differ. -/
def channel : Divergence → Channel
  | line c _ _ _ => c
  | length c _ _ => c

/-- The class of a divergence. -/
def kind : Divergence → Text
  | line .stdout _ _ _ => "stdout-mismatch".toList
  | line .stderr _ _ _ => "stderr-mismatch".toList
  | length .stdout _ _ => "stdout-length".toList
  | length .stderr _ _ => "stderr-length".toList

/-- The wording of a divergence. -/
def message : Divergence → Text
  | line c index _ _ => "mismatch in ".toList ++ c.name ++ " at line ".toList ++ Text.ofNat index
  | length c reference candidate =>
    c.name ++ " length mismatch: reference has ".toList ++ Text.ofNat reference ++
      " lines, candidate has ".toList ++ Text.ofNat candidate

end Divergence

/-- How far two runs agree: the number of matching lines, and where they part if they do. -/
structure Comparison where
  matched : Nat
  divergence : Option Divergence
  deriving DecidableEq, Repr

/-- Whether the runs agree throughout. -/
def Comparison.isMatch (c : Comparison) : Bool := c.divergence.isNone

/-- Compares the rest of two outputs behind `matched` equal lines. -/
def compareFrom (channel : Channel) (matched : Nat) : List Text → List Text → Comparison
  | r :: rs, c :: cs =>
    if r = c then compareFrom channel (matched + 1) rs cs
    else ⟨matched, some (.line channel (matched + 1) r c)⟩
  | [], [] => ⟨matched, none⟩
  | rs, cs => ⟨matched, some (.length channel (matched + rs.length) (matched + cs.length))⟩

/-- Compares one output of two runs. -/
def compareChannel (channel : Channel) (reference candidate : List Text) : Comparison :=
  compareFrom channel 0 reference candidate

/-- Compares two runs: the standard outputs and, where these agree, the error outputs. -/
def compareRuns (reference candidate : CapturedRun) : Comparison :=
  let out := compareChannel .stdout reference.stdout candidate.stdout
  match out.divergence with
  | some _ => out
  | none =>
    let err := compareChannel .stderr reference.stderr candidate.stderr
    ⟨out.matched + err.matched, err.divergence⟩

end Conformance
