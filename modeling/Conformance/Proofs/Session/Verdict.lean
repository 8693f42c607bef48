import Conformance.Proofs.Comparison.FirstDivergence
import Conformance.Proofs.Text.Marker
import Conformance.Session.Run

/-!
# The verdict on a file

A file is compared by two calls of the runner, the second only if the first gives a run.
`compareFile_verdict` says what comes of it: the error of the first call that gives none, or else
a pass exactly if both runs have the same lines up to masking, or else their first divergence.

Which calls are made is read off the record that `Runner.recording` keeps.
-/

namespace Conformance

/-- A call that a session makes of its runner. -/
inductive Call
  | pipeline (toolchain : Toolchain) (limit : Option Duration) (path : Path)
  | compiler (compiler : Invocation) (limit : Option Duration) (path : Path)
  deriving DecidableEq, Repr

/-- The runner that answers as `runner` does and keeps a record of the calls, the last one last. -/
def Runner.recording {σ : Type} (runner : Runner σ) : Runner (σ × List Call) where
  runPipeline toolchain limit path state :=
    let (answer, next) := runner.runPipeline toolchain limit path state.1
    (answer, next, state.2 ++ [.pipeline toolchain limit path])
  runCompiler compiler limit path state :=
    let (answer, next) := runner.runCompiler compiler limit path state.1
    (answer, next, state.2 ++ [.compiler compiler limit path])

theorem recording_runPipeline {σ : Type} {runner : Runner σ} {toolchain : Toolchain}
    {limit : Option Duration} {path : Path} {state next : σ}
    {answer : Except PipelineError CapturedRun} {calls : List Call}
    (h : runner.runPipeline toolchain limit path state = (answer, next)) :
    runner.recording.runPipeline toolchain limit path (state, calls) =
      (answer, next, calls ++ [.pipeline toolchain limit path]) := by
  simp only [Runner.recording, h]

namespace Session

/-- A line as it is compared. -/
def shownLine (s : Settings) (line : Text) : Text := if s.normalize then line.mask else line

/-- The lines of a run as they are compared. -/
theorem presented_lines (s : Settings) (run : CapturedRun) (channel : Channel) :
    (presented s run).lines channel = (run.lines channel).map (shownLine s) := by
  unfold presented shownLine
  by_cases h : s.normalize = true
  · simp only [h, if_true]
    exact run.normalized_lines channel
  · simp only [h, Bool.false_eq_true, if_false, List.map_id']

/-! ## Judging two runs -/

/-- Two runs show the same lines: as many in each output, and equal ones at each position. -/
def SameLines (s : Settings) (reference candidate : CapturedRun) : Prop :=
  ∀ channel, (reference.lines channel).length = (candidate.lines channel).length ∧
    ∀ i (hr : i < (reference.lines channel).length) (hc : i < (candidate.lines channel).length),
      shownLine s (reference.lines channel)[i] = shownLine s (candidate.lines channel)[i]

theorem sameLines_iff {s : Settings} {reference candidate : CapturedRun} :
    SameLines s reference candidate ↔
      ∀ channel, (presented s reference).lines channel = (presented s candidate).lines channel := by
  unfold SameLines
  refine forall_congr' fun channel => ?_
  rw [presented_lines, presented_lines, List.ext_getElem_iff]
  simp only [List.length_map, List.getElem_map]

section Judge

variable (s : Settings) (path : Path) (name : Text) (reference candidate : CapturedRun)

theorem judge_passed_iff :
    (judge s (.clean path name) reference candidate).passed = true ↔
      SameLines s reference candidate := by
  rw [sameLines_iff, ← compareRuns_divergence_eq_none_iff]
  unfold judge
  split
  · next h => simp [h, Outcome.passed, Outcome.clean]
  · next d h => simp [h, Outcome.passed, Outcome.failed]

theorem judge_failure_eq_some_iff (failure : Failure) :
    (judge s (.clean path name) reference candidate).failure = some failure ↔
      ∃ d, failure = .mismatch d ∧
        FirstDivergence (presented s reference).lines (presented s candidate).lines d := by
  simp only [← compareRuns_divergence_eq_some_iff]
  unfold judge
  split
  · next h => simp [h, Outcome.clean]
  · next d h =>
    simp only [h, Outcome.failed, Option.some.injEq]
    constructor
    · rintro rfl
      exact ⟨d, rfl, rfl⟩
    · rintro ⟨_, rfl, rfl⟩
      rfl

theorem judge_output_errors :
    (judge s (.clean path name) reference candidate).output = [] ∧
      (judge s (.clean path name) reference candidate).errors = [] := by
  unfold judge
  split <;> exact ⟨rfl, rfl⟩

end Judge

/-! ## Comparing a file -/

section Compare

variable {σ : Type} {runner : Runner σ} {s : Settings} {path : Path} {state between after : σ}

theorem compareFile_of_reference_error {e : PipelineError}
    (hr : runner.runPipeline s.reference s.timeout path state = (.error e, after)) :
    compareFile runner s path state =
      ⟨(Outcome.clean path (nameOf s path)).failed (.pipeline s.reference.name e), [], after⟩ := by
  simp only [compareFile, hr]

theorem compareFile_of_candidate_error {a : CapturedRun} {e : PipelineError}
    (hr : runner.runPipeline s.reference s.timeout path state = (.ok a, between))
    (hc : runner.runPipeline s.candidate s.timeout path between = (.error e, after)) :
    compareFile runner s path state =
      ⟨(Outcome.clean path (nameOf s path)).failed (.pipeline s.candidate.name e),
        [lengthOf s.reference.name a], after⟩ := by
  simp only [compareFile, hr, hc]

theorem compareFile_of_ok {a b : CapturedRun}
    (hr : runner.runPipeline s.reference s.timeout path state = (.ok a, between))
    (hc : runner.runPipeline s.candidate s.timeout path between = (.ok b, after)) :
    compareFile runner s path state =
      ⟨judge s (.clean path (nameOf s path)) a b,
        [lengthOf s.reference.name a, lengthOf s.candidate.name b], after⟩ := by
  simp only [compareFile, hr, hc, List.singleton_append]

end Compare

/-- **The verdict on a file.** A reference that gives no run decides alone, and the candidate is
not called then; next a candidate that gives none decides.  Two runs pass exactly if they show the
same lines, whatever their exit statuses; any other two fail with the first divergence of the
lines as they are compared.  Nothing is relayed of a compared file. -/
theorem compareFile_verdict {σ : Type} (runner : Runner σ) (s : Settings) (path : Path)
    (state : σ) (calls : List Call) :
    let outcome := (compareFile runner s path state).outcome
    let called := (compareFile runner.recording s path (state, calls)).state.2
    let callReference := Call.pipeline s.reference s.timeout path
    let callCandidate := Call.pipeline s.candidate s.timeout path
    let reference := runner.runPipeline s.reference s.timeout path state
    let candidate := runner.runPipeline s.candidate s.timeout path reference.2
    (outcome.output = [] ∧ outcome.errors = []) ∧
      match reference.1, candidate.1 with
      | .error e, _ =>
        outcome.failure = some (.pipeline s.reference.name e) ∧ called = calls ++ [callReference]
      | .ok _, .error e =>
        outcome.failure = some (.pipeline s.candidate.name e) ∧
          called = calls ++ [callReference, callCandidate]
      | .ok a, .ok b =>
        (outcome.passed = true ↔ SameLines s a b) ∧
          (∀ failure, outcome.failure = some failure ↔
            ∃ d, failure = .mismatch d ∧
              FirstDivergence (fun channel => (a.lines channel).map (shownLine s))
                (fun channel => (b.lines channel).map (shownLine s)) d) ∧
          called = calls ++ [callReference, callCandidate] := by
  dsimp only
  rcases hr : runner.runPipeline s.reference s.timeout path state with ⟨e | a, between⟩
  · -- the candidate's answer is there, but nobody has asked for it
    rw [compareFile_of_reference_error hr, compareFile_of_reference_error (recording_runPipeline hr)]
    exact ⟨⟨rfl, rfl⟩, rfl, rfl⟩
  rcases hc : runner.runPipeline s.candidate s.timeout path between with ⟨e | b, after⟩
  · rw [compareFile_of_candidate_error hr hc,
      compareFile_of_candidate_error (recording_runPipeline hr) (recording_runPipeline hc)]
    exact ⟨⟨rfl, rfl⟩, rfl, List.append_assoc ..⟩
  · rw [compareFile_of_ok hr hc,
      compareFile_of_ok (recording_runPipeline hr) (recording_runPipeline hc)]
    refine ⟨judge_output_errors .., judge_passed_iff .., fun failure => ?_, List.append_assoc ..⟩
    rw [judge_failure_eq_some_iff, funext (presented_lines s a), funext (presented_lines s b)]

end Session

end Conformance
