import Conformance.Proofs.Metrics.Totals
import Conformance.Proofs.Session.Accounts
import Conformance.Proofs.Session.Choices
import Conformance.Proofs.Session.Verdict

/-!
# Measurements agree with the report

A session measures each file that it comes to: one increment for its verdict, and one length for
each run that gave output.  How many measurements of a series a file leaves is a property of its
outcome alone (`Outcome.increments_operation`, `runFile_times`), so over a session the totals count
outcomes (`countP_measured`), and the report counts the same: `recorded_eq_report`.

Reference and candidate are told apart by their names, which no choice of settings changes.
-/

namespace Conformance

/-! ## The series of a session -/

namespace Metrics

/-- The counter of the files that passed. -/
def passedSeries : Text := (Key.mk filesPassed []).series

/-- The counter of the files that failed for a reason. -/
def failedSeries (reason : Text) : Text :=
  (Key.mk filesFailed [("reason".toList, reason)]).series

example :
    failedSeries "launch".toList = "frontdiff_files_failed_total\x7breason=launch\x7d".toList := by
  decide +kernel

/-- The timing of the runs of a toolchain. -/
def timingSeries (toolchain : Text) : Text :=
  (Key.mk pipelineSeconds [("toolchain".toList, toolchain)]).series

theorem Key.series_label (name label value : Text) :
    (Key.mk name [(label, value)]).series = name ++ '{' :: (label ++ '=' :: (value ++ ['}'])) := by
  simp [series]

theorem Key.series_label_inj {name label a b : Text} :
    (Key.mk name [(label, a)]).series = (Key.mk name [(label, b)]).series ↔ a = b := by
  simp [series_label]

theorem failedSeries_inj {a b : Text} : failedSeries a = failedSeries b ↔ a = b :=
  Key.series_label_inj

theorem timingSeries_inj {a b : Text} : timingSeries a = timingSeries b ↔ a = b :=
  Key.series_label_inj

theorem passedSeries_ne_failedSeries (reason : Text) : passedSeries ≠ failedSeries reason := by
  intro h
  have hstart : filesFailed <+: passedSeries := by
    rw [h, failedSeries, Key.series_label]
    exact List.prefix_append ..
  have hnot : ¬ filesFailed <+: passedSeries := by decide +kernel
  exact hnot hstart

end Metrics

open Metrics

/-- No class of failures is called unknown. -/
theorem Failure.category_ne_unknown (f : Failure) : f.category ≠ "unknown".toList := by
  cases f with
  | mismatch d =>
    rcases d with ⟨_ | _⟩ | ⟨_ | _⟩ <;> dsimp only [Failure.category, Divergence.kind] <;>
      decide +kernel
  | pipeline _ e =>
    cases e <;> dsimp only [Failure.category, PipelineError.category] <;> decide +kernel
  | compile => dsimp only [Failure.category]; decide +kernel

/-! ## What an outcome adds -/

namespace Outcome

/-- The file failed for a reason of this class. -/
def failedFor (reason : Text) (o : Outcome) : Bool := o.failure.any (·.category == reason)

/-- The outputs of both toolchains were compared and differ. -/
def mismatched (o : Outcome) : Bool :=
  match o.failure with
  | some (.mismatch _) => true
  | _ => false

/-- The run of this toolchain gave no output. -/
def blames (toolchain : Text) (o : Outcome) : Bool :=
  match o.failure with
  | some (.pipeline t _) => t == toolchain
  | _ => false

/-- The compiler ran, and did not succeed silently. -/
def miscompiled (o : Outcome) : Bool :=
  match o.failure with
  | some (.compile _ _) => true
  | _ => false

variable {o : Outcome}

theorem operation_of_none (h : o.failure = none) :
    o.operation = .increment ⟨filesPassed, []⟩ 1 := by
  rw [operation, passed, h]
  rfl

theorem operation_of_some {f : Failure} (h : o.failure = some f) :
    o.operation = .increment ⟨filesFailed, [("reason".toList, f.category)]⟩ 1 := by
  rw [operation, passed, h]
  rfl

theorem passed_of_none (h : o.failure = none) : o.passed = true := by simp [passed, h]

theorem passed_of_some {f : Failure} (h : o.failure = some f) : o.passed = false := by
  simp [passed, h]

theorem operation_single (o : Outcome) : o.operation.Single := by
  cases h : o.failure with
  | none => rw [operation_of_none h]; rfl
  | some f => rw [operation_of_some h]; rfl

theorem times_operation (o : Outcome) (series : Text) : o.operation.times series = false := by
  cases h : o.failure with
  | none => rw [operation_of_none h]; rfl
  | some f => rw [operation_of_some h]; rfl

theorem increments_passedSeries (o : Outcome) : o.operation.increments passedSeries = o.passed := by
  cases h : o.failure with
  | none =>
    rw [operation_of_none h, passed_of_none h, Operation.increments_increment]
    exact decide_eq_true rfl
  | some f =>
    rw [operation_of_some h, passed_of_some h]
    exact decide_eq_false (passedSeries_ne_failedSeries f.category).symm

theorem increments_failedSeries (o : Outcome) (reason : Text) :
    o.operation.increments (failedSeries reason) = o.failedFor reason := by
  unfold failedFor
  cases h : o.failure with
  | none =>
    rw [operation_of_none h]
    exact decide_eq_false (passedSeries_ne_failedSeries reason)
  | some f =>
    rw [operation_of_some h, Operation.increments_increment, Option.any_some, Bool.eq_iff_iff,
      decide_eq_true_iff, beq_iff_eq]
    exact failedSeries_inj

theorem incrementsChosen_operation (o : Outcome) :
    o.operation.incrementsChosen (· ≠ passedSeries) = !o.passed := by
  cases h : o.failure with
  | none =>
    rw [operation_of_none h, passed_of_none h]
    exact decide_eq_false fun hne : passedSeries ≠ passedSeries => hne rfl
  | some f =>
    rw [operation_of_some h, passed_of_some h]
    exact decide_eq_true (passedSeries_ne_failedSeries f.category).symm

/-- An outcome touches no other counters. -/
theorem eq_of_increments {series : Text} (hs : o.operation.increments series = true) :
    series = passedSeries ∨ ∃ reason, series = failedSeries reason := by
  cases h : o.failure with
  | none =>
    rw [operation_of_none h] at hs
    exact .inl (of_decide_eq_true hs).symm
  | some f =>
    rw [operation_of_some h] at hs
    exact .inr ⟨f.category, (of_decide_eq_true hs).symm⟩

theorem failedFor_unknown (o : Outcome) : o.failedFor "unknown".toList = false := by
  unfold failedFor
  cases o.failure with
  | none => rfl
  | some f => exact beq_eq_false_iff_ne.mpr f.category_ne_unknown

end Outcome

namespace Session

variable {σ : Type}

/-! ## What a file adds -/

/-- The names under which the runs of a file are measured, by its outcome. -/
def timed (mode : Mode) (o : Outcome) : List Text :=
  match mode with
  | .compare =>
    if o.passed || o.mismatched then [Settings.referenceName, Settings.candidateName]
    else if o.blames Settings.candidateName then [Settings.referenceName]
    else []
  | .smoke => if o.passed || o.miscompiled then [compilerName] else []

theorem judge_compared (s : Settings) (path : Path) (name : Text) (reference candidate : CapturedRun) :
    ((judge s (.clean path name) reference candidate).passed ||
      (judge s (.clean path name) reference candidate).mismatched) = true := by
  unfold judge
  split <;> rfl

theorem inspect_compiled (path : Path) (name : Text) (run : CapturedRun) :
    ((inspect (.clean path name) run).passed || (inspect (.clean path name) run).miscompiled) =
      true := by
  unfold inspect
  dsimp only
  split <;> rfl

/-- A file is measured once for each run that gave output. -/
theorem runFile_measured (runner : Runner σ) {s : Settings} (hs : s.Named) (mode : Mode)
    (path : Path) (state : σ) :
    ∃ runs : List (Text × CapturedRun),
      (runFile runner s mode path state).measured = runs.map (fun r => lengthOf r.1 r.2) ∧
      runs.map (·.1) = timed mode (runFile runner s mode path state).outcome := by
  cases mode with
  | compare =>
    show ∃ runs : List (Text × CapturedRun),
      (compareFile runner s path state).measured = runs.map (fun r => lengthOf r.1 r.2) ∧
      runs.map (·.1) = timed .compare (compareFile runner s path state).outcome
    rcases hr : runner.runPipeline s.reference s.timeout path state with ⟨e | a, between⟩
    · rw [compareFile_of_reference_error hr, hs.reference]
      exact ⟨[], rfl, rfl⟩
    rcases hc : runner.runPipeline s.candidate s.timeout path between with ⟨e | b, after⟩
    · rw [compareFile_of_candidate_error hr hc, hs.reference, hs.candidate]
      exact ⟨[(_, a)], rfl, rfl⟩
    · rw [compareFile_of_ok hr hc, hs.reference, hs.candidate]
      refine ⟨[(_, a), (_, b)], rfl, ?_⟩
      rw [timed, if_pos (judge_compared ..)]
      rfl
  | smoke =>
    show ∃ runs : List (Text × CapturedRun),
      (smokeFile runner s path state).measured = runs.map (fun r => lengthOf r.1 r.2) ∧
      runs.map (·.1) = timed .smoke (smokeFile runner s path state).outcome
    unfold smokeFile
    rcases runner.runCompiler s.compiler s.timeout path state with ⟨e | run, after⟩
    · exact ⟨[], rfl, rfl⟩
    · refine ⟨[(_, run)], rfl, ?_⟩
      rw [timed, if_pos (inspect_compiled ..)]
      rfl

/-- Whether a file leaves a value in a timing, by its outcome. -/
def timedIn (mode : Mode) (series : Text) (o : Outcome) : Bool :=
  match mode with
  | .compare =>
    if series = timingSeries Settings.candidateName then o.passed || o.mismatched
    else if series = timingSeries Settings.referenceName then
      o.passed || o.mismatched || o.blames Settings.candidateName
    else false
  | .smoke => if series = timingSeries compilerName then o.passed || o.miscompiled else false

theorem countP_timed (mode : Mode) (series : Text) (o : Outcome) :
    (timed mode o).countP (fun toolchain => timingSeries toolchain = series) =
      if timedIn mode series o then 1 else 0 := by
  have hne : timingSeries Settings.referenceName ≠ timingSeries Settings.candidateName :=
    fun h => absurd (timingSeries_inj.mp h) (by decide +kernel)
  unfold timed timedIn
  cases mode with
  | compare =>
    generalize (o.passed || o.mismatched) = compared
    generalize o.blames Settings.candidateName = blamed
    dsimp only
    by_cases hc : series = timingSeries Settings.candidateName
    · subst hc
      cases compared <;> cases blamed <;> simp [hne]
    · by_cases hr : series = timingSeries Settings.referenceName
      · subst hr
        cases compared <;> cases blamed <;> simp [hne, hne.symm]
      · cases compared <;> cases blamed <;> simp [hc, hr, Ne.symm hc, Ne.symm hr]
  | smoke =>
    generalize (o.passed || o.miscompiled) = compiled
    by_cases hc : series = timingSeries compilerName
    · subst hc
      cases compiled <;> simp
    · cases compiled <;> simp [hc, Ne.symm hc]

/-- The measurements of a file and of its outcome, by the outcome. -/
structure Measures (mode : Mode) (file : FileResult σ) : Prop where
  single : ∀ op ∈ file.measured ++ [file.outcome.operation], op.Single
  increments : ∀ series, (file.measured ++ [file.outcome.operation]).countP (·.increments series) =
    if file.outcome.operation.increments series then 1 else 0
  chosen : ∀ chosen, (file.measured ++ [file.outcome.operation]).countP (·.incrementsChosen chosen) =
    if file.outcome.operation.incrementsChosen chosen then 1 else 0
  times : ∀ series, (file.measured ++ [file.outcome.operation]).countP (·.times series) =
    if timedIn mode series file.outcome then 1 else 0

theorem runFile_measures (runner : Runner σ) {s : Settings} (hs : s.Named) (mode : Mode)
    (path : Path) (state : σ) : Measures mode (runFile runner s mode path state) := by
  obtain ⟨runs, hruns, htimed⟩ := runFile_measured runner hs mode path state
  generalize runFile runner s mode path state = file at hruns htimed
  have hnone : ∀ p : Operation → Bool, (∀ toolchain run, p (lengthOf toolchain run) = false) →
      (file.measured ++ [file.outcome.operation]).countP p =
        if p file.outcome.operation then 1 else 0 := by
    intro p hp
    rw [hruns, List.countP_append, List.countP_map, List.countP_singleton,
      List.countP_eq_zero.mpr fun r _ => by simp [hp], Nat.zero_add]
  refine ⟨fun op hop => ?_, fun series => hnone _ fun _ _ => rfl,
    fun chosen => hnone _ fun _ _ => rfl, fun series => ?_⟩
  · rw [hruns] at hop
    rcases List.mem_append.mp hop with hop | hop
    · obtain ⟨r, -, rfl⟩ := List.mem_map.mp hop
      trivial
    · rw [List.mem_singleton.mp hop]
      exact file.outcome.operation_single
  · rw [List.countP_append, List.countP_singleton, Outcome.times_operation, hruns, List.countP_map,
      ← countP_timed, ← htimed, List.countP_map]
    rfl

/-- Over a session, a property of measurements counts the outcomes that leave one with it. -/
theorem countP_measured {total notRun : Nat} {start : σ} {results : List (FileResult σ)}
    {p : Operation → Bool} {q : Outcome → Bool}
    (h : ∀ file ∈ results, (file.measured ++ [file.outcome.operation]).countP p =
      if q file.outcome then 1 else 0) :
    (settled total notRun start results).measured.countP p =
      (results.map (·.outcome)).countP q := by
  show (results.flatMap fun file => file.measured ++ [file.outcome.operation]).countP p = _
  induction results with
  | nil => rfl
  | cons file rest ih =>
    rw [List.flatMap_cons, List.countP_append, h file List.mem_cons_self,
      ih fun f hf => h f (List.mem_cons_of_mem _ hf), List.map_cons, List.countP_cons, Nat.add_comm]

theorem mem_trace {runFile : Path → σ → FileResult σ} {files : List Path} {state : σ}
    {file : FileResult σ} (h : file ∈ trace runFile files state) :
    ∃ path state, file = runFile path state := by
  induction files generalizing state with
  | nil => cases h
  | cons path rest ih =>
    rcases List.mem_cons.mp h with rfl | h
    · exact ⟨path, state, rfl⟩
    · exact ih h

theorem reached_measures (runner : Runner σ) {s : Settings} (hs : s.Named) (mode : Mode)
    (files : List Path) (state : σ) :
    ∀ file ∈ reached runner s mode files state, Measures mode file := by
  intro file hfile
  obtain ⟨path, state, rfl⟩ := mem_trace ((attempted_prefix_results ..).subset hfile)
  exact runFile_measures runner hs mode path state

/-! ## Counting outcomes -/

theorem countP_or_of_disjoint {α : Type} {p q : α → Bool} (h : ∀ a, p a = true → q a = false)
    (l : List α) : l.countP (fun a => p a || q a) = l.countP p + l.countP q := by
  induction l with
  | nil => rfl
  | cons a l ih =>
    rw [List.countP_cons, List.countP_cons, List.countP_cons, ih]
    cases hp : p a with
    | true => simp [h a hp]; omega
    | false => simp; omega

/-- A property that only failures have counts the same among the failures of a report. -/
theorem countP_failures {q : Outcome → Bool} (h : ∀ o, o.passed = true → q o = false)
    (notRun : Nat) (outcomes : List Outcome) :
    (Report.ofOutcomes notRun outcomes).failures.countP q = outcomes.countP q := by
  show (outcomes.filter (!·.passed)).countP q = _
  rw [List.countP_filter]
  refine List.countP_congr fun o _ => ?_
  cases hp : o.passed with
  | true => simp [h o hp]
  | false => simp

theorem passed_eq_true_iff {o : Outcome} : o.passed = true ↔ o.failure = none :=
  Option.isNone_iff_eq_none

theorem failedFor_of_passed {o : Outcome} (h : o.passed = true) (reason : Text) :
    o.failedFor reason = false := by
  rw [Outcome.failedFor, passed_eq_true_iff.mp h, Option.any_none]

theorem mismatched_of_passed {o : Outcome} (h : o.passed = true) : o.mismatched = false := by
  rw [Outcome.mismatched, passed_eq_true_iff.mp h]

theorem miscompiled_of_passed {o : Outcome} (h : o.passed = true) : o.miscompiled = false := by
  rw [Outcome.miscompiled, passed_eq_true_iff.mp h]

theorem blames_of_compared {o : Outcome} (h : (o.passed || o.mismatched) = true)
    (toolchain : Text) : o.blames toolchain = false := by
  unfold Outcome.passed Outcome.mismatched at h
  unfold Outcome.blames
  cases hf : o.failure with
  | none => rfl
  | some f =>
    cases f with
    | pipeline t e => rw [hf] at h; simp at h
    | _ => rfl

/-- The number of values that a report expects in a timing. -/
def expectedTimes (mode : Mode) (report : Report) (series : Text) : Nat :=
  let compared := report.passed + report.failures.countP (·.mismatched)
  match mode with
  | .compare =>
    if series = timingSeries Settings.candidateName then compared
    else if series = timingSeries Settings.referenceName then
      compared + report.failures.countP (·.blames Settings.candidateName)
    else 0
  | .smoke =>
    if series = timingSeries compilerName then
      report.passed + report.failures.countP (·.miscompiled)
    else 0

theorem countP_timedIn (mode : Mode) (series : Text) (notRun : Nat) (outcomes : List Outcome) :
    outcomes.countP (timedIn mode series) =
      expectedTimes mode (.ofOutcomes notRun outcomes) series := by
  have hcompared : outcomes.countP (fun o => o.passed || o.mismatched) =
      (Report.ofOutcomes notRun outcomes).passed +
        (Report.ofOutcomes notRun outcomes).failures.countP (·.mismatched) := by
    rw [countP_or_of_disjoint fun _ => mismatched_of_passed,
      countP_failures fun _ => mismatched_of_passed]
    rfl
  have hblamed : outcomes.countP (fun o =>
        o.passed || o.mismatched || o.blames Settings.candidateName) =
      (Report.ofOutcomes notRun outcomes).passed +
        (Report.ofOutcomes notRun outcomes).failures.countP (·.mismatched) +
        (Report.ofOutcomes notRun outcomes).failures.countP
          (·.blames Settings.candidateName) := by
    rw [countP_or_of_disjoint fun _ h => blames_of_compared h _, hcompared,
      countP_failures fun _ h => blames_of_compared (Bool.or_eq_true_iff.mpr (.inl h)) _]
  have hcompiled : outcomes.countP (fun o => o.passed || o.miscompiled) =
      (Report.ofOutcomes notRun outcomes).passed +
        (Report.ofOutcomes notRun outcomes).failures.countP (·.miscompiled) := by
    rw [countP_or_of_disjoint fun _ => miscompiled_of_passed,
      countP_failures fun _ => miscompiled_of_passed]
    rfl
  unfold expectedTimes timedIn
  cases mode with
  | compare =>
    dsimp only
    split_ifs
    · exact hcompared
    · exact hblamed
    · exact congrFun List.countP_false outcomes
  | smoke =>
    dsimp only
    split_ifs
    · exact hcompiled
    · exact congrFun List.countP_false outcomes

/-- A counter holds the number of outcomes that are filed under it. -/
theorem counter?_run (choices : List Settings.Choice) (runner : Runner σ) (mode : Mode)
    (files : List Path) (state : σ) (series : Text) :
    (Recorder.empty.recordAll (run runner (.ofChoices choices) mode files state).measured).counter?
        series =
      counted (((reached runner (.ofChoices choices) mode files state).map (·.outcome)).countP
        (·.operation.increments series)) := by
  have hmeasures := reached_measures runner (Settings.named_ofChoices choices) mode files state
  rw [run_eq runner (.ofChoices choices) mode files state]
  generalize reached runner (.ofChoices choices) mode files state = now at hmeasures
  rw [Recorder.counter?_recordAll fun op hop => ?_]
  · exact congrArg counted (countP_measured (q := (·.operation.increments series))
      fun file hfile => (hmeasures file hfile).increments series)
  · obtain ⟨file, hfile, hop⟩ := List.mem_flatMap.mp hop
    exact (hmeasures file hfile).single op hop

/-- A session adds at most one to a counter for each of its files. -/
theorem counter_le_files (choices : List Settings.Choice) (runner : Runner σ) (mode : Mode)
    (files : List Path) (state : σ) {series : Text} {n : Nat}
    (h : (Recorder.empty.recordAll
      (run runner (.ofChoices choices) mode files state).measured).counter? series = some n) :
    n ≤ files.length := by
  rw [counter?_run] at h
  have hcount : n = ((reached runner (.ofChoices choices) mode files state).map (·.outcome)).countP
      (·.operation.increments series) := by
    rw [← getD_counted (List.countP _ _), h]
    rfl
  rw [hcount]
  refine Nat.le_trans List.countP_le_length ?_
  rw [List.length_map]
  exact length_reached_le ..

/-- **Measurements agree with the report.** After a session with any settings, the counter of
passes holds the number of passed files and the counter of a reason the number of failures of that
class; the latter sum up to all failures, none is filed as unknown, and there are no other counters.
A timing has one value for each run that gave output: both runs of a file that was compared, the
run of the reference where the candidate gave none, and the run of a compiler that succeeded or
not.  A series that would count zero is absent. -/
theorem recorded_agrees_with_report (choices : List Settings.Choice) (runner : Runner σ)
    (mode : Mode) (files : List Path) (state : σ) :
    let r := run runner (.ofChoices choices) mode files state
    let recorder := Recorder.empty.recordAll r.measured
    recorder.counter? passedSeries = counted r.report.passed ∧
      (∀ reason, recorder.counter? (failedSeries reason) =
        counted (r.report.failures.countP (·.failedFor reason))) ∧
      recorder.counters.sumOver (· ≠ passedSeries) = r.report.failed ∧
      recorder.counter? (failedSeries "unknown".toList) = none ∧
      (∀ series, recorder.counter? series ≠ none →
        series = passedSeries ∨ ∃ reason, series = failedSeries reason) ∧
      ∀ series, (recorder.timing? series).map (·.count) =
        counted (expectedTimes mode r.report series) := by
  intro r recorder
  have hmeasures := reached_measures runner (Settings.named_ofChoices choices) mode files state
  have hr : r = _ := run_eq runner (.ofChoices choices) mode files state
  set now := reached runner (.ofChoices choices) mode files state
  generalize files.length - now.length = notRun at hr
  have hreport : r.report = .ofOutcomes notRun (now.map (·.outcome)) := congrArg (·.report) hr
  have hsingle : ∀ op ∈ r.measured, op.Single := by
    rw [hr]
    intro op hop
    obtain ⟨file, hfile, hop⟩ := List.mem_flatMap.mp hop
    exact (hmeasures file hfile).single op hop
  have hcounter : ∀ series, recorder.counter? series =
      counted ((now.map (·.outcome)).countP (·.operation.increments series)) :=
    counter?_run choices runner mode files state
  have hfailed : ∀ reason, recorder.counter? (failedSeries reason) =
      counted (r.report.failures.countP (·.failedFor reason)) := by
    intro reason
    rw [hcounter, hreport, countP_failures fun _ h => failedFor_of_passed h reason]
    simp only [Outcome.increments_failedSeries]
  refine ⟨?_, hfailed, ?_, ?_, fun series hseries => ?_, fun series => ?_⟩
  · rw [hcounter, hreport]
    simp only [Outcome.increments_passedSeries]
    rfl
  · rw [Recorder.sumOver_recordAll hsingle, hreport, hr]
    refine (countP_measured (q := (!·.passed)) fun file hfile => ?_)
    rw [← Outcome.incrementsChosen_operation]
    exact (hmeasures file hfile).chosen _
  · rw [hfailed, List.countP_eq_zero.mpr fun o _ => by rw [Outcome.failedFor_unknown]; decide]
    rfl
  · have hpos : (now.map (·.outcome)).countP (·.operation.increments series) ≠ 0 := by
      intro hzero
      rw [hcounter, hzero] at hseries
      exact hseries rfl
    obtain ⟨o, -, ho⟩ := List.countP_pos_iff.mp (Nat.pos_of_ne_zero hpos)
    exact Outcome.eq_of_increments ho
  · rw [Recorder.timing?_recordAll, hreport, ← countP_timedIn, hr]
    exact congrArg counted (countP_measured fun file hfile => (hmeasures file hfile).times series)

end Session

end Conformance
