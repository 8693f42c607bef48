import Conformance.Proofs.Pipeline.Compiler
import Conformance.Proofs.Text.Lines
import Conformance.Session.Hosted

/-!
# The verdict of a smoke test

A smoke test passes on what a compiler did: it exited with code zero, and it wrote a text to its
standard output and nothing to its error output.  What it wrote is kept as it is, line by line, and
any other run fails, with its exit code and its errors if it was captured.

A session asks a runner; here it is one that carries out its runs on a host (`Host.runner`).  What
is said of an outcome is said of one with a state behind it, of a run that has ended.  A look at the
compiler that finds that it has exited is believed whatever the clock shows by then, so that a
compiler that was still running when its time was up can pass (`smokeFile_passes_late`), if only by
less than the time between two looks.
-/

namespace Conformance

variable {σ : Type}

namespace ExitStatus

theorem success_iff {st : ExitStatus} : st.success = true ↔ st = .exited 0 := by
  obtain ⟨word⟩ := st
  simp [success, exited]

theorem code?_exited {code : Nat} (h : code < 256) : (exited code).code? = some code := by
  have hcode : ((code : Int) % 0x1000000).toNat = code := by omega
  have hsignal : (exited code).signal = 0 := by
    unfold signal exited
    rw [hcode]
    show code * 256 % 128 = 0
    omega
  unfold code?
  rw [if_pos hsignal, exited, hcode]
  simp only [Option.some.injEq]
  omega

theorem code?_signaled {signal : Nat} (h : signal % 128 ≠ 0) : (signaled signal).code? = none := by
  have hsignal : (signaled signal).signal ≠ 0 := by
    unfold ExitStatus.signal signaled
    simp only
    omega
  unfold code?
  rw [if_neg hsignal]

end ExitStatus

theorem Text.lines_eq_nil_iff {t : Text} : t.lines = [] ↔ t = [] := by
  refine ⟨fun h => ?_, fun h => by rw [h]; rfl⟩
  by_contra hne
  exact lines_ne_nil hne h

namespace Session

/-- The outcome of a compiler that ended with a status and wrote two texts. -/
def smokeOutcome (path : Path) (name : Text) (st : ExitStatus) (t u : Text) : Outcome where
  path
  name
  failure :=
    if st = .exited 0 ∧ u = [] then none else some (.compile (st.code?.map Int.ofNat) u.lines)
  output := t.lines
  errors := u.lines

theorem smokeOutcome_passed_iff {path : Path} {name : Text} {st : ExitStatus} {t u : Text} :
    (smokeOutcome path name st t u).passed = true ↔ st = .exited 0 ∧ u = [] := by
  unfold smokeOutcome Outcome.passed
  by_cases h : st = .exited 0 ∧ u = []
  · simp [h]
  · simp [h]

theorem inspect_eq (path : Path) (name : Text) (st : ExitStatus) (t u : Text)
    (elapsed : Duration) :
    inspect (.clean path name) ⟨t.lines, u.lines, st, none, elapsed⟩ =
      smokeOutcome path name st t u := by
  have hclean : (⟨t.lines, u.lines, st, none, elapsed⟩ : CapturedRun).isClean = true ↔
      st = .exited 0 ∧ u = [] := by
    rw [CapturedRun.isClean, Bool.and_eq_true, ExitStatus.success_iff, List.isEmpty_iff,
      Text.lines_eq_nil_iff]
  unfold inspect smokeOutcome
  by_cases h : st = .exited 0 ∧ u = []
  · rw [if_pos h]
    simp only [hclean.mpr h, if_true]
    rfl
  · rw [if_neg h]
    simp only [Bool.eq_false_of_not_eq_true fun hc => h (hclean.mp hc)]
    rfl

section Smoke

variable {h : Host σ} {s : Settings} {path : Path} {state : σ} {rounds : Nat}

theorem runner_runCompiler (h : Host σ) (rounds : Nat) (compiler : Invocation)
    (limit : Option Duration) (source : Path) (s : σ) :
    (h.runner rounds).runCompiler compiler limit source (some s) =
      match Executor.runCompiler h rounds limit compiler source s with
      | (some result, s) => (result, some s)
      | (none, _) => (Host.unanswered, none) := rfl

theorem runner_of_ended {after : σ} {result : Except PipelineError CapturedRun}
    (hrun : Executor.runCompiler h rounds s.timeout s.compiler path state = (some result, after)) :
    (h.runner rounds).runCompiler s.compiler s.timeout path (some state) =
      (result, some after) := by
  rw [runner_runCompiler, hrun]

/-- A state behind a smoke test is that of a run that has ended, and the outcome tells its
result. -/
theorem smokeFile_state_iff {after : σ} :
    (smokeFile (h.runner rounds) s path (some state)).state = some after ↔
      ∃ result,
        Executor.runCompiler h rounds s.timeout s.compiler path state = (some result, after) := by
  constructor
  · intro hstate
    rcases hrun : Executor.runCompiler h rounds s.timeout s.compiler path state with
      ⟨_ | result, s'⟩
    · rw [smokeFile, runner_runCompiler, hrun] at hstate
      exact nomatch hstate
    · rw [smokeFile, runner_of_ended hrun] at hstate
      obtain rfl : s' = after := by cases result <;> exact Option.some.inj hstate
      exact ⟨result, rfl⟩
  · rintro ⟨result, hrun⟩
    rw [smokeFile, runner_of_ended hrun]
    cases result <;> rfl

theorem smokeFile_of_run {run : CapturedRun} {after : σ}
    (hrun : Executor.runCompiler h rounds s.timeout s.compiler path state =
      (some (.ok run), after)) :
    (smokeFile (h.runner rounds) s path (some state)).outcome =
      inspect (.clean path (nameOf s path)) run := by
  rw [smokeFile, runner_of_ended hrun]

theorem smokeFile_of_error {e : PipelineError} {after : σ}
    (hrun : Executor.runCompiler h rounds s.timeout s.compiler path state =
      (some (.error e), after)) :
    (smokeFile (h.runner rounds) s path (some state)).outcome =
      ⟨path, nameOf s path, some (.pipeline compilerName e), [], []⟩ := by
  rw [smokeFile, runner_of_ended hrun]
  rfl

theorem smokeFile_mono {n m : Nat} {after : σ}
    (hstate : (smokeFile (h.runner n) s path (some state)).state = some after) (hle : n ≤ m) :
    smokeFile (h.runner m) s path (some state) = smokeFile (h.runner n) s path (some state) := by
  obtain ⟨result, hrun⟩ := smokeFile_state_iff.mp hstate
  have hsome : (Executor.runCompiler h n s.timeout s.compiler path state).1 ≠ none := by
    rw [hrun]
    exact Option.some_ne_none result
  have hmore := (Executor.runCompiler_mono hsome hle).trans hrun
  rw [smokeFile, smokeFile, runner_of_ended hmore, runner_of_ended hrun]

/-- A smoke test whose run has ended tells what the compiler did, or why that is not known. -/
theorem smokeFile_cases {after : σ}
    (hstate : (smokeFile (h.runner rounds) s path (some state)).state = some after) :
    (∃ st t u, Executor.Compiles h ⟨(h.now state).1, s.timeout⟩ s.compiler path (h.now state).2 st
        (Utf8.encode t) (Utf8.encode u) ∧
      (smokeFile (h.runner rounds) s path (some state)).outcome =
        smokeOutcome path (nameOf s path) st t u) ∨
      ∃ e, (Executor.runCompiler h rounds s.timeout s.compiler path state).1 = some (.error e) ∧
        (smokeFile (h.runner rounds) s path (some state)).outcome =
          ⟨path, nameOf s path, some (.pipeline compilerName e), [], []⟩ := by
  obtain ⟨e | run, hrun⟩ := smokeFile_state_iff.mp hstate
  · exact .inr ⟨e, by rw [hrun], smokeFile_of_error hrun⟩
  · obtain ⟨st, t, u, elapsed, hcompiles, rfl⟩ := Executor.compiles_of_runCompiler (by rw [hrun])
    exact .inl ⟨st, t, u, hcompiles, (smokeFile_of_run hrun).trans (inspect_eq ..)⟩

/-- What a compiler did is told if it wrote texts, as long as enough looks are allowed. -/
theorem smokeFile_of_compiles {st : ExitStatus} {t u : Text}
    (hcompiles : Executor.Compiles h ⟨(h.now state).1, s.timeout⟩ s.compiler path (h.now state).2
      st (Utf8.encode t) (Utf8.encode u)) :
    ∃ rounds after, (smokeFile (h.runner rounds) s path (some state)).state = some after ∧
      (smokeFile (h.runner rounds) s path (some state)).outcome =
        smokeOutcome path (nameOf s path) st t u := by
  obtain ⟨n, elapsed, hn⟩ := Executor.runCompiler_of_compiles hcompiles
  obtain ⟨after, hrun⟩ : ∃ after, Executor.runCompiler h n s.timeout s.compiler path state =
      (some (.ok ⟨t.lines, u.lines, st, none, elapsed⟩), after) :=
    ⟨_, Prod.ext (hn n (Nat.le_refl n)) rfl⟩
  exact ⟨n, after, smokeFile_state_iff.mpr ⟨_, hrun⟩,
    (smokeFile_of_run hrun).trans (inspect_eq ..)⟩

end Smoke

/-- **The verdict of a smoke test.** Whatever the host answers, there is a result exactly if the
compiler cannot be started or waiting for it ends, and it does not depend on how long the waiting is
followed.  A file passes exactly if the compiler was started, was seen to have exited with code
zero, wrote a text to its standard output and nothing to its error output.  The texts that a
compiler wrote are kept as their lines, and if it did not pass so is its exit code, which it has
unless a signal ended it.  If its run was not captured, the file fails with the error of the
compiler's run, and nothing is kept.  With a limit, and where only sleeping takes time, the exit was
seen at the first look or before one poll interval more than the limit had passed. -/
theorem smokeFile_verdict (h : Host σ) (s : Settings) (path : Path) (state : σ) :
    let ran := fun rounds => smokeFile (h.runner rounds) s path (some state)
    let launch := Executor.compilerLaunch s.compiler path
    let start := (h.now state).1
    let Captured := fun st t u => Executor.Compiles h ⟨start, s.timeout⟩ s.compiler path
      (h.now state).2 st (Utf8.encode t) (Utf8.encode u)
    ((∃ rounds after, (ran rounds).state = some after) ↔
      ∀ child s₁, h.spawn launch (h.now state).2 = (.ok child, s₁) →
        ∃ r, Executor.Waits h ⟨start, s.timeout⟩ [⟨child, .compiler, none⟩] s₁ r) ∧
    (∀ n m after, (ran n).state = some after → n ≤ m → ran m = ran n) ∧
    ((∃ rounds after, (ran rounds).state = some after ∧ (ran rounds).outcome.passed = true) ↔
      ∃ t, Captured (.exited 0) t []) ∧
    (∀ st t u, Captured st t u → ∃ rounds after, (ran rounds).state = some after ∧
      (ran rounds).outcome = smokeOutcome path (nameOf s path) st t u) ∧
    (∀ rounds after, (ran rounds).state = some after →
      (∃ st t u, Captured st t u ∧
        (ran rounds).outcome = smokeOutcome path (nameOf s path) st t u) ∨
      ∃ e, (Executor.runCompiler h rounds s.timeout s.compiler path state).1 = some (.error e) ∧
        (ran rounds).outcome = ⟨path, nameOf s path, some (.pipeline compilerName e), [], []⟩) ∧
    (∀ clock : σ → Nat, Executor.TimedBySleep h clock → ∀ limit, s.timeout = some limit →
      ∀ st t u, Captured st t u → ∃ child s₁ s₂, h.spawn launch (h.now state).2 = (.ok child, s₁) ∧
        Executor.Exits h ⟨start, s.timeout⟩ child s₁ st s₂ ∧
        (clock s₂ = clock s₁ ∨
          clock s₂ < start.nanos + limit.nanos + Executor.pollInterval.nanos)) ∧
    (∀ code : Nat, code < 256 → (ExitStatus.exited code).code? = some code) ∧
    ∀ signal : Nat, signal % 128 ≠ 0 → (ExitStatus.signaled signal).code? = none := by
  intro ran launch start Captured
  refine ⟨?_, fun n m after => smokeFile_mono, ⟨?_, ?_⟩, fun st t u => smokeFile_of_compiles,
    fun rounds after => smokeFile_cases, fun clock htimed limit hlimit st t u hcaptured => ?_,
    fun code => ExitStatus.code?_exited, fun signal => ExitStatus.code?_signaled⟩
  · rw [← Executor.exists_runCompiler_iff]
    refine exists_congr fun rounds => ?_
    simp only [ran, smokeFile_state_iff]
    rw [Option.ne_none_iff_exists']
    exact ⟨fun ⟨after, result, hrun⟩ => ⟨result, by rw [hrun]⟩,
      fun ⟨result, hrun⟩ => ⟨_, result, Prod.ext hrun rfl⟩⟩
  · rintro ⟨rounds, after, hstate, hpassed⟩
    obtain ⟨st, t, u, hcaptured, heq⟩ | ⟨e, -, heq⟩ := smokeFile_cases hstate
    · rw [heq] at hpassed
      obtain ⟨rfl, rfl⟩ := smokeOutcome_passed_iff.mp hpassed
      exact ⟨t, hcaptured⟩
    · rw [heq] at hpassed
      exact nomatch hpassed
  · rintro ⟨t, hcaptured⟩
    obtain ⟨rounds, after, hstate, heq⟩ := smokeFile_of_compiles hcaptured
    refine ⟨rounds, after, hstate, ?_⟩
    rw [heq]
    exact smokeOutcome_passed_iff.mpr ⟨rfl, rfl⟩
  · exact hcaptured.seen_within htimed hlimit

/-- A host on which only sleeping takes time.  A child writes nothing and exits after a while. -/
def sleeper (naps : Duration) : Host Duration where
  now s := (s, s)
  spawn _ s := (.ok 0, s)
  poll _ s := (.ok (if naps.nanos ≤ s.nanos then some (.exited 0) else none), s)
  kill _ s := s
  reap _ s := (some (.exited 0), s)
  drain _ _ s := (.ok [], s)
  drainWithin _ _ _ s := (.bytes [], s)
  sleep interval s := ⟨s.nanos + interval.nanos⟩

/-- A compiler that is still running when its time is up passes, if it exits before the next look
at it. -/
theorem smokeFile_passes_late :
    let limit : Duration := ⟨9000000⟩
    let s : Settings := { Settings.initial with timeout := some limit }
    let ran := smokeFile ((sleeper ⟨10000000⟩).runner 2) s (.ofText "x.cl".toList) (some ⟨0⟩)
    (∀ now : Duration, now.nanos ≤ limit.nanos → ((sleeper ⟨10000000⟩).poll 0 now).1 = .ok none) ∧
      ran.state = some Executor.pollInterval ∧ ran.outcome.passed = true := by
  intro limit s ran
  refine ⟨fun now hnow => ?_, by rfl, by rfl⟩
  have hrunning : ¬10000000 ≤ now.nanos := fun hle => absurd (Nat.le_trans hle hnow) (by decide)
  show Except.ok (if 10000000 ≤ now.nanos then some (ExitStatus.exited 0) else none) = _
  rw [if_neg hrunning]

end Session

end Conformance
