import Conformance.Proofs.Pipeline.Decoding
import Conformance.Proofs.Pipeline.Following

/-!
# The course of a pipeline

The result of a pipeline as a relation on what the host answers, one rule for each way to end:
`Drains` and `Reads` for an output, `Captures` for both outputs of the last stage, `Finishes` for
the stages that have exited, `Runs` for the whole.  `runPipeline_exact` says that the results are
these.
-/

namespace Conformance

variable {σ : Type} {h : Host σ} {d : Executor.Deadline}

namespace Executor

/-! ## Outputs -/

/-- What comes from an output of a child; if there is a limit, within the time that is left. -/
inductive Drains (h : Host σ) (d : Deadline) (stage : Stage) (child : Child) (channel : Channel)
    (s : σ) : Except PipelineError (List UInt8) → σ → Prop
  | all {bytes s'} : d.limit = none → h.drain child channel s = (.ok bytes, s') →
      Drains h d stage child channel s (.ok bytes) s'
  | fault {cause s'} : d.limit = none → h.drain child channel s = (.error cause, s') →
      Drains h d stage child channel s (.error (.collect stage cause)) s'
  | allWithin {limit now s₁ bytes s'} : d.limit = some limit → h.now s = (now, s₁) →
      h.drainWithin child channel (limit.minus ⟨now.nanos - d.start.nanos⟩) s₁ =
        (.bytes bytes, s') →
      Drains h d stage child channel s (.ok bytes) s'
  | faultWithin {limit now s₁ cause s'} : d.limit = some limit → h.now s = (now, s₁) →
      h.drainWithin child channel (limit.minus ⟨now.nanos - d.start.nanos⟩) s₁ =
        (.fault cause, s') →
      Drains h d stage child channel s (.error (.collect stage cause)) s'
  | late {limit now s₁ s'} : d.limit = some limit → h.now s = (now, s₁) →
      h.drainWithin child channel (limit.minus ⟨now.nanos - d.start.nanos⟩) s₁ = (.late, s') →
      Drains h d stage child channel s (.error (.timeout limit)) s'

theorem collect_iff {g : Guard} {channel : Channel} {s s' : σ}
    {r : Except PipelineError (List UInt8)} :
    collect h d g channel s = (r, s') ↔ Drains h d g.stage g.child channel s r s' := by
  unfold collect Deadline.remaining
  constructor
  · intro heq
    rcases hlimit : d.limit with _ | limit <;> rw [hlimit] at heq
    · rcases hdrain : h.drain g.child channel s with ⟨cause | bytes, s₁⟩ <;>
        simp only [hdrain] at heq <;> obtain ⟨rfl, rfl⟩ := Prod.mk.inj heq
      · exact .fault hlimit hdrain
      · exact .all hlimit hdrain
    · rcases hnow : h.now s with ⟨now, s₁⟩
      rcases hdrain : h.drainWithin g.child channel
        (limit.minus ⟨now.nanos - d.start.nanos⟩) s₁ with ⟨bytes | cause | _, s₂⟩ <;>
        simp only [hnow, hdrain] at heq <;> obtain ⟨rfl, rfl⟩ := Prod.mk.inj heq
      · exact .allWithin hlimit hnow hdrain
      · exact .faultWithin hlimit hnow hdrain
      · rw [Deadline.error, hlimit]
        exact .late hlimit hnow hdrain
  · intro hdrains
    cases hdrains with
    | all hlimit hdrain => simp only [hlimit, hdrain]
    | fault hlimit hdrain => simp only [hlimit, hdrain]
    | allWithin hlimit hnow hdrain => simp only [hlimit, hnow, hdrain]
    | faultWithin hlimit hnow hdrain => simp only [hlimit, hnow, hdrain]
    | late hlimit hnow hdrain =>
      simp only [hlimit, hnow, hdrain, Deadline.error, Option.getD_some]

/-- The lines of an output: its bytes are drained, then decoded. -/
inductive Reads (h : Host σ) (d : Deadline) (stage : Stage) (child : Child) (channel : Channel)
    (s : σ) : Except PipelineError (List Text) → σ → Prop
  | drain {e s'} : Drains h d stage child channel s (.error e) s' →
      Reads h d stage child channel s (.error e) s'
  | decoding {bytes s'} {fault : Utf8.Fault} : Drains h d stage child channel s (.ok bytes) s' →
      fault.Locates bytes →
      Reads h d stage child channel s (.error (.decode stage channel fault)) s'
  | lines {t s'} : Drains h d stage child channel s (.ok (Utf8.encode t)) s' →
      Reads h d stage child channel s (.ok t.lines) s'

theorem collectLines_iff {g : Guard} {channel : Channel} {s s' : σ}
    {r : Except PipelineError (List Text)} :
    collectLines h d g channel s = (r, s') ↔ Reads h d g.stage g.child channel s r s' := by
  unfold collectLines
  constructor
  · intro heq
    rcases hcollect : collect h d g channel s with ⟨e | bytes, s₁⟩ <;>
      simp only [hcollect] at heq <;> obtain ⟨rfl, rfl⟩ := Prod.mk.inj heq
    · exact .drain (collect_iff.mp hcollect)
    · have hdrains := collect_iff.mp hcollect
      cases hdecode : decodeLines g.stage channel bytes with
      | error e =>
        obtain ⟨fault, hfault, rfl⟩ := decodeLines_eq_error_iff.mp hdecode
        exact .decoding hdrains hfault
      | ok ls =>
        obtain ⟨t, rfl, rfl⟩ := decodeLines_eq_ok_iff.mp hdecode
        exact .lines hdrains
  · intro hreads
    cases hreads with
    | drain hdrains => rw [collect_iff.mpr hdrains]
    | decoding hdrains hfault =>
      simp only [collect_iff.mpr hdrains, decodeLines_eq_error_iff.mpr ⟨_, hfault, rfl⟩]
    | lines hdrains =>
      simp only [collect_iff.mpr hdrains, decodeLines_eq_ok_iff.mpr ⟨_, rfl, rfl⟩]

/-- What is captured of the last stage: the lines of both outputs, the standard output first, and
the time that has passed. -/
inductive Captures (h : Host σ) (d : Deadline) (stage : Stage) (child : Child) (s : σ) :
    Except PipelineError (List Text × List Text × Duration) → Prop
  | stdout {e s₁} : Reads h d stage child .stdout s (.error e) s₁ →
      Captures h d stage child s (.error e)
  | stderr {out s₁ e s₂} : Reads h d stage child .stdout s (.ok out) s₁ →
      Reads h d stage child .stderr s₁ (.error e) s₂ → Captures h d stage child s (.error e)
  | captured {out s₁ err s₂ now s₃} : Reads h d stage child .stdout s (.ok out) s₁ →
      Reads h d stage child .stderr s₁ (.ok err) s₂ → h.now s₂ = (now, s₃) →
      Captures h d stage child s (.ok (out, err, ⟨now.nanos - d.start.nanos⟩))

/-- The captured run of a stage that has exited. -/
def captured (st : ExitStatus) (lexer : Option ExitStatus) :
    List Text × List Text × Duration → CapturedRun
  | (stdout, stderr, elapsed) => ⟨stdout, stderr, st, lexer, elapsed⟩

theorem capture_iff {g : Guard} {lexer : Option Guard} {st : ExitStatus} {s : σ}
    (hst : g.status = some st) {r : Except PipelineError CapturedRun} :
    (capture h d g lexer s).1 = r ↔
      ∃ r', Captures h d g.stage g.child s r' ∧
        r = r'.map (captured st (lexer.bind (·.status))) := by
  unfold capture
  constructor
  · rintro rfl
    rcases hout : collectLines h d g .stdout s with ⟨e | out, s₁⟩
    · exact ⟨_, .stdout (collectLines_iff.mp hout), rfl⟩
    · rcases herr : collectLines h d g .stderr s₁ with ⟨e | err, s₂⟩
      · simp only [herr]
        exact ⟨_, .stderr (collectLines_iff.mp hout) (collectLines_iff.mp herr), rfl⟩
      · refine ⟨_, .captured (collectLines_iff.mp hout) (collectLines_iff.mp herr) rfl, ?_⟩
        simp only [herr, hst]
        rfl
  · rintro ⟨r', hcaptures, rfl⟩
    cases hcaptures with
    | stdout hout => simp only [collectLines_iff.mpr hout]; rfl
    | stderr hout herr => simp only [collectLines_iff.mpr hout, collectLines_iff.mpr herr]; rfl
    | captured hout herr hnow =>
      simp only [collectLines_iff.mpr hout, collectLines_iff.mpr herr, hnow, hst]
      rfl

/-- The result of a pipeline whose lexer and parser have exited with statuses. -/
inductive Finishes (h : Host σ) (d : Deadline) (lexer parser : Child) (st st' : ExitStatus)
    (s : σ) : Except PipelineError CapturedRun → Prop
  | lexerStderr {e s₁} : Drains h d .lexer lexer .stderr s (.error e) s₁ →
      Finishes h d lexer parser st st' s (.error e)
  | output {bytes s₁ e} : Drains h d .lexer lexer .stderr s (.ok bytes) s₁ →
      Captures h d .parser parser s₁ (.error e) → Finishes h d lexer parser st st' s (.error e)
  | captured {bytes s₁ stdout stderr elapsed} : Drains h d .lexer lexer .stderr s (.ok bytes) s₁ →
      Captures h d .parser parser s₁ (.ok (stdout, stderr, elapsed)) →
      Finishes h d lexer parser st st' s (.ok ⟨stdout, stderr, st', some st, elapsed⟩)

theorem finishPipeline_eq {lexer : Child} {s s₁ : σ} {r : Except PipelineError (List UInt8)}
    (st : ExitStatus) (parser : Guard) (hdrains : Drains h d .lexer lexer .stderr s r s₁) :
    (finishPipeline h d [⟨lexer, .lexer, some st⟩, parser] s).1 =
      some (r.bind fun _ => (capture h d parser (some ⟨lexer, .lexer, some st⟩) s₁).1) := by
  have hcollect := (collect_iff (g := ⟨lexer, .lexer, some st⟩)).mpr hdrains
  rw [finishPipeline, hcollect]
  cases r <;> rfl

theorem finishPipeline_iff {lexer parser : Child} {st st' : ExitStatus} {s : σ}
    {r : Except PipelineError CapturedRun} :
    (finishPipeline h d [⟨lexer, .lexer, some st⟩, ⟨parser, .parser, some st'⟩] s).1 = some r ↔
      Finishes h d lexer parser st st' s r := by
  have hcapture : ∀ s r,
      (capture h d ⟨parser, .parser, some st'⟩ (some ⟨lexer, .lexer, some st⟩) s).1 = r ↔
        ∃ r', Captures h d .parser parser s r' ∧ r = r'.map (captured st' (some st)) :=
    fun s r => capture_iff rfl
  constructor
  · rcases hstderr : collect h d ⟨lexer, .lexer, some st⟩ .stderr s with ⟨bytes, s₁⟩
    have hdrains := collect_iff.mp hstderr
    rw [finishPipeline_eq _ _ hdrains, Option.some.injEq]
    rintro rfl
    cases bytes with
    | error e => exact .lexerStderr hdrains
    | ok bytes =>
      obtain ⟨_ | ⟨stdout, stderr, elapsed⟩, hcaptures, hr⟩ := (hcapture s₁ _).mp rfl
      · rw [Except.bind, hr]
        exact .output hdrains hcaptures
      · rw [Except.bind, hr]
        exact .captured hdrains hcaptures
  · intro hfinishes
    cases hfinishes with
    | lexerStderr hdrains => rw [finishPipeline_eq _ _ hdrains, Except.bind]
    | output hdrains hcaptures =>
      rw [finishPipeline_eq _ _ hdrains, Except.bind, (hcapture _ _).mpr ⟨_, hcaptures, rfl⟩]
      rfl
    | captured hdrains hcaptures =>
      rw [finishPipeline_eq _ _ hdrains, Except.bind, (hcapture _ _).mpr ⟨_, hcaptures, rfl⟩]
      rfl

/-! ## Pipelines -/

/-- The result of a pipeline, from the time on at which it was started: the first step that fails
decides it. -/
inductive Runs (h : Host σ) (d : Deadline) (t : Toolchain) (source : Path) (s : σ) :
    Except PipelineError CapturedRun → Prop
  | lexerLaunch {cause s₁} : h.spawn (lexerLaunch t source) s = (.error cause, s₁) →
      Runs h d t source s (.error (.launch .lexer cause))
  | parserLaunch {lexer s₁ cause s₂} : h.spawn (lexerLaunch t source) s = (.ok lexer, s₁) →
      h.spawn (parserLaunch t lexer) s₁ = (.error cause, s₂) →
      Runs h d t source s (.error (.launch .parser cause))
  | waiting {lexer parser s₁ e} : Launched h t source s lexer parser s₁ →
      Waits h d [⟨lexer, .lexer, none⟩, ⟨parser, .parser, none⟩] s₁ (.error e) →
      Runs h d t source s (.error e)
  | exited {lexer parser s₁ st st' s₂ r} : Launched h t source s lexer parser s₁ →
      Waits h d [⟨lexer, .lexer, none⟩, ⟨parser, .parser, none⟩] s₁
        (.ok ([⟨lexer, .lexer, some st⟩, ⟨parser, .parser, some st'⟩], s₂)) →
      Finishes h d lexer parser st st' s₂ r → Runs h d t source s r

section Pipeline

variable {limit : Option Duration} {t : Toolchain} {source : Path} {s : σ}

theorem runs_of_runPipeline {n : Nat} {r : Except PipelineError CapturedRun}
    (heq : (runPipeline h n limit t source s).1 = some r) :
    Runs h ⟨(h.now s).1, limit⟩ t source (h.now s).2 r := by
  rcases hnow : h.now s with ⟨start, s₀⟩
  rcases hlexer : h.spawn (lexerLaunch t source) s₀ with ⟨cause | lexer, s₁⟩
  · rw [runPipeline_lexerFault hnow hlexer] at heq
    cases heq
    exact .lexerLaunch hlexer
  rcases hparser : h.spawn (parserLaunch t lexer) s₁ with ⟨cause | parser, s₂⟩
  · rw [runPipeline_parserFault hnow hlexer hparser] at heq
    cases heq
    exact .parserLaunch hlexer hparser
  have hlaunched : Launched h t source s₀ lexer parser s₂ := ⟨hlexer, hparser⟩
  rw [runPipeline_launched hnow hlaunched] at heq
  rcases hwait : waitAll h ⟨start, limit⟩ n [⟨lexer, .lexer, none⟩, ⟨parser, .parser, none⟩] s₂
    with ⟨_ | e | _, gs, s₃⟩ <;> rw [hwait] at heq
  · have hwaits := waits_of_ended (ended_eq_ok.mpr hwait)
    obtain ⟨sts, hlength, rfl⟩ := hwaits.exited_eq
    obtain ⟨st, st', rfl⟩ := List.length_eq_two.mp hlength
    exact .exited hlaunched hwaits (finishPipeline_iff.mp heq)
  · cases heq
    exact .waiting hlaunched (waits_of_ended (ended_eq_error.mpr ⟨gs, s₃, hwait⟩))
  · cases heq

theorem runPipeline_of_runs {r : Except PipelineError CapturedRun}
    (hruns : Runs h ⟨(h.now s).1, limit⟩ t source (h.now s).2 r) :
    ∃ n, (runPipeline h n limit t source s).1 = some r := by
  cases hruns with
  | lexerLaunch hlexer => exact ⟨0, by rw [runPipeline_lexerFault rfl hlexer]⟩
  | parserLaunch hlexer hparser => exact ⟨0, by rw [runPipeline_parserFault rfl hlexer hparser]⟩
  | waiting hlaunched hwaits =>
    obtain ⟨n, hn⟩ := ended_of_waits hwaits
    obtain ⟨gs, s₃, hwait⟩ := ended_eq_error.mp hn
    exact ⟨n, by rw [runPipeline_launched rfl hlaunched, hwait, conclude]⟩
  | exited hlaunched hwaits hfinishes =>
    obtain ⟨n, hn⟩ := ended_of_waits hwaits
    refine ⟨n, ?_⟩
    rw [runPipeline_launched rfl hlaunched, ended_eq_ok.mp hn]
    exact finishPipeline_iff.mpr hfinishes

/-- Only waiting can keep a pipeline from having a result. -/
theorem exists_runs (hwait : ∀ lexer parser s₁, Launched h t source s lexer parser s₁ →
      ∃ w, Waits h d [⟨lexer, .lexer, none⟩, ⟨parser, .parser, none⟩] s₁ w) :
    ∃ r, Runs h d t source s r := by
  rcases hlexer : h.spawn (lexerLaunch t source) s with ⟨cause | lexer, s₁⟩
  · exact ⟨_, .lexerLaunch hlexer⟩
  rcases hparser : h.spawn (parserLaunch t lexer) s₁ with ⟨cause | parser, s₂⟩
  · exact ⟨_, .parserLaunch hlexer hparser⟩
  have hlaunched : Launched h t source s lexer parser s₂ := ⟨hlexer, hparser⟩
  obtain ⟨_ | ⟨gs, s₃⟩, hwaits⟩ := hwait lexer parser s₂ hlaunched
  · exact ⟨_, .waiting hlaunched hwaits⟩
  · obtain ⟨sts, hlength, rfl⟩ := hwaits.exited_eq
    obtain ⟨st, st', rfl⟩ := List.length_eq_two.mp hlength
    rcases hstderr : collect h d ⟨lexer, .lexer, some st⟩ .stderr s₃ with ⟨bytes, s₄⟩
    have hfinish := finishPipeline_eq st ⟨parser, .parser, some st'⟩ (collect_iff.mp hstderr)
    exact ⟨_, .exited hlaunched hwaits (finishPipeline_iff.mp hfinish)⟩

/-- A pipeline that has a result has the same one if more rounds are allowed. -/
theorem runPipeline_mono {n m : Nat} (hsome : (runPipeline h n limit t source s).1 ≠ none)
    (hle : n ≤ m) : runPipeline h m limit t source s = runPipeline h n limit t source s := by
  rcases hnow : h.now s with ⟨start, s₀⟩
  rcases hlexer : h.spawn (lexerLaunch t source) s₀ with ⟨cause | lexer, s₁⟩
  · rw [runPipeline_lexerFault hnow hlexer, runPipeline_lexerFault hnow hlexer]
  rcases hparser : h.spawn (parserLaunch t lexer) s₁ with ⟨cause | parser, s₂⟩
  · rw [runPipeline_parserFault hnow hlexer hparser, runPipeline_parserFault hnow hlexer hparser]
  have hlaunched : Launched h t source s₀ lexer parser s₂ := ⟨hlexer, hparser⟩
  rw [runPipeline_launched hnow hlaunched] at hsome ⊢
  rw [runPipeline_launched hnow hlaunched, waitAll_mono (settled_of_conclude hsome) hle]

end Pipeline

/-! ## Errors -/

/-- The errors of a step that only asks the host: a fault of a stage, or the limit as it was set. -/
inductive Disturbed (d : Deadline) : PipelineError → Prop
  | fault {stage cause} : Disturbed d (.collect stage cause)
  | late {limit} : d.limit = some limit → Disturbed d (.timeout limit)

theorem Round.disturbed {gs : List Guard} {s s' : σ} {e : PipelineError}
    (hround : Round h gs s (.error e) s') : Disturbed d e := by
  generalize hr : Except.error e = r at hround
  induction hround with
  | nil => cases hr
  | cons => cases hr
  | fault hasked => cases hr; cases hasked; exact .fault
  | later _ _ ih => exact ih hr

theorem Waits.disturbed {gs : List Guard} {s : σ} {e : PipelineError}
    (hwaits : Waits h d gs s (.error e)) : Disturbed d e := by
  generalize hr : Except.error e = r at hwaits
  induction hwaits with
  | fault hround => cases hr; exact hround.disturbed
  | exited => cases hr
  | late _ _ hexpired => cases hr; cases hexpired; exact .late ‹_›
  | again _ _ _ _ ih => exact ih hr

theorem Drains.disturbed {stage : Stage} {child : Child} {channel : Channel} {s s' : σ}
    {e : PipelineError} (hdrains : Drains h d stage child channel s (.error e) s') :
    Disturbed d e := by
  cases hdrains with
  | fault => exact .fault
  | faultWithin => exact .fault
  | late hlimit => exact .late hlimit

theorem Reads.error_cases {stage : Stage} {child : Child} {channel : Channel} {s s' : σ}
    {e : PipelineError} (hreads : Reads h d stage child channel s (.error e) s') :
    Disturbed d e ∨ ∃ channel fault, e = .decode stage channel fault := by
  cases hreads with
  | drain hdrains => exact .inl hdrains.disturbed
  | decoding => exact .inr ⟨_, _, rfl⟩

theorem Captures.error_cases {stage : Stage} {child : Child} {s : σ} {e : PipelineError}
    (hcaptures : Captures h d stage child s (.error e)) :
    Disturbed d e ∨ ∃ channel fault, e = .decode stage channel fault := by
  cases hcaptures with
  | stdout hreads => exact hreads.error_cases
  | stderr _ hreads => exact hreads.error_cases

theorem Runs.error_cases {t : Toolchain} {source : Path} {s : σ} {e : PipelineError}
    (hruns : Runs h d t source s (.error e)) :
    (∃ stage cause, e = .launch stage cause) ∨ Disturbed d e ∨
      ∃ channel fault, e = .decode .parser channel fault := by
  cases hruns with
  | lexerLaunch => exact .inl ⟨_, _, rfl⟩
  | parserLaunch => exact .inl ⟨_, _, rfl⟩
  | waiting _ hwaits => exact .inr (.inl hwaits.disturbed)
  | exited _ _ hfinishes =>
    cases hfinishes with
    | lexerStderr hdrains => exact .inr (.inl hdrains.disturbed)
    | output _ hcaptures => exact .inr hcaptures.error_cases

end Executor

/-! ## The course of a pipeline -/

/-- The host on which children exit with other statuses. -/
def Host.relabeled (f : ExitStatus → ExitStatus) (h : Host σ) : Host σ :=
  { h with
    poll := fun c s => ((h.poll c s).1.map (·.map f), (h.poll c s).2)
    reap := fun c s => ((h.reap c s).1.map f, (h.reap c s).2) }

theorem Host.relabeled_follows (f : ExitStatus → ExitStatus) (h : Host σ) :
    (h.relabeled f).Follows h id f where
  now heq := ⟨_, heq, rfl⟩
  spawn heq := ⟨_, heq, rfl⟩
  poll heq := ⟨_, by simp only [relabeled]; rw [id_eq] at heq; rw [heq], rfl⟩
  kill := rfl
  reap heq := ⟨_, by simp only [relabeled]; rw [id_eq] at heq; rw [heq], rfl⟩
  drain heq := ⟨_, heq, rfl⟩
  drainWithin heq := ⟨_, heq, rfl⟩
  sleep := rfl

namespace Executor

/-- **The first step that fails decides a pipeline.** Whatever the host answers, the results of a
pipeline, with any number of rounds, are those of `Runs`: there is one at most, and there is one
unless waiting goes on for ever.  A timeout states the limit as it was set, only the outputs of the
parser are ever found to be no text, and other exit statuses change nothing but the statuses of a
captured run. -/
theorem runPipeline_exact (h : Host σ) (limit : Option Duration) (t : Toolchain) (source : Path)
    (s : σ) :
    let Result := Runs h ⟨(h.now s).1, limit⟩ t source (h.now s).2
    (∀ r, (∃ rounds, (runPipeline h rounds limit t source s).1 = some r) ↔ Result r) ∧
    (∀ n m, (runPipeline h n limit t source s).1 ≠ none → n ≤ m →
      runPipeline h m limit t source s = runPipeline h n limit t source s) ∧
    (∀ r r', Result r → Result r' → r = r') ∧
    ((∀ lexer parser s₁, Launched h t source (h.now s).2 lexer parser s₁ →
      ∃ w, Waits h ⟨(h.now s).1, limit⟩ [⟨lexer, .lexer, none⟩, ⟨parser, .parser, none⟩] s₁ w) →
      ∃ r, Result r) ∧
    (∀ l, Result (.error (.timeout l)) → limit = some l) ∧
    (∀ stage channel fault, Result (.error (.decode stage channel fault)) → stage = .parser) ∧
    ∀ f rounds, (runPipeline (h.relabeled f) rounds limit t source s).1 =
      (runPipeline h rounds limit t source s).1.map (·.map (·.relabeled f)) := by
  intro Result
  refine ⟨fun r => ⟨fun ⟨n, hn⟩ => runs_of_runPipeline hn, runPipeline_of_runs⟩,
    fun n m => runPipeline_mono, fun r r' hr hr' => ?_, exists_runs, fun l hl => ?_,
    fun stage channel fault hdecode => ?_,
    fun f rounds => (follows_runPipeline (h.relabeled_follows f) rounds limit t source s).result⟩
  · obtain ⟨n, hn⟩ := runPipeline_of_runs hr
    obtain ⟨m, hm⟩ := runPipeline_of_runs hr'
    have hn' := runPipeline_mono (by rw [hn]; exact Option.some_ne_none r) (Nat.le_max_left n m)
    have hm' := runPipeline_mono (by rw [hm]; exact Option.some_ne_none r') (Nat.le_max_right n m)
    rw [← hn', hm', hm] at hn
    exact (Option.some.inj hn).symm
  · obtain ⟨_, _, hlaunch⟩ | hdisturbed | ⟨_, _, hdecode⟩ := hl.error_cases
    · cases hlaunch
    · cases hdisturbed
      assumption
    · cases hdecode
  · obtain ⟨_, _, hlaunch⟩ | hdisturbed | ⟨_, _, hparser⟩ := hdecode.error_cases
    · cases hlaunch
    · cases hdisturbed
    · cases hparser
      rfl

end Executor

end Conformance
