import Mathlib.Data.List.Basic
import Conformance.Proofs.Pipeline.Waiting

/-!
# Hosts that follow one another

A host follows another if it answers as that one does, up to a change of the exit statuses, while
its state shows the state of that one.  A run on it is then the run on the other, up to the same
change (`follows_runPipeline`, `follows_runCompiler`): nothing depends on how a child has exited.
-/

namespace Conformance

/-- The run with other exit statuses. -/
def CapturedRun.relabeled (f : ExitStatus → ExitStatus) (r : CapturedRun) : CapturedRun :=
  { r with status := f r.status, lexerStatus := r.lexerStatus.map f }

@[simp] theorem CapturedRun.relabeled_id : CapturedRun.relabeled id = id := by
  funext r
  simp [relabeled]

/-- Each request to `k` is answered as the request to `h` is. -/
structure Host.Follows {σ τ : Type} (k : Host τ) (h : Host σ) (view : τ → σ)
    (f : ExitStatus → ExitStatus) : Prop where
  now {s now t} : h.now (view s) = (now, t) → ∃ s', k.now s = (now, s') ∧ view s' = t
  spawn {launch s answer t} : h.spawn launch (view s) = (answer, t) →
    ∃ s', k.spawn launch s = (answer, s') ∧ view s' = t
  poll {c s answer t} : h.poll c (view s) = (answer, t) →
    ∃ s', k.poll c s = (answer.map (·.map f), s') ∧ view s' = t
  kill {c s} : view (k.kill c s) = h.kill c (view s)
  reap {c s status t} : h.reap c (view s) = (status, t) →
    ∃ s', k.reap c s = (status.map f, s') ∧ view s' = t
  drain {c channel s answer t} : h.drain c channel (view s) = (answer, t) →
    ∃ s', k.drain c channel s = (answer, s') ∧ view s' = t
  drainWithin {c channel left s answer t} : h.drainWithin c channel left (view s) = (answer, t) →
    ∃ s', k.drainWithin c channel left s = (answer, s') ∧ view s' = t
  sleep {time s} : view (k.sleep time s) = h.sleep time (view s)

namespace Executor

/-- The child with another exit status, if it has exited. -/
def Guard.relabeled (f : ExitStatus → ExitStatus) (g : Guard) : Guard :=
  { g with status := g.status.map f }

/-- Two runs on hosts of which one follows the other, as the first is seen from the other. -/
structure SameRun {σ τ : Type} (view : τ → σ) (f : ExitStatus → ExitStatus)
    (p : Option (Except PipelineError CapturedRun) × τ)
    (q : Option (Except PipelineError CapturedRun) × σ) : Prop where
  result : p.1 = q.1.map (·.map (·.relabeled f))
  state : view p.2 = q.2

variable {σ τ : Type} {k : Host τ} {h : Host σ} {view : τ → σ} {f : ExitStatus → ExitStatus}
  (hk : k.Follows h view f) {d : Deadline} {s : τ} {t : σ}

include hk

theorem follows_remaining {left : Option Duration} (heq : d.remaining h (view s) = (left, t)) :
    ∃ s', d.remaining k s = (left, s') ∧ view s' = t := by
  unfold Deadline.remaining at heq ⊢
  rcases hlimit : d.limit with _ | limit <;> rw [hlimit] at heq
  · cases heq
    exact ⟨s, rfl, rfl⟩
  · rcases hnow : h.now (view s) with ⟨now, t'⟩
    obtain ⟨s', hnow', rfl⟩ := hk.now hnow
    rw [hnow] at heq
    cases heq
    exact ⟨s', by rw [hnow'], rfl⟩

theorem follows_expired {b : Bool} (heq : d.expired h (view s) = (b, t)) :
    ∃ s', d.expired k s = (b, s') ∧ view s' = t := by
  unfold Deadline.expired at heq ⊢
  rcases hleft : d.remaining h (view s) with ⟨left, t'⟩
  obtain ⟨s', hleft', rfl⟩ := follows_remaining hk hleft
  rw [hleft] at heq
  cases heq
  exact ⟨s', by rw [hleft'], rfl⟩

theorem follows_poll {g : Guard} {r : Except PipelineError Guard}
    (heq : g.poll h (view s) = (r, t)) :
    ∃ s', (g.relabeled f).poll k s = (r.map (·.relabeled f), s') ∧ view s' = t := by
  obtain ⟨c, stage, _ | st⟩ := g
  · rcases hpoll : h.poll c (view s) with ⟨answer, t'⟩
    obtain ⟨s', hpoll', rfl⟩ := hk.poll hpoll
    simp only [Guard.poll, hpoll] at heq
    simp only [Guard.poll, Guard.relabeled, Option.map_none, hpoll']
    cases answer <;> cases heq <;> exact ⟨s', rfl, rfl⟩
  · cases heq
    exact ⟨s, rfl, rfl⟩

theorem follows_kill {g g' : Guard} (heq : g.kill h (view s) = (g', t)) :
    ∃ s', (g.relabeled f).kill k s = (g'.relabeled f, s') ∧ view s' = t := by
  obtain ⟨c, stage, _ | st⟩ := g
  · rcases hreap : h.reap c (h.kill c (view s)) with ⟨status, t'⟩
    rw [← hk.kill] at hreap
    obtain ⟨s', hreap', rfl⟩ := hk.reap hreap
    rw [hk.kill] at hreap
    simp only [Guard.kill, hreap] at heq
    simp only [Guard.kill, Guard.relabeled, Option.map_none, hreap']
    cases heq
    exact ⟨s', rfl, rfl⟩
  · cases heq
    exact ⟨s, rfl, rfl⟩

theorem follows_pollAll {gs gs' : List Guard} {e : Option PipelineError}
    (heq : pollAll h gs (view s) = (e, gs', t)) :
    ∃ s', pollAll k (gs.map (·.relabeled f)) s = (e, gs'.map (·.relabeled f), s') ∧
      view s' = t := by
  induction gs generalizing s e gs' t with
  | nil =>
    cases heq
    exact ⟨s, rfl, rfl⟩
  | cons g gs ih =>
    rcases hpoll : g.poll h (view s) with ⟨e' | g', t'⟩ <;>
      obtain ⟨s', hpoll', rfl⟩ := follows_poll hk hpoll
    · rw [pollAll_cons_error hpoll] at heq
      cases heq
      exact ⟨s', pollAll_cons_error hpoll', rfl⟩
    · rw [pollAll_cons_ok hpoll] at heq
      obtain ⟨s'', hrest, hview⟩ := ih rfl
      cases heq
      refine ⟨s'', ?_, hview⟩
      rw [List.map_cons, pollAll_cons_ok hpoll', hrest]
      rfl

theorem follows_killAll {gs gs' : List Guard} (heq : killAll h gs (view s) = (gs', t)) :
    ∃ s', killAll k (gs.map (·.relabeled f)) s = (gs'.map (·.relabeled f), s') ∧ view s' = t := by
  induction gs generalizing s gs' t with
  | nil =>
    cases heq
    exact ⟨s, rfl, rfl⟩
  | cons g gs ih =>
    rcases hkill : g.kill h (view s) with ⟨g', t'⟩
    obtain ⟨s', hkill', rfl⟩ := follows_kill hk hkill
    rcases hrest : killAll h gs (view s') with ⟨gs'', t''⟩
    obtain ⟨s'', hrest', rfl⟩ := ih hrest
    simp only [killAll, hkill, hrest] at heq
    cases heq
    exact ⟨s'', by simp only [List.map_cons, killAll, hkill', hrest'], rfl⟩

theorem follows_release (gs : List Guard) :
    view (release k (gs.map (·.relabeled f)) s) = release h gs (view s) := by
  rcases hkill : killAll h gs (view s) with ⟨gs', t⟩
  obtain ⟨s', hkill', rfl⟩ := follows_killAll hk hkill
  rw [release, hkill', release, hkill]

omit hk in
theorem all_exited_relabeled (gs : List Guard) :
    (gs.map (·.relabeled f)).all (·.status.isSome) = gs.all (·.status.isSome) := by
  simp [Guard.relabeled, Function.comp_def]

theorem follows_waitAll {n : Nat} {gs gs' : List Guard} {w : Waited}
    (heq : waitAll h d n gs (view s) = (w, gs', t)) :
    ∃ s', waitAll k d n (gs.map (·.relabeled f)) s = (w, gs'.map (·.relabeled f), s') ∧
      view s' = t := by
  induction n generalizing gs s with
  | zero =>
    cases heq
    exact ⟨s, rfl, rfl⟩
  | succ n ih =>
    rcases hpoll : pollAll h gs (view s) with ⟨_ | e, gs₁, t₁⟩ <;>
      obtain ⟨s₁, hpoll', rfl⟩ := follows_pollAll hk hpoll <;>
      rw [waitAll, hpoll] at heq <;> rw [waitAll, hpoll']
    · simp only [all_exited_relabeled]
      cases hall : gs₁.all (·.status.isSome) with
      | true =>
        simp only [hall, if_true] at heq ⊢
        cases heq
        exact ⟨s₁, rfl, rfl⟩
      | false =>
        rcases hexpired : d.expired h (view s₁) with ⟨_ | _, t₂⟩ <;>
          obtain ⟨s₂, hexpired', rfl⟩ := follows_expired hk hexpired <;>
          simp only [hall, hexpired, hexpired', if_true, if_false, Bool.false_eq_true] at heq ⊢
        · rw [← hk.sleep] at heq
          exact ih heq
        · rcases hkill : killAll h gs₁ (view s₂) with ⟨gs₂, t₃⟩
          obtain ⟨s₃, hkill', rfl⟩ := follows_killAll hk hkill
          rw [hkill] at heq
          cases heq
          exact ⟨s₃, by rw [hkill'], rfl⟩
    · cases heq
      exact ⟨s₁, rfl, rfl⟩

theorem follows_collect {g : Guard} {channel : Channel} {r : Except PipelineError (List UInt8)}
    (heq : collect h d g channel (view s) = (r, t)) :
    ∃ s', collect k d (g.relabeled f) channel s = (r, s') ∧ view s' = t := by
  unfold collect at heq ⊢
  rcases hleft : d.remaining h (view s) with ⟨_ | left, t₁⟩ <;>
    obtain ⟨s₁, hleft', rfl⟩ := follows_remaining hk hleft <;> simp only [hleft] at heq <;>
    simp only [hleft']
  · rcases hdrain : h.drain g.child channel (view s₁) with ⟨answer, t₂⟩
    obtain ⟨s₂, hdrain', rfl⟩ := hk.drain hdrain
    simp only [hdrain] at heq
    simp only [Guard.relabeled, hdrain']
    cases answer <;> cases heq <;> exact ⟨s₂, rfl, rfl⟩
  · rcases hdrain : h.drainWithin g.child channel left (view s₁) with ⟨answer, t₂⟩
    obtain ⟨s₂, hdrain', rfl⟩ := hk.drainWithin hdrain
    simp only [hdrain] at heq
    simp only [Guard.relabeled, hdrain']
    cases answer <;> cases heq <;> exact ⟨s₂, rfl, rfl⟩

theorem follows_collectLines {g : Guard} {channel : Channel}
    {r : Except PipelineError (List Text)} (heq : collectLines h d g channel (view s) = (r, t)) :
    ∃ s', collectLines k d (g.relabeled f) channel s = (r, s') ∧ view s' = t := by
  unfold collectLines at heq ⊢
  rcases hcollect : collect h d g channel (view s) with ⟨answer, t₁⟩
  obtain ⟨s₁, hcollect', rfl⟩ := follows_collect hk hcollect
  simp only [hcollect] at heq
  simp only [hcollect']
  cases answer <;> cases heq <;> exact ⟨s₁, rfl, rfl⟩

/-- The status that is captured is one that the child has exited with. -/
theorem follows_capture {g : Guard} {st : ExitStatus} {lexer : Option Guard}
    {r : Except PipelineError CapturedRun}
    (heq : capture h d (g.exited st) lexer (view s) = (r, t)) :
    ∃ s', capture k d ((g.exited st).relabeled f) (lexer.map (·.relabeled f)) s =
        (r.map (·.relabeled f), s') ∧ view s' = t := by
  unfold capture at heq ⊢
  rcases hout : collectLines h d (g.exited st) .stdout (view s) with ⟨e | out, t₁⟩ <;>
    obtain ⟨s₁, hout', rfl⟩ := follows_collectLines hk hout <;> simp only [hout] at heq <;>
    simp only [hout']
  · cases heq
    exact ⟨s₁, rfl, rfl⟩
  rcases herr : collectLines h d (g.exited st) .stderr (view s₁) with ⟨e | err, t₂⟩ <;>
    obtain ⟨s₂, herr', rfl⟩ := follows_collectLines hk herr <;> simp only [herr] at heq <;>
    simp only [herr']
  · cases heq
    exact ⟨s₂, rfl, rfl⟩
  rcases hnow : h.now (view s₂) with ⟨now, t₃⟩
  obtain ⟨s₃, hnow', rfl⟩ := hk.now hnow
  simp only [hnow] at heq
  simp only [hnow']
  cases heq
  refine ⟨s₃, ?_, rfl⟩
  cases lexer <;> rfl

theorem follows_finishPipeline {lexer parser : Guard} {st st' : ExitStatus} :
    SameRun view f
      (finishPipeline k d [(lexer.exited st).relabeled f, (parser.exited st').relabeled f] s)
      (finishPipeline h d [lexer.exited st, parser.exited st'] (view s)) := by
  unfold finishPipeline
  rcases hcollect : collect h d (lexer.exited st) .stderr (view s) with ⟨e | bytes, t₁⟩ <;>
    obtain ⟨s₁, hcollect', rfl⟩ := follows_collect hk hcollect <;>
    simp only [hcollect, hcollect']
  · exact ⟨rfl, rfl⟩
  · rcases hcapture : capture h d (parser.exited st') (some (lexer.exited st)) (view s₁)
      with ⟨r, t₂⟩
    obtain ⟨s₂, hcapture', rfl⟩ := follows_capture hk hcapture
    rw [← Option.map_some, hcapture']
    exact ⟨rfl, rfl⟩

theorem follows_finishCompiler {guard : Guard} {st : ExitStatus} :
    SameRun view f (finishCompiler k d [(guard.exited st).relabeled f] s)
      (finishCompiler h d [guard.exited st] (view s)) := by
  rcases hcapture : capture h d (guard.exited st) none (view s) with ⟨r, t⟩
  obtain ⟨s', hcapture', rfl⟩ := follows_capture hk hcapture
  rw [finishCompiler, finishCompiler, hcapture, ← Option.map_none, hcapture']
  exact ⟨rfl, rfl⟩

/-- A host that follows another does so to the end, if it does in collecting the outputs of
children that have exited. -/
theorem follows_conclude {n : Nat} (gs : List Guard)
    {finish : List Guard → σ → Option (Except PipelineError CapturedRun) × σ}
    {finish' : List Guard → τ → Option (Except PipelineError CapturedRun) × τ}
    (hfinish : ∀ sts s, sts.length = gs.length →
      SameRun view f (finish' ((List.zipWith Guard.exited gs sts).map (·.relabeled f)) s)
        (finish (List.zipWith Guard.exited gs sts) (view s))) :
    SameRun view f (conclude k finish' (waitAll k d n (gs.map (·.relabeled f)) s))
      (conclude h finish (waitAll h d n gs (view s))) := by
  rcases hwait : waitAll h d n gs (view s) with ⟨_ | e | _, gs', t₁⟩ <;>
    obtain ⟨s₁, hwait', rfl⟩ := follows_waitAll hk hwait <;> rw [hwait']
  · obtain ⟨sts, hlength, rfl⟩ := (waits_of_ended (ended_eq_ok.mpr hwait)).exited_eq
    obtain ⟨hresult, hview⟩ := hfinish sts s₁ hlength
    refine ⟨hresult, ?_⟩
    rw [conclude, conclude, follows_release hk, hview]
  · exact ⟨rfl, follows_release hk gs'⟩
  · exact ⟨rfl, follows_release hk gs'⟩

theorem follows_runPipeline (rounds : Nat) (limit : Option Duration) (tools : Toolchain)
    (source : Path) (s : τ) :
    SameRun view f (runPipeline k rounds limit tools source s)
      (runPipeline h rounds limit tools source (view s)) := by
  rcases hnow : h.now (view s) with ⟨start, t₀⟩
  obtain ⟨s₀, hnow', rfl⟩ := hk.now hnow
  rcases hlexer : h.spawn (lexerLaunch tools source) (view s₀) with ⟨cause | lexer, t₁⟩ <;>
    obtain ⟨s₁, hlexer', rfl⟩ := hk.spawn hlexer
  · rw [runPipeline_lexerFault hnow hlexer, runPipeline_lexerFault hnow' hlexer']
    exact ⟨rfl, rfl⟩
  rcases hparser : h.spawn (parserLaunch tools lexer) (view s₁) with ⟨cause | parser, t₂⟩ <;>
    obtain ⟨s₂, hparser', rfl⟩ := hk.spawn hparser
  · rw [runPipeline_parserFault hnow hlexer hparser, runPipeline_parserFault hnow' hlexer' hparser']
    exact ⟨rfl, follows_release hk [⟨lexer, .lexer, none⟩]⟩
  · rw [runPipeline_launched hnow ⟨hlexer, hparser⟩, runPipeline_launched hnow' ⟨hlexer', hparser'⟩]
    refine follows_conclude hk [⟨lexer, .lexer, none⟩, ⟨parser, .parser, none⟩]
      fun sts s hlength => ?_
    obtain ⟨st, st', rfl⟩ := List.length_eq_two.mp hlength
    exact follows_finishPipeline hk

theorem follows_runCompiler (rounds : Nat) (limit : Option Duration) (compiler : Invocation)
    (source : Path) (s : τ) :
    SameRun view f (runCompiler k rounds limit compiler source s)
      (runCompiler h rounds limit compiler source (view s)) := by
  rcases hnow : h.now (view s) with ⟨start, t₀⟩
  obtain ⟨s₀, hnow', rfl⟩ := hk.now hnow
  rcases hspawn : h.spawn (compilerLaunch compiler source) (view s₀) with ⟨cause | child, t₁⟩ <;>
    obtain ⟨s₁, hspawn', rfl⟩ := hk.spawn hspawn
  · rw [runCompiler_fault hnow hspawn, runCompiler_fault hnow' hspawn']
    exact ⟨rfl, rfl⟩
  · rw [runCompiler_launched hnow hspawn, runCompiler_launched hnow' hspawn']
    refine follows_conclude hk [⟨child, .compiler, none⟩] fun sts s hlength => ?_
    obtain ⟨st, rfl⟩ := List.length_eq_one_iff.mp hlength
    exact follows_finishCompiler hk

end Executor

end Conformance
