import Conformance.Proofs.Pipeline.Course

/-!
# Runs of a compiler

What a compiler did, as far as it can be seen from outside: it was started, a look at it found that
it had exited, and both outputs were read to their ends (`Compiles`).  A run is captured exactly if
all this happened and both outputs are texts (`captures_of_runCompiler`, `runCompiler_of_compiles`).

One child is looked at again and again, one poll interval apart; `Exits` is what `Waits` says of it.
-/

namespace Conformance.Executor

variable {σ : Type} {h : Host σ} {d : Deadline} {child : Child} {stage : Stage}

/-! ## Waiting for one child -/

/-- A look at a child finds that it has exited.  Every look before finds it running while some of
the time is left, and then the next look is one interval away. -/
inductive Exits (h : Host σ) (d : Deadline) (child : Child) : σ → ExitStatus → σ → Prop
  | seen {s st s'} : h.poll child s = (.ok (some st), s') → Exits h d child s st s'
  | running {s s₁ s₂ st s'} : h.poll child s = (.ok none, s₁) → InTime h d s₁ s₂ →
      Exits h d child (h.sleep pollInterval s₂) st s' → Exits h d child s st s'

theorem round_single_iff {s s' : σ} {gs : List Guard} :
    Round h [⟨child, stage, none⟩] s (.ok gs) s' ↔
      ∃ status, h.poll child s = (.ok status, s') ∧ gs = [⟨child, stage, status⟩] := by
  constructor
  · intro hround
    cases hround with
    | cons hasked hrest =>
      cases hrest
      cases hasked with
      | known hst => exact absurd rfl hst
      | answer _ hpoll => exact ⟨_, hpoll, rfl⟩
  · rintro ⟨status, hpoll, rfl⟩
    exact .cons (.answer rfl hpoll) .nil

theorem exits_of_waits {s s' : σ} {gs : List Guard}
    (hwaits : Waits h d [⟨child, stage, none⟩] s (.ok (gs, s'))) :
    ∃ st, gs = [⟨child, stage, some st⟩] ∧ Exits h d child s st s' := by
  generalize hgs : [(⟨child, stage, none⟩ : Guard)] = start at hwaits
  generalize hr : Except.ok (gs, s') = r at hwaits
  induction hwaits with
  | fault => cases hr
  | late => cases hr
  | exited hround hall =>
    subst hgs
    cases hr
    obtain ⟨status, hpoll, rfl⟩ := round_single_iff.mp hround
    obtain ⟨st, rfl⟩ := Option.ne_none_iff_exists'.mp (hall _ List.mem_cons_self)
    exact ⟨st, rfl, .seen hpoll⟩
  | again hround hrunning hin _ ih =>
    subst hgs
    obtain ⟨status, hpoll, rfl⟩ := round_single_iff.mp hround
    obtain ⟨g, hg, hstatus⟩ := hrunning
    obtain rfl := List.mem_singleton.mp hg
    obtain rfl : status = none := hstatus
    obtain ⟨st, hexited, hexits⟩ := ih rfl hr
    exact ⟨st, hexited, .running hpoll hin hexits⟩

theorem Exits.waits {s s' : σ} {st : ExitStatus} (hexits : Exits h d child s st s')
    (stage : Stage) :
    Waits h d [⟨child, stage, none⟩] s (.ok ([⟨child, stage, some st⟩], s')) := by
  induction hexits with
  | seen hpoll => exact .exited (round_single_iff.mpr ⟨_, hpoll, rfl⟩) (by simp)
  | running hpoll hin _ ih =>
    exact .again (round_single_iff.mpr ⟨_, hpoll, rfl⟩) ⟨_, List.mem_cons_self, rfl⟩ hin ih

/-- Time passes on a host only while it sleeps. -/
structure TimedBySleep (h : Host σ) (clock : σ → Nat) : Prop where
  shown : ∀ s, (h.now s).1 = ⟨clock s⟩
  now : ∀ s, clock (h.now s).2 = clock s
  poll : ∀ child s, clock (h.poll child s).2 = clock s
  sleep : ∀ interval s, clock (h.sleep interval s) = clock s + interval.nanos

/-- **How late an exit may be seen.** Where only sleeping takes time, a child that is not found to
have exited at the first look is found so before one interval more than the limit has passed. -/
theorem Exits.within_interval {clock : σ → Nat} (htimed : TimedBySleep h clock) {limit : Duration}
    (hlimit : d.limit = some limit) {s s' : σ} {st : ExitStatus}
    (hexits : Exits h d child s st s') :
    clock s' = clock s ∨ clock s' < d.start.nanos + limit.nanos + pollInterval.nanos := by
  induction hexits with
  | @seen s st s' hpoll =>
    left
    rw [← htimed.poll child s, hpoll]
  | @running s s₁ s₂ st s' hpoll hin _ ih =>
    right
    cases hin with
    | unlimited hnone =>
      rw [hnone] at hlimit
      exact nomatch hlimit
    | @within limit' now _ hlimit' hnow hlt =>
      obtain rfl := Option.some.inj (hlimit'.symm.trans hlimit)
      have hclock : now = ⟨clock s₁⟩ := by rw [← htimed.shown s₁, hnow]
      have hstill : clock s₂ = clock s₁ := by rw [← htimed.now s₁, hnow]
      subst hclock
      dsimp only at hlt
      have hslept := htimed.sleep pollInterval s₂
      obtain hfirst | hlater := ih
      · omega
      · exact hlater

/-! ## What a compiler did -/

/-- A compiler was started, was seen to have exited with a status, and wrote some bytes to each of
its outputs, which were read to their ends. -/
inductive Compiles (h : Host σ) (d : Deadline) (compiler : Invocation) (source : Path) (s : σ)
    (st : ExitStatus) (out err : List UInt8) : Prop
  | intro {child s₁ s₂ s₃ s₄} : h.spawn (compilerLaunch compiler source) s = (.ok child, s₁) →
      Exits h d child s₁ st s₂ →
      Drains h d .compiler child .stdout s₂ (.ok out) s₃ →
      Drains h d .compiler child .stderr s₃ (.ok err) s₄ →
      Compiles h d compiler source s st out err

/-- An exit that a run rests on was seen at the first look or before one interval more than the
limit had passed, where only sleeping takes time. -/
theorem Compiles.seen_within {clock : σ → Nat} (htimed : TimedBySleep h clock) {limit : Duration}
    (hlimit : d.limit = some limit) {compiler : Invocation} {source : Path} {s : σ}
    {st : ExitStatus} {out err : List UInt8}
    (hcompiles : Compiles h d compiler source s st out err) :
    ∃ child s₁ s₂, h.spawn (compilerLaunch compiler source) s = (.ok child, s₁) ∧
      Exits h d child s₁ st s₂ ∧
      (clock s₂ = clock s₁ ∨
        clock s₂ < d.start.nanos + limit.nanos + pollInterval.nanos) := by
  obtain ⟨hspawn, hexits, -, -⟩ := hcompiles
  exact ⟨_, _, _, hspawn, hexits, hexits.within_interval htimed hlimit⟩

/-- The outputs of a child are captured if they are texts, and then as the lines of these. -/
theorem captures_eq_ok_iff {s : σ} {out err : List Text} {elapsed : Duration} :
    Captures h d stage child s (.ok (out, err, elapsed)) ↔
      ∃ t u s₁ s₂, Drains h d stage child .stdout s (.ok (Utf8.encode t)) s₁ ∧
        Drains h d stage child .stderr s₁ (.ok (Utf8.encode u)) s₂ ∧
        out = t.lines ∧ err = u.lines ∧ elapsed = ⟨(h.now s₂).1.nanos - d.start.nanos⟩ := by
  constructor
  · intro hcaptures
    cases hcaptures with
    | captured hout herr hnow =>
      cases hout with
      | lines hout =>
        cases herr with
        | lines herr => exact ⟨_, _, _, _, hout, herr, rfl, rfl, by rw [hnow]⟩
  · rintro ⟨t, u, s₁, s₂, hout, herr, rfl, rfl, rfl⟩
    exact .captured (.lines hout) (.lines herr) rfl

theorem finishCompiler_eq_ok_iff {s : σ} {st : ExitStatus} {run : CapturedRun} :
    (finishCompiler h d [⟨child, stage, some st⟩] s).1 = some (.ok run) ↔
      ∃ out err elapsed, Captures h d stage child s (.ok (out, err, elapsed)) ∧
        run = ⟨out, err, st, none, elapsed⟩ := by
  show some (capture h d ⟨child, stage, some st⟩ none s).1 = some (.ok run) ↔ _
  rw [Option.some.injEq, capture_iff rfl]
  constructor
  · rintro ⟨_ | ⟨out, err, elapsed⟩, hcaptures, hrun⟩
    · exact nomatch hrun
    · exact ⟨out, err, elapsed, hcaptures, Except.ok.inj hrun⟩
  · rintro ⟨out, err, elapsed, hcaptures, rfl⟩
    exact ⟨_, hcaptures, rfl⟩

section Run

variable {limit : Option Duration} {compiler : Invocation} {source : Path} {s : σ}

/-- **Results.** A run has a result exactly if the compiler cannot be started or waiting for it
ends, and it keeps it if more rounds are allowed. -/
theorem exists_runCompiler_iff :
    (∃ n, (runCompiler h n limit compiler source s).1 ≠ none) ↔
      ∀ child s₁, h.spawn (compilerLaunch compiler source) (h.now s).2 = (.ok child, s₁) →
        ∃ r, Waits h ⟨(h.now s).1, limit⟩ [⟨child, .compiler, none⟩] s₁ r := by
  constructor
  · rintro ⟨n, hsome⟩ child s₁ hspawn
    rw [runCompiler_launched rfl hspawn] at hsome
    have hsettled := settled_of_conclude hsome
    rcases hwait : waitAll h ⟨(h.now s).1, limit⟩ n [⟨child, .compiler, none⟩] s₁ with
      ⟨_ | e | _, gs, s₂⟩
    · exact ⟨_, waitAll_iff.mp ⟨n, ended_eq_ok.mpr hwait⟩⟩
    · exact ⟨_, waitAll_iff.mp ⟨n, ended_eq_error.mpr ⟨gs, s₂, hwait⟩⟩⟩
    · rw [hwait] at hsettled
      exact absurd rfl hsettled
  · intro hwaits
    rcases hspawn : h.spawn (compilerLaunch compiler source) (h.now s).2 with ⟨cause | child, s₁⟩
    · exact ⟨0, by rw [runCompiler_fault rfl hspawn]; exact Option.some_ne_none _⟩
    obtain ⟨r, hr⟩ := hwaits child s₁ hspawn
    obtain ⟨n, hn⟩ := waitAll_iff.mpr hr
    refine ⟨n, ?_⟩
    rw [runCompiler_launched rfl hspawn]
    cases r with
    | error e =>
      obtain ⟨gs, s₂, hwait⟩ := ended_eq_error.mp hn
      rw [hwait]
      exact Option.some_ne_none _
    | ok reached =>
      obtain ⟨gs, s₂⟩ := reached
      obtain ⟨st, rfl, -⟩ := exits_of_waits hr
      rw [ended_eq_ok.mp hn]
      exact Option.some_ne_none _

/-- A compiler's run that has a result has the same one if more rounds are allowed. -/
theorem runCompiler_mono {n m : Nat} (hsome : (runCompiler h n limit compiler source s).1 ≠ none)
    (hle : n ≤ m) :
    runCompiler h m limit compiler source s = runCompiler h n limit compiler source s := by
  rcases hspawn : h.spawn (compilerLaunch compiler source) (h.now s).2 with ⟨cause | child, s₁⟩
  · rw [runCompiler_fault rfl hspawn, runCompiler_fault rfl hspawn]
  rw [runCompiler_launched rfl hspawn] at hsome ⊢
  rw [runCompiler_launched rfl hspawn, waitAll_mono (settled_of_conclude hsome) hle]

/-- A run that is captured is what the compiler did. -/
theorem compiles_of_runCompiler {n : Nat} {run : CapturedRun}
    (heq : (runCompiler h n limit compiler source s).1 = some (.ok run)) :
    ∃ st t u elapsed, Compiles h ⟨(h.now s).1, limit⟩ compiler source (h.now s).2 st
        (Utf8.encode t) (Utf8.encode u) ∧
      run = ⟨t.lines, u.lines, st, none, elapsed⟩ := by
  rcases hnow : h.now s with ⟨start, s₀⟩
  rcases hspawn : h.spawn (compilerLaunch compiler source) s₀ with ⟨cause | child, s₁⟩
  · rw [runCompiler_fault hnow hspawn] at heq
    cases heq
  rw [runCompiler_launched hnow hspawn] at heq
  rcases hwait : waitAll h ⟨start, limit⟩ n [⟨child, .compiler, none⟩] s₁ with ⟨_ | e | _, gs, s₂⟩ <;>
    rw [hwait] at heq
  · obtain ⟨st, rfl, hexits⟩ := exits_of_waits (waits_of_ended (ended_eq_ok.mpr hwait))
    obtain ⟨out, err, elapsed, hcaptures, rfl⟩ := finishCompiler_eq_ok_iff.mp heq
    obtain ⟨t, u, s₃, s₄, hout, herr, rfl, rfl, -⟩ := captures_eq_ok_iff.mp hcaptures
    exact ⟨st, t, u, elapsed, ⟨hspawn, hexits, hout, herr⟩, rfl⟩
  · cases heq
  · cases heq

/-- What a compiler did is captured if it wrote texts, as long as enough looks are allowed. -/
theorem runCompiler_of_compiles {st : ExitStatus} {t u : Text}
    (hcompiles : Compiles h ⟨(h.now s).1, limit⟩ compiler source (h.now s).2 st
      (Utf8.encode t) (Utf8.encode u)) :
    ∃ n elapsed, ∀ m, n ≤ m →
      (runCompiler h m limit compiler source s).1 =
        some (.ok ⟨t.lines, u.lines, st, none, elapsed⟩) := by
  obtain @⟨child, s₁, s₂, s₃, s₄, hspawn, hexits, hout, herr⟩ := hcompiles
  obtain ⟨n, hn⟩ := ended_of_waits (hexits.waits .compiler)
  have hwait := ended_eq_ok.mp hn
  have hfinished :
      (waitAll h ⟨(h.now s).1, limit⟩ n [⟨child, .compiler, none⟩] s₁).1 ≠ .unsettled := by
    rw [hwait]
    exact nofun
  refine ⟨n, ⟨(h.now s₄).1.nanos - (h.now s).1.nanos⟩, fun m hle => ?_⟩
  rw [runCompiler_launched rfl hspawn, waitAll_mono hfinished hle, hwait]
  exact finishCompiler_eq_ok_iff.mpr
    ⟨_, _, _, captures_eq_ok_iff.mpr ⟨t, u, _, _, hout, herr, rfl, rfl, rfl⟩, rfl⟩

end Run

end Conformance.Executor
