import Mathlib.Algebra.Order.Floor.Div
import Mathlib.Data.List.Forall2
import Conformance.Proofs.Pipeline.Waiting

/-!
# The rounds of waiting

Waiting goes on for a number of rounds (`Reaches`), each of which finds a child running while there
is time left, and one more round settles it (`Settles`).  With `n` rounds allowed it is settled by
one of these, or all of them go on (`waitAll_eq_iff`).

The measure of the loop is the time that is left.  Where a sleep takes at least one poll interval, a
round that goes on is one interval later than the one before and still within the limit
(`Reaches.within_limit`), so that there are no more of them than intervals begin in the limit.
-/

namespace Conformance

variable {σ : Type} {h : Host σ} {d : Executor.Deadline}

/-- The time that a host shows. -/
def Host.time (h : Host σ) (s : σ) : Nat := (h.now s).1.nanos

/-- The clock of a host never goes back, and sleeping for a poll interval takes at least as long. -/
structure Host.Steady (h : Host σ) : Prop where
  now : ∀ s, h.time s ≤ h.time (h.now s).2
  poll : ∀ child s, h.time s ≤ h.time (h.poll child s).2
  sleep : ∀ s, h.time s + Executor.pollInterval.nanos ≤ h.time (h.sleep Executor.pollInterval s)

namespace Executor

/-! ## What a round keeps -/

/-- The same child, with a status that is not changed once it is known. -/
structure Guard.Keeps (g g' : Guard) : Prop where
  child : g'.child = g.child
  stage : g'.stage = g.stage
  known : g.status ≠ none → g' = g

theorem Guard.Keeps.refl (g : Guard) : g.Keeps g := ⟨rfl, rfl, fun _ => rfl⟩

theorem Guard.Keeps.trans {g g' g'' : Guard} (hfirst : g.Keeps g') (hnext : g'.Keeps g'') :
    g.Keeps g'' where
  child := hnext.child.trans hfirst.child
  stage := hnext.stage.trans hfirst.stage
  known hknown := by
    obtain rfl := hfirst.known hknown
    exact hnext.known hknown

theorem keeps_refl (gs : List Guard) : List.Forall₂ Guard.Keeps gs gs :=
  List.forall₂_same.mpr fun g _ => .refl g

theorem keeps_trans {gs gs' gs'' : List Guard} (hfirst : List.Forall₂ Guard.Keeps gs gs')
    (hnext : List.Forall₂ Guard.Keeps gs' gs'') : List.Forall₂ Guard.Keeps gs gs'' := by
  induction hfirst generalizing gs'' with
  | nil => exact hnext
  | cons hg _ ih =>
    cases hnext with
    | cons hg' hgs => exact .cons (hg.trans hg') (ih hgs)

theorem keeps_exists {gs gs' : List Guard} (hkeeps : List.Forall₂ Guard.Keeps gs gs')
    {g' : Guard} (hg' : g' ∈ gs') : ∃ g ∈ gs, g.Keeps g' := by
  induction hkeeps with
  | nil => cases hg'
  | cons hg _ ih =>
    cases hg' with
    | head => exact ⟨_, .head _, hg⟩
    | tail _ hmem =>
      obtain ⟨g, hmem, hkept⟩ := ih hmem
      exact ⟨g, .tail _ hmem, hkept⟩

theorem Asked.keeps {g g' : Guard} {s s' : σ} (hasked : Asked h g s (.ok g') s') : g.Keeps g' := by
  cases hasked with
  | known => exact .refl g
  | answer hst => exact ⟨rfl, rfl, fun hknown => absurd hst hknown⟩

theorem pollAll_keeps (gs : List Guard) (s : σ) :
    List.Forall₂ Guard.Keeps gs (pollAll h gs s).2.1 := by
  induction gs generalizing s with
  | nil => exact .nil
  | cons g gs ih =>
    rcases hpoll : g.poll h s with ⟨e | g', s'⟩
    · rw [pollAll_cons_error hpoll]
      exact keeps_refl _
    · rw [pollAll_cons_ok hpoll]
      exact .cons (poll_iff.mp hpoll).keeps (ih s')

theorem killAll_keeps (gs : List Guard) (s : σ) :
    List.Forall₂ Guard.Keeps gs (killAll h gs s).1 := by
  induction gs generalizing s with
  | nil => exact .nil
  | cons g gs ih =>
    refine .cons ?_ (ih _)
    cases hst : g.status with
    | none => exact ⟨rfl, rfl, fun hknown => absurd hst hknown⟩
    | some st => exact .refl g

/-- Waiting keeps the children, and the status of each that is known to have exited. -/
theorem waitAll_keeps (n : Nat) (gs : List Guard) (s : σ) :
    List.Forall₂ Guard.Keeps gs (waitAll h d n gs s).2.1 := by
  induction n generalizing gs s with
  | zero => exact keeps_refl gs
  | succ n ih =>
    have hround := pollAll_keeps (h := h) gs s
    rw [waitAll]
    rcases hpoll : pollAll h gs s with ⟨_ | e, gs', s'⟩ <;> rw [hpoll] at hround
    · simp only
      split
      · exact hround
      · split
        · exact keeps_trans hround (killAll_keeps gs' _)
        · exact keeps_trans hround (ih gs' _)
    · exact hround

/-- A round has a fault if a child is not known to have exited and the host cannot tell, while those
before it were asked. -/
theorem round_error_iff {gs : List Guard} {s s' : σ} {e : PipelineError} :
    Round h gs s (.error e) s' ↔
      ∃ before g after before' s₁ cause, gs = before ++ g :: after ∧
        Round h before s (.ok before') s₁ ∧ g.status = none ∧
        h.poll g.child s₁ = (.error cause, s') ∧ e = .collect g.stage cause := by
  constructor
  · intro hround
    generalize hr : Except.error e = r at hround
    induction hround with
    | nil => cases hr
    | cons => cases hr
    | @fault g gs s e s' hasked =>
      cases hr
      cases hasked with
      | fault hst hpoll => exact ⟨[], g, gs, [], s, _, rfl, .nil, hst, hpoll, rfl⟩
    | @later g g' gs s s₁ e s' hasked _ ih =>
      obtain ⟨before, f, after, before', s₂, cause, rfl, hbefore, hst, hpoll, rfl⟩ := ih hr
      exact ⟨g :: before, f, after, g' :: before', s₂, cause, rfl, .cons hasked hbefore, hst, hpoll,
        rfl⟩
  · rintro ⟨before, g, after, before', s₁, cause, rfl, hbefore, hst, hpoll, rfl⟩
    generalize hr : Except.ok before' = r at hbefore
    induction hbefore generalizing before' with
    | nil => exact .fault (.fault hst hpoll)
    | cons hasked _ ih =>
      cases hr
      exact .later hasked (ih _ hpoll rfl)
    | fault => cases hr
    | later => cases hr

/-! ## Rounds that go on, and the last one -/

/-- Rounds that go on: in each, all children are asked without a fault, one is found running, and
the time is not up, so that the next round follows after a sleep. -/
inductive Reaches (h : Host σ) (d : Deadline) : Nat → List Guard → σ → List Guard → σ → Prop
  | start {gs s} : Reaches h d 0 gs s gs s
  | next {k gs s gs₁ s₁ s₂ gs' s'} : Round h gs s (.ok gs₁) s₁ → (∃ g ∈ gs₁, g.status = none) →
      InTime h d s₁ s₂ → Reaches h d k gs₁ (h.sleep pollInterval s₂) gs' s' →
      Reaches h d (k + 1) gs s gs' s'

/-- All children that are not known to have exited are killed and reaped, in order. -/
inductive Killed (h : Host σ) : List Guard → σ → List Guard → σ → Prop
  | nil {s} : Killed h [] s [] s
  | known {g gs s gs' s'} : g.status ≠ none → Killed h gs s gs' s' →
      Killed h (g :: gs) s (g :: gs') s'
  | running {g gs s status s₁ gs' s'} : g.status = none →
      h.reap g.child (h.kill g.child s) = (status, s₁) → Killed h gs s₁ gs' s' →
      Killed h (g :: gs) s ({ g with status } :: gs') s'

theorem killAll_iff {gs gs' : List Guard} {s s' : σ} :
    killAll h gs s = (gs', s') ↔ Killed h gs s gs' s' := by
  constructor
  · intro heq
    induction gs generalizing s gs' with
    | nil =>
      cases heq
      exact .nil
    | cons g gs ih =>
      cases hst : g.status with
      | none =>
        simp only [killAll, Guard.kill, hst] at heq
        cases heq
        exact .running hst rfl (ih rfl)
      | some st =>
        simp only [killAll, Guard.kill, hst] at heq
        cases heq
        exact .known (by simp [hst]) (ih rfl)
  · intro hkilled
    induction hkilled with
    | nil => rfl
    | known hknown _ ih =>
      obtain ⟨st, hst⟩ := Option.ne_none_iff_exists'.mp hknown
      simp only [killAll, Guard.kill, hst, ih]
    | running hst hreap _ ih => simp only [killAll, Guard.kill, hst, hreap, ih]

/-- The round that settles waiting, with the children and the host as they are then: one of the
children cannot be asked, or all have exited, or one is running when the time is up. -/
inductive Settles (h : Host σ) (d : Deadline) (gs : List Guard) (s : σ) :
    Waited → List Guard → σ → Prop
  | fault {e gs' s'} : pollAll h gs s = (some e, gs', s') → Settles h d gs s (.failed e) gs' s'
  | exited {gs' s'} : Round h gs s (.ok gs') s' → (∀ g ∈ gs', g.status ≠ none) →
      Settles h d gs s .finished gs' s'
  | late {gs₁ s₁ limit s₂ gs' s'} : Round h gs s (.ok gs₁) s₁ → (∃ g ∈ gs₁, g.status = none) →
      Expired h d s₁ limit s₂ → Killed h gs₁ s₂ gs' s' →
      Settles h d gs s (.failed (.timeout limit)) gs' s'

variable {n k : Nat} {gs gs' gs₁ : List Guard} {s s' s₁ : σ} {w : Waited}

theorem Settles.waitAll_eq (hsettles : Settles h d gs s w gs' s') (n : Nat) :
    waitAll h d (n + 1) gs s = (w, gs', s') := by
  cases hsettles with
  | fault hpoll => rw [waitAll, hpoll]
  | exited hround hall => exact waitAll_exited hround hall
  | late hround hrunning hexpired hkilled =>
    rw [waitAll_late hround hrunning hexpired, killAll_iff.mpr hkilled]

theorem Reaches.waitAll_eq (hreaches : Reaches h d k gs s gs₁ s₁) (n : Nat) :
    waitAll h d (k + n) gs s = waitAll h d n gs₁ s₁ := by
  induction hreaches with
  | start => rw [Nat.zero_add]
  | @next k _ _ _ _ _ _ _ hround hrunning hin _ ih =>
    rw [show k + 1 + n = k + n + 1 by omega, waitAll_again hround hrunning hin, ih]

/-- **Round after round.** Waiting is settled by a round that is reached, or all rounds that are
allowed go on. -/
theorem waitAll_eq_iff :
    waitAll h d n gs s = (w, gs', s') ↔
      (∃ k < n, ∃ gs₁ s₁, Reaches h d k gs s gs₁ s₁ ∧ Settles h d gs₁ s₁ w gs' s') ∨
        w = .unsettled ∧ Reaches h d n gs s gs' s' := by
  constructor
  · intro heq
    induction n generalizing gs s with
    | zero =>
      cases heq
      exact .inr ⟨rfl, .start⟩
    | succ n ih =>
      -- a first round that settles waiting is the round in question
      have hfirst : ∀ {w₁ gs₁ s₁}, Settles h d gs s w₁ gs₁ s₁ →
          ∃ k < n + 1, ∃ gs₁ s₁, Reaches h d k gs s gs₁ s₁ ∧ Settles h d gs₁ s₁ w gs' s' := by
        intro w₁ gs₁ s₁ hsettles
        obtain ⟨rfl, rfl, rfl⟩ : w₁ = w ∧ gs₁ = gs' ∧ s₁ = s' := by
          simpa using (hsettles.waitAll_eq n).symm.trans heq
        exact ⟨0, Nat.succ_pos n, gs, s, .start, hsettles⟩
      cases turn h d gs s with
      | fault hround =>
        obtain ⟨gs₁, hpoll⟩ := found_eq_error.mp (found_pollAll.mpr hround)
        exact .inl (hfirst (.fault hpoll))
      | exited hround hall => exact .inl (hfirst (.exited hround hall))
      | late hround hrunning hexpired =>
        exact .inl (hfirst (.late hround hrunning hexpired (killAll_iff.mp rfl)))
      | again hround hrunning hin =>
        rw [waitAll_again hround hrunning hin] at heq
        obtain ⟨k, hk, gs₁, s₁, hreaches, hsettles⟩ | ⟨rfl, hreaches⟩ := ih heq
        · exact .inl ⟨k + 1, Nat.succ_lt_succ hk, gs₁, s₁, .next hround hrunning hin hreaches,
            hsettles⟩
        · exact .inr ⟨rfl, .next hround hrunning hin hreaches⟩
  · rintro (⟨k, hk, gs₁, s₁, hreaches, hsettles⟩ | ⟨rfl, hreaches⟩)
    · obtain ⟨m, rfl⟩ : ∃ m, n = k + (m + 1) := ⟨n - k - 1, by omega⟩
      rw [hreaches.waitAll_eq, hsettles.waitAll_eq]
    · rw [← Nat.add_zero n, hreaches.waitAll_eq]
      rfl

theorem waitAll_unsettled_iff :
    (waitAll h d n gs s).1 = .unsettled ↔ ∃ gs' s', Reaches h d n gs s gs' s' := by
  constructor
  · rcases hwait : waitAll h d n gs s with ⟨w, gs', s'⟩
    rintro rfl
    obtain ⟨_, _, _, _, _, hsettles⟩ | ⟨-, hreaches⟩ := waitAll_eq_iff.mp hwait
    · cases hsettles
    · exact ⟨gs', s', hreaches⟩
  · rintro ⟨gs', s', hreaches⟩
    rw [waitAll_eq_iff.mpr (.inr ⟨rfl, hreaches⟩)]

/-! ## The time of a round -/

theorem Asked.time_le (hsteady : h.Steady) {g : Guard} {r : Except PipelineError Guard}
    (hasked : Asked h g s r s') : h.time s ≤ h.time s' := by
  cases hasked with
  | known => exact Nat.le_refl _
  | answer _ hpoll => simpa [hpoll] using hsteady.poll g.child s
  | fault _ hpoll => simpa [hpoll] using hsteady.poll g.child s

theorem Round.time_le (hsteady : h.Steady) {r : Except PipelineError (List Guard)}
    (hround : Round h gs s r s') : h.time s ≤ h.time s' := by
  induction hround with
  | nil => exact Nat.le_refl _
  | fault hasked => exact hasked.time_le hsteady
  | cons hasked _ ih => exact (hasked.time_le hsteady).trans ih
  | later hasked _ ih => exact (hasked.time_le hsteady).trans ih

theorem InTime.time_le (hsteady : h.Steady) (hin : InTime h d s s') : h.time s ≤ h.time s' := by
  cases hin with
  | unlimited => exact Nat.le_refl _
  | within _ hnow => simpa [hnow] using hsteady.now s

theorem InTime.lt_limit {limit : Duration} (hlimit : d.limit = some limit)
    (hstart : d.start.nanos ≤ h.time s) (hin : InTime h d s s') :
    h.time s < d.start.nanos + limit.nanos := by
  cases hin with
  | unlimited hnone => simp [hnone] at hlimit
  | within hlimit' hnow hlt =>
    obtain rfl := Option.some.inj (hlimit'.symm.trans hlimit)
    rw [Host.time, hnow] at hstart ⊢
    dsimp only at hstart ⊢
    omega

/-- The last of the rounds that go on is within the limit, and each is an interval later than the
one before. -/
theorem Reaches.within_limit (hsteady : h.Steady) {limit : Duration}
    (hlimit : d.limit = some limit) (hstart : d.start.nanos ≤ h.time s)
    (hreaches : Reaches h d (k + 1) gs s gs' s') :
    h.time s + k * pollInterval.nanos < d.start.nanos + limit.nanos := by
  induction k generalizing gs s with
  | zero =>
    cases hreaches with
    | next hround _ hin _ =>
      have hasked := hround.time_le hsteady
      have hlt := hin.lt_limit hlimit (hstart.trans hasked)
      omega
  | succ k ih =>
    cases hreaches with
    | @next _ _ _ gs₁ s₁ s₂ _ _ hround _ hin hrest =>
      have hslept : h.time s + pollInterval.nanos ≤ h.time (h.sleep pollInterval s₂) :=
        calc h.time s + pollInterval.nanos
            ≤ h.time s₁ + pollInterval.nanos := Nat.add_le_add_right (hround.time_le hsteady) _
          _ ≤ h.time s₂ + pollInterval.nanos := Nat.add_le_add_right (hin.time_le hsteady) _
          _ ≤ h.time (h.sleep pollInterval s₂) := hsteady.sleep s₂
      have hlast := ih (hstart.trans ((Nat.le_add_right _ _).trans hslept)) hrest
      rw [Nat.succ_mul]
      omega

/-- With a limit, waiting is settled by one round more than intervals begin in the limit. -/
theorem waitAll_settled (hsteady : h.Steady) {limit : Duration} (hlimit : d.limit = some limit)
    (hstart : d.start.nanos ≤ h.time s) (hn : limit.nanos ⌈/⌉ pollInterval.nanos + 1 ≤ n) :
    (waitAll h d n gs s).1 ≠ .unsettled := by
  intro hunsettled
  obtain ⟨k, rfl⟩ : ∃ k, n = k + 1 := ⟨n - 1, by omega⟩
  obtain ⟨gs', s', hreaches⟩ := waitAll_unsettled_iff.mp hunsettled
  have hwithin := hreaches.within_limit hsteady hlimit hstart
  have hceil : limit.nanos ≤ pollInterval.nanos * k :=
    (ceilDiv_le_iff_le_mul (by decide)).mp (Nat.le_of_succ_le_succ hn)
  rw [Nat.mul_comm] at hceil
  omega

/-! ## How waiting is settled -/

/-- A fault of a round is one of a child that was asked. -/
theorem round_of_pollAll {e : PipelineError} (hpoll : pollAll h gs s = (some e, gs', s')) :
    Round h gs s (.error e) s' :=
  found_pollAll.mp (found_eq_error.mpr ⟨gs', hpoll⟩)

theorem settles_finished_iff :
    Settles h d gs s .finished gs' s' ↔
      Round h gs s (.ok gs') s' ∧ ∀ g ∈ gs', g.status ≠ none := by
  constructor
  · intro hsettles
    cases hsettles with
    | exited hround hall => exact ⟨hround, hall⟩
  · rintro ⟨hround, hall⟩
    exact .exited hround hall

theorem settles_timeout_iff {limit : Duration} :
    Settles h d gs s (.failed (.timeout limit)) gs' s' ↔
      ∃ gs₁ s₁ s₂, Round h gs s (.ok gs₁) s₁ ∧ (∃ g ∈ gs₁, g.status = none) ∧
        Expired h d s₁ limit s₂ ∧ Killed h gs₁ s₂ gs' s' := by
  constructor
  · intro hsettles
    cases hsettles with
    | fault hpoll =>
      obtain ⟨_, _, _, _, _, _, -, -, -, -, heq⟩ := round_error_iff.mp (round_of_pollAll hpoll)
      cases heq
    | late hround hrunning hexpired hkilled => exact ⟨_, _, _, hround, hrunning, hexpired, hkilled⟩
  · rintro ⟨gs₁, s₁, s₂, hround, hrunning, hexpired, hkilled⟩
    exact .late hround hrunning hexpired hkilled

theorem settles_collect_iff {stage : Stage} {cause : SystemFault} :
    (∃ gs' s', Settles h d gs s (.failed (.collect stage cause)) gs' s') ↔
      ∃ before g after before' s₁ s₂, gs = before ++ g :: after ∧
        Round h before s (.ok before') s₁ ∧ g.status = none ∧ g.stage = stage ∧
        h.poll g.child s₁ = (.error cause, s₂) := by
  constructor
  · rintro ⟨gs', s', hsettles⟩
    cases hsettles with
    | fault hpoll =>
      obtain ⟨before, g, after, before', s₁, _, hgs, hbefore, hst, hfault, heq⟩ :=
        round_error_iff.mp (round_of_pollAll hpoll)
      cases heq
      exact ⟨before, g, after, before', s₁, s', hgs, hbefore, hst, rfl, hfault⟩
  · rintro ⟨before, g, after, before', s₁, s₂, hgs, hbefore, hst, rfl, hfault⟩
    have hround : Round h gs s (.error (.collect g.stage cause)) s₂ :=
      round_error_iff.mpr ⟨before, g, after, before', s₁, cause, hgs, hbefore, hst, hfault, rfl⟩
    obtain ⟨gs', hpoll⟩ := found_eq_error.mp (found_pollAll.mpr hround)
    exact ⟨gs', s₂, .fault hpoll⟩

theorem waitAll_finished_iff :
    waitAll h d n gs s = (.finished, gs', s') ↔
      ∃ k < n, ∃ gs₁ s₁, Reaches h d k gs s gs₁ s₁ ∧ Settles h d gs₁ s₁ .finished gs' s' := by
  rw [waitAll_eq_iff, or_iff_left fun hunsettled => nomatch hunsettled.1]

theorem waitAll_failed_iff {e : PipelineError} :
    waitAll h d n gs s = (.failed e, gs', s') ↔
      ∃ k < n, ∃ gs₁ s₁, Reaches h d k gs s gs₁ s₁ ∧ Settles h d gs₁ s₁ (.failed e) gs' s' := by
  rw [waitAll_eq_iff, or_iff_left fun hunsettled => nomatch hunsettled.1]

/-- The errors of waiting are faults of the stages of its children, and the limit. -/
theorem waitAll_error {e : PipelineError} (heq : waitAll h d n gs s = (.failed e, gs', s')) :
    (∃ g ∈ gs, ∃ cause, e = .collect g.stage cause) ∨
      ∃ limit, d.limit = some limit ∧ e = .timeout limit := by
  obtain ⟨k, -, gs₁, s₁, hreaches, hsettles⟩ := waitAll_failed_iff.mp heq
  cases hsettles with
  | fault hpoll =>
    obtain ⟨before, g₁, after, _, _, cause, rfl, -, -, -, rfl⟩ :=
      round_error_iff.mp (round_of_pollAll hpoll)
    -- the child is one of those at the start, with the same stage
    have hkeeps := waitAll_keeps (h := h) (d := d) k gs s
    rw [waitAll_eq_iff.mpr (.inr ⟨rfl, hreaches⟩)] at hkeeps
    obtain ⟨g, hg, hkept⟩ := keeps_exists hkeeps (List.mem_append_right before (.head after))
    exact .inl ⟨g, hg, cause, by rw [hkept.stage]⟩
  | late _ _ hexpired _ =>
    cases hexpired with
    | intro hlimit => exact .inr ⟨_, hlimit, rfl⟩

/-- **Waiting is settled, and in what way.** Let any children be waited for on any host, whatever
their statuses and whatever it answers.  If there is a limit, the clock never goes back and a sleep
takes a poll interval or more, then waiting is settled by one round more than intervals begin in the
limit.  All children are found to have exited exactly if they are in a round that is reached, which
may be past the limit.  The time is up exactly if in a round that is reached a child is running and
the limit is used up, and then all that are not known to have exited have been killed.  A child of a
stage cannot be asked exactly if that is so in a round that is reached.  There is no other error,
and the statuses that were known are kept. -/
theorem waitAll_settles (h : Host σ) (d : Deadline) (gs : List Guard) (s : σ) :
    (h.Steady → d.start.nanos ≤ h.time s → ∀ limit, d.limit = some limit →
      ∀ n, limit.nanos ⌈/⌉ pollInterval.nanos + 1 ≤ n → (waitAll h d n gs s).1 ≠ .unsettled) ∧
    (∀ n gs' s', waitAll h d n gs s = (.finished, gs', s') ↔
      ∃ k < n, ∃ gs₁ s₁, Reaches h d k gs s gs₁ s₁ ∧ Round h gs₁ s₁ (.ok gs') s' ∧
        ∀ g ∈ gs', g.status ≠ none) ∧
    (∀ n limit gs' s', waitAll h d n gs s = (.failed (.timeout limit), gs', s') ↔
      ∃ k < n, ∃ gs₁ s₁, Reaches h d k gs s gs₁ s₁ ∧ ∃ gs₂ s₂ s₃, Round h gs₁ s₁ (.ok gs₂) s₂ ∧
        (∃ g ∈ gs₂, g.status = none) ∧ Expired h d s₂ limit s₃ ∧ Killed h gs₂ s₃ gs' s') ∧
    (∀ n stage cause, (∃ gs' s', waitAll h d n gs s = (.failed (.collect stage cause), gs', s')) ↔
      ∃ k < n, ∃ gs₁ s₁, Reaches h d k gs s gs₁ s₁ ∧ ∃ before g after before' s₂ s₃,
        gs₁ = before ++ g :: after ∧ Round h before s₁ (.ok before') s₂ ∧ g.status = none ∧
        g.stage = stage ∧ h.poll g.child s₂ = (.error cause, s₃)) ∧
    (∀ n e gs' s', waitAll h d n gs s = (.failed e, gs', s') →
      (∃ g ∈ gs, ∃ cause, e = .collect g.stage cause) ∨
        ∃ limit, d.limit = some limit ∧ e = .timeout limit) ∧
    ∀ n, List.Forall₂ Guard.Keeps gs (waitAll h d n gs s).2.1 := by
  refine ⟨fun hsteady hstart limit hlimit n => waitAll_settled hsteady hlimit hstart,
    fun n gs' s' => ?_, fun n limit gs' s' => ?_, fun n stage cause => ?_,
    fun n e gs' s' => waitAll_error, fun n => waitAll_keeps n gs s⟩
  · simp only [waitAll_finished_iff, settles_finished_iff]
  · simp only [waitAll_failed_iff, settles_timeout_iff]
  · simp only [waitAll_failed_iff]
    constructor
    · rintro ⟨gs', s', k, hk, gs₁, s₁, hreaches, hsettles⟩
      exact ⟨k, hk, gs₁, s₁, hreaches, settles_collect_iff.mp ⟨gs', s', hsettles⟩⟩
    · rintro ⟨k, hk, gs₁, s₁, hreaches, hfault⟩
      obtain ⟨gs', s', hsettles⟩ := settles_collect_iff.mpr hfault
      exact ⟨gs', s', k, hk, gs₁, s₁, hreaches, hsettles⟩

/-- A host on which only sleeping takes time, and each child lives for as many nanoseconds as its
number says. -/
def mayflies : Host Nat where
  now s := (⟨s⟩, s)
  spawn _ s := (.ok 0, s)
  poll c s := (.ok (if c ≤ s then some (.exited 0) else none), s)
  kill _ s := s
  reap _ s := (some (.signaled 9), s)
  drain _ _ s := (.ok [], s)
  drainWithin _ _ _ s := (.bytes [], s)
  sleep interval s := s + interval.nanos

/-- A lexer that exits at once, and a parser that lives for some time. -/
def mayfly (life : Nat) : List Guard := [⟨0, .lexer, none⟩, ⟨life, .parser, none⟩]

/-- A limit of one interval and a half: a child that exits between the limit and the third look has
exited, and one that lives longer is killed at this look. -/
theorem waitAll_settles_third_look :
    mayflies.Steady ∧
    (∀ life, (waitAll mayflies ⟨⟨0⟩, some ⟨30000000⟩⟩ 3 (mayfly life) 0).1 ≠ .unsettled) ∧
    (∃ gs s, Reaches mayflies ⟨⟨0⟩, some ⟨30000000⟩⟩ 2 (mayfly 35000000) 0 gs s) ∧
    waitAll mayflies ⟨⟨0⟩, some ⟨30000000⟩⟩ 3 (mayfly 35000000) 0 =
      (.finished, [⟨0, .lexer, some (.exited 0)⟩, ⟨35000000, .parser, some (.exited 0)⟩],
        40000000) ∧
    waitAll mayflies ⟨⟨0⟩, some ⟨30000000⟩⟩ 3 (mayfly 50000000) 0 =
      (.failed (.timeout ⟨30000000⟩),
        [⟨0, .lexer, some (.exited 0)⟩, ⟨50000000, .parser, some (.signaled 9)⟩], 40000000) := by
  have hsteady : mayflies.Steady :=
    ⟨fun _ => le_rfl, fun _ _ => le_rfl, fun s => Nat.le_refl (s + pollInterval.nanos)⟩
  refine ⟨hsteady, fun life => ?_, waitAll_unsettled_iff.mp (by rfl), by rfl, by rfl⟩
  exact (waitAll_settles mayflies _ (mayfly life) 0).1 hsteady le_rfl ⟨30000000⟩ rfl 3 (by decide)

end Executor

end Conformance
