import Mathlib.Data.List.Nodup
import Conformance.Proofs.Pipeline.Course

/-!
# The children of a run

A host that keeps a record of all that is done to children.  The record of each child is a `Life`,
and the guard of the child knows what the record says; each step of the executor keeps that for
its own child and leaves the other records alone (`Advances`).
-/

namespace Conformance

/-- What is done to a child, with the answer. -/
inductive ChildEvent
  | spawned (child : Child)
  | polled (child : Child) (answer : Except SystemFault (Option ExitStatus))
  | killed (child : Child)
  | reaped (child : Child) (status : Option ExitStatus)

namespace ChildEvent

/-- The child of an event. -/
def child : ChildEvent → Child
  | spawned c => c
  | polled c _ => c
  | killed c => c
  | reaped c _ => c

/-- The exit status that is recorded with an event. -/
def status? : ChildEvent → Option ExitStatus
  | polled _ (.ok status) => status
  | reaped _ status => status
  | _ => none

@[simp] theorem status?_spawned (c : Child) : (spawned c).status? = none := rfl
@[simp] theorem status?_polled_ok (c : Child) (status : Option ExitStatus) :
    (polled c (.ok status)).status? = status := rfl
@[simp] theorem status?_polled_error (c : Child) (cause : SystemFault) :
    (polled c (.error cause)).status? = none := rfl
@[simp] theorem status?_killed (c : Child) : (killed c).status? = none := rfl
@[simp] theorem status?_reaped (c : Child) (status : Option ExitStatus) :
    (reaped c status).status? = status := rfl

end ChildEvent

variable {σ : Type}

/-- The host with a record of what was done to children, the last event at the end. -/
def Host.recording (h : Host σ) : Host (σ × List ChildEvent) where
  now s := ((h.now s.1).1, (h.now s.1).2, s.2)
  spawn launch s :=
    match h.spawn launch s.1 with
    | (.ok c, s') => (.ok c, s', s.2 ++ [.spawned c])
    | (.error cause, s') => (.error cause, s', s.2)
  poll c s := ((h.poll c s.1).1, (h.poll c s.1).2, s.2 ++ [.polled c (h.poll c s.1).1])
  kill c s := (h.kill c s.1, s.2 ++ [.killed c])
  reap c s := ((h.reap c s.1).1, (h.reap c s.1).2, s.2 ++ [.reaped c (h.reap c s.1).1])
  drain c channel s := ((h.drain c channel s.1).1, (h.drain c channel s.1).2, s.2)
  drainWithin c channel left s :=
    ((h.drainWithin c channel left s.1).1, (h.drainWithin c channel left s.1).2, s.2)
  sleep time s := (h.sleep time s.1, s.2)

/-- Keeping a record changes nothing. -/
theorem Host.recording_follows (h : Host σ) : h.recording.Follows h Prod.fst id where
  now heq := by simp [recording, heq]
  spawn {launch s answer t} heq := by cases answer <;> simp [recording, heq]
  poll {c s answer t} heq := by cases answer <;> simp [recording, heq, Except.map]
  kill := rfl
  reap heq := by simp [recording, heq]
  drain heq := by simp [recording, heq]
  drainWithin heq := by simp [recording, heq]
  sleep := rfl

namespace Executor

/-! ## The life of a child -/

/-- The events of a child, and its status once that is recorded.  It is started and polled, until
a poll finds that it has exited, or until it is killed and reaped; then it is left alone. -/
inductive Life (c : Child) : List ChildEvent → Option ExitStatus → Prop
  | spawned : Life c [.spawned c] none
  | polled {log status} : Life c log none → Life c (log ++ [.polled c (.ok status)]) status
  | fault {log cause} : Life c log none → Life c (log ++ [.polled c (.error cause)]) none
  | killed {log st} : Life c log none →
      Life c (log ++ [.killed c, .reaped c (some st)]) (some st)

namespace Life

variable {c : Child} {log : List ChildEvent} {status : Option ExitStatus}

theorem of_running (hlife : Life c log none) :
    .killed c ∉ log ∧ ∀ e ∈ log, e.status? = none := by
  generalize hnone : (none : Option ExitStatus) = status at hlife
  induction hlife with
  | spawned => simp
  | polled _ ih =>
    subst hnone
    obtain ⟨hkilled, hall⟩ := ih rfl
    simpa [hkilled, or_imp, forall_and] using hall
  | fault _ ih =>
    obtain ⟨hkilled, hall⟩ := ih rfl
    simpa [hkilled, or_imp, forall_and] using hall
  | killed => cases hnone

theorem pairwise_append (hlife : Life c log none) {more : List ChildEvent}
    (hmore : more.Pairwise fun e _ => e.status? = none) :
    (log ++ more).Pairwise fun e _ => e.status? = none := by
  have hnone := hlife.of_running.2
  have hlog : log.Pairwise fun _ _ => True := List.pairwise_of_forall fun _ _ => trivial
  exact List.pairwise_append.mpr
    ⟨hlog.imp_of_mem fun he _ _ => hnone _ he, hmore, fun e he _ _ => hnone e he⟩

/-- A status that is recorded is the last that happens to a child. -/
theorem pairwise (hlife : Life c log status) : log.Pairwise fun e _ => e.status? = none := by
  cases hlife with
  | spawned => exact List.pairwise_singleton ..
  | polled hrunning => exact hrunning.pairwise_append (List.pairwise_singleton ..)
  | fault hrunning => exact hrunning.pairwise_append (List.pairwise_singleton ..)
  | killed hrunning => exact hrunning.pairwise_append (by simp)

theorem recorded {st : ExitStatus} (hlife : Life c log (some st)) :
    ∃ e ∈ log, e.status? = some st := by
  cases hlife with
  | polled => exact ⟨_, List.mem_append_right _ (.head _), rfl⟩
  | killed => exact ⟨_, List.mem_append_right _ (.tail _ (.head _)), rfl⟩

theorem killed_iff {st : ExitStatus} (hlife : Life c log (some st)) :
    .killed c ∈ log ↔ ∀ st, .polled c (.ok (some st)) ∉ log := by
  cases hlife with
  | polled hrunning =>
    refine iff_of_false ?_ fun hall => hall st (List.mem_append_right _ (.head _))
    simpa using hrunning.of_running.1
  | killed hrunning =>
    refine iff_of_true (List.mem_append_right _ (.head _)) fun st hmem => ?_
    obtain hmem | hmem := List.mem_append.mp hmem
    · exact nomatch hrunning.of_running.2 _ hmem
    · simp at hmem

end Life

/-! ## The record of a run -/

/-- What a record says of one child. -/
def history (log : List ChildEvent) (c : Child) : List ChildEvent := log.filter (·.child = c)

theorem history_append (log more : List ChildEvent) (c : Child) :
    history (log ++ more) c = history log c ++ history more c := List.filter_append ..

/-- Each guard knows what the record says of its child. -/
def Tracked (log : List ChildEvent) (gs : List Guard) : Prop :=
  ∀ g ∈ gs, Life g.child (history log g.child) g.status

/-- What a step does to guards and to the record: guards of different children are tracked as
before, and nothing is added for other children. -/
structure Advances (gs gs' : List Guard) (log log' : List ChildEvent) : Prop where
  grows : log <+: log'
  children : gs'.map Guard.child = gs.map Guard.child
  others : ∀ c ∉ gs.map Guard.child, history log' c = history log c
  tracked : (gs.map Guard.child).Nodup → Tracked log gs → Tracked log' gs'

namespace Advances

variable {g g' : Guard} {gs gs' gs'' : List Guard} {log log' log'' : List ChildEvent}

theorem refl (gs : List Guard) (log : List ChildEvent) : Advances gs gs log log :=
  ⟨List.prefix_rfl, rfl, fun _ _ => rfl, fun _ htracked => htracked⟩

theorem trans (hfirst : Advances gs gs' log log') (hnext : Advances gs' gs'' log' log'') :
    Advances gs gs'' log log'' where
  grows := hfirst.grows.trans hnext.grows
  children := hnext.children.trans hfirst.children
  others c hc := by rw [hnext.others c (hfirst.children ▸ hc), hfirst.others c hc]
  tracked hnodup htracked :=
    hnext.tracked (hfirst.children ▸ hnodup) (hfirst.tracked hnodup htracked)

theorem cons (hfirst : Advances [g] [g'] log log') (hrest : Advances gs gs' log' log'') :
    Advances (g :: gs) (g' :: gs') log log'' where
  grows := hfirst.grows.trans hrest.grows
  children := by
    rw [List.map_cons, List.map_cons, hrest.children, (List.cons.inj hfirst.children).1]
  others c hc := by
    rw [List.map_cons, List.mem_cons, not_or] at hc
    rw [hrest.others c hc.2, hfirst.others c (by simpa using hc.1)]
  tracked hnodup htracked := by
    -- the first child is not among the others, so each step leaves the other's history alone
    have hchild : g'.child = g.child := (List.cons.inj hfirst.children).1
    obtain ⟨hg, hgs⟩ := List.nodup_cons.mp hnodup
    rintro x (_ | ⟨_, hx⟩)
    · rw [hchild, hrest.others _ hg, ← hchild]
      have htracked' : Tracked log [g] := fun y hy => htracked y (by simp_all)
      exact hfirst.tracked (List.nodup_singleton _) htracked' _ (.head _)
    · refine hrest.tracked hgs (fun y hy => ?_) x hx
      have hne : y.child ≠ g.child := fun heq => hg (heq ▸ List.mem_map_of_mem hy)
      rw [hfirst.others _ (by simpa using hne)]
      exact htracked y (.tail _ hy)

/-- A step of one child that adds to its life. -/
theorem single {more : List ChildEvent} (hchild : g'.child = g.child)
    (hmore : ∀ e ∈ more, e.child = g.child)
    (hlife : ∀ l, Life g.child l g.status → Life g.child (l ++ more) g'.status) :
    Advances [g] [g'] log (log ++ more) where
  grows := List.prefix_append ..
  children := by rw [List.map_singleton, List.map_singleton, hchild]
  others c hc := by
    have hnil : history more c = [] := by
      refine List.filter_eq_nil_iff.mpr fun e he => ?_
      rw [hmore e he, decide_eq_true_eq]
      exact fun heq => hc (by simp [heq])
    rw [history_append, hnil, List.append_nil]
  tracked _ htracked := by
    rintro x (_ | ⟨_, hx⟩)
    · have hall : history more g.child = more :=
        List.filter_eq_self.mpr fun e he => decide_eq_true (hmore e he)
      rw [hchild, history_append, hall]
      exact hlife _ (htracked g (.head _))
    · cases hx

end Advances

section Steps

variable {h : Host σ} {d : Deadline}

theorem Asked.advances {g : Guard} {s s' : σ × List ChildEvent} {r : Except PipelineError Guard}
    (hasked : Asked h.recording g s r s') :
    Advances [g] [r.toOption.getD g] s.2 s'.2 := by
  cases hasked with
  | known => exact .refl ..
  | @answer status s' hst hpoll =>
    obtain ⟨hanswer, rfl⟩ := Prod.mk.inj hpoll
    refine .single rfl (by simp [ChildEvent.child]) fun l hl => ?_
    rw [hanswer]
    rw [hst] at hl
    exact hl.polled
  | @fault cause s' hst hpoll =>
    obtain ⟨hanswer, rfl⟩ := Prod.mk.inj hpoll
    refine .single rfl (by simp [ChildEvent.child]) fun l hl => ?_
    rw [hst] at hl
    rw [hanswer]
    exact hst ▸ hl.fault

theorem pollAll_advances (gs : List Guard) (s : σ × List ChildEvent) :
    Advances gs (pollAll h.recording gs s).2.1 s.2 (pollAll h.recording gs s).2.2.2 := by
  induction gs generalizing s with
  | nil => exact .refl ..
  | cons g gs ih =>
    rcases hpoll : g.poll h.recording s with ⟨e | g', s'⟩
    · rw [pollAll_cons_error hpoll]
      exact (poll_iff.mp hpoll).advances.cons (.refl gs _)
    · rw [pollAll_cons_ok hpoll]
      exact (poll_iff.mp hpoll).advances.cons (ih s')

theorem expired_record (s : σ × List ChildEvent) : (d.expired h.recording s).2.2 = s.2 := by
  unfold Deadline.expired Deadline.remaining
  cases d.limit <;> rfl

theorem collect_record (g : Guard) (channel : Channel) (s : σ × List ChildEvent) :
    (collect h.recording d g channel s).2.2 = s.2 := by
  unfold collect Deadline.remaining
  cases d.limit <;> simp only <;> split <;> next heq => exact congrArg (·.2.2) heq.symm

theorem collectLines_record (g : Guard) (channel : Channel) (s : σ × List ChildEvent) :
    (collectLines h.recording d g channel s).2.2 = s.2 := by
  have hrecord := collect_record (h := h) (d := d) g channel s
  unfold collectLines
  rcases hcollect : collect h.recording d g channel s with ⟨e | bytes, s'⟩ <;>
    rw [hcollect] at hrecord <;> exact hrecord

theorem capture_record (g : Guard) (lexer : Option Guard) (s : σ × List ChildEvent) :
    (capture h.recording d g lexer s).2.2 = s.2 := by
  have hout := collectLines_record (h := h) (d := d) g .stdout s
  unfold capture
  rcases houtput : collectLines h.recording d g .stdout s with ⟨e | out, s₁⟩ <;>
    rw [houtput] at hout
  · exact hout
  · have herr := collectLines_record (h := h) (d := d) g .stderr s₁
    simp only
    rcases herrors : collectLines h.recording d g .stderr s₁ with ⟨e | err, s₂⟩ <;>
      rw [herrors] at herr <;> exact herr.trans hout

theorem finishPipeline_record (gs : List Guard) (s : σ × List ChildEvent) :
    (finishPipeline h.recording d gs s).2.2 = s.2 := by
  rcases gs with _ | ⟨lexer, _ | ⟨parser, _ | ⟨g, gs⟩⟩⟩
  · rfl
  · rfl
  · have hrecord := collect_record (h := h) (d := d) lexer .stderr s
    rw [finishPipeline]
    rcases hcollect : collect h.recording d lexer .stderr s with ⟨e | bytes, s'⟩ <;>
      rw [hcollect] at hrecord
    · exact hrecord
    · exact (capture_record parser (some lexer) s').trans hrecord
  · rfl

theorem finishCompiler_record (gs : List Guard) (s : σ × List ChildEvent) :
    (finishCompiler h.recording d gs s).2.2 = s.2 := by
  rcases gs with _ | ⟨guard, _ | ⟨g, gs⟩⟩
  · rfl
  · exact capture_record guard none s
  · rfl

theorem killAll_exited {τ : Type} {k : Host τ} {gs : List Guard} (hall : ∀ g ∈ gs, g.status ≠ none)
    (s : τ) : killAll k gs s = (gs, s) := by
  induction gs with
  | nil => rfl
  | cons g gs ih =>
    obtain ⟨st, hst⟩ := Option.ne_none_iff_exists'.mp (hall g (.head _))
    simp only [killAll, Guard.kill, hst, ih fun g hg => hall g (.tail _ hg)]

variable (hreap : ∀ c s, (h.reap c s).1 ≠ none)
include hreap

theorem kill_advances (g : Guard) (s : σ × List ChildEvent) :
    Advances [g] [(g.kill h.recording s).1] s.2 (g.kill h.recording s).2.2 ∧
      (g.kill h.recording s).1.status ≠ none := by
  unfold Guard.kill
  rcases hst : g.status with _ | st
  · obtain ⟨st, hst'⟩ := Option.ne_none_iff_exists'.mp (hreap g.child (h.kill g.child s.1))
    simp only [Host.recording, hst', List.append_assoc]
    refine ⟨.single rfl (by simp [ChildEvent.child]) fun l hl => ?_, Option.some_ne_none st⟩
    rw [hst] at hl
    exact hl.killed
  · exact ⟨.refl .., by simp [hst]⟩

theorem killAll_advances (gs : List Guard) (s : σ × List ChildEvent) :
    Advances gs (killAll h.recording gs s).1 s.2 (killAll h.recording gs s).2.2 ∧
      ∀ g ∈ (killAll h.recording gs s).1, g.status ≠ none := by
  induction gs generalizing s with
  | nil => exact ⟨.refl .., nofun⟩
  | cons g gs ih =>
    obtain ⟨hfirst, hended⟩ := kill_advances hreap g s
    obtain ⟨hrest, hall⟩ := ih (g.kill h.recording s).2
    refine ⟨hfirst.cons hrest, ?_⟩
    rintro x (_ | ⟨_, hx⟩)
    · exact hended
    · exact hall x hx

theorem waitAll_advances (n : Nat) (gs : List Guard) (s : σ × List ChildEvent) :
    Advances gs (waitAll h.recording d n gs s).2.1 s.2 (waitAll h.recording d n gs s).2.2.2 := by
  induction n generalizing gs s with
  | zero => exact .refl ..
  | succ n ih =>
    have hround := pollAll_advances (h := h) gs s
    rw [waitAll]
    rcases hpoll : pollAll h.recording gs s with ⟨_ | e, gs', s'⟩ <;> rw [hpoll] at hround
    · simp only
      split
      · exact hround
      · have hrecord := expired_record (h := h) (d := d) s'
        rcases hexpired : d.expired h.recording s' with ⟨expired, s''⟩
        rw [hexpired] at hrecord
        simp only at hrecord ⊢
        rw [← hrecord] at hround
        split
        · exact hround.trans (killAll_advances hreap gs' s'').1
        · exact hround.trans (ih gs' (h.recording.sleep pollInterval s''))
    · exact hround

/-- A run ends with the status of each child known.  If it is captured, they are those with which
waiting has ended. -/
theorem conclude_advances
    {finish : List Guard → σ × List ChildEvent →
      Option (Except PipelineError CapturedRun) × σ × List ChildEvent}
    (hfinish : ∀ gs s, (finish gs s).2.2 = s.2) (n : Nat) (gs : List Guard)
    (s : σ × List ChildEvent) :
    ∃ gs', Advances gs gs' s.2
        (conclude h.recording finish (waitAll h.recording d n gs s)).2.2 ∧
      (∀ g ∈ gs', g.status ≠ none) ∧
      ∀ r, (conclude h.recording finish (waitAll h.recording d n gs s)).1 = some (.ok r) →
        ∃ sts s', sts.length = gs.length ∧ gs' = List.zipWith Guard.exited gs sts ∧
          (finish gs' s').1 = some (.ok r) := by
  have hwaited := waitAll_advances (d := d) hreap n gs s
  rcases hwait : waitAll h.recording d n gs s with ⟨_ | e | _, gs', s'⟩ <;> rw [hwait] at hwaited
  · have hwaits := waits_of_ended (ended_eq_ok.mpr hwait)
    have hall := hwaits.exited_children.2
    obtain ⟨sts, hlength, hexited⟩ := hwaits.exited_eq
    refine ⟨gs', ?_, hall, fun r hr => ⟨sts, s', hlength, hexited, hr⟩⟩
    -- letting go of children that have exited asks nothing of the host
    rw [conclude, release, killAll_exited hall, hfinish]
    exact hwaited
  · obtain ⟨hkilled, hall⟩ := killAll_advances hreap gs' s'
    refine ⟨_, hwaited.trans hkilled, hall, fun r hr => ?_⟩
    cases hr
  · obtain ⟨hkilled, hall⟩ := killAll_advances hreap gs' s'
    refine ⟨_, hwaited.trans hkilled, hall, fun r hr => ?_⟩
    cases hr

end Steps

/-! ## The account of a run -/

/-- A status that the record of a run holds for a child. -/
def Recorded (log : List ChildEvent) (c : Child) (st : ExitStatus) : Prop :=
  ∃ e ∈ log, e.child = c ∧ e.status? = some st

/-- What is to be said of all children of a run, by the record of what was done to them. -/
structure Accounted (log : List ChildEvent) : Prop where
  /-- Each child that was started has been found to have exited, or has been reaped. -/
  ended : ∀ c, .spawned c ∈ log → ∃ st, Recorded log c st
  /-- Once the status of a child is recorded, nothing more is done to it. -/
  untouched : log.Pairwise fun e e' => e.child = e'.child → e.status? = none
  /-- The children that were killed are those that no poll has found to have exited. -/
  killed : ∀ c, .spawned c ∈ log → (.killed c ∈ log ↔ ∀ st, .polled c (.ok (some st)) ∉ log)

theorem mem_history {log : List ChildEvent} {c : Child} {e : ChildEvent} :
    e ∈ history log c ↔ e ∈ log ∧ e.child = c := by
  rw [history, List.mem_filter, decide_eq_true_iff]

theorem pairwise_of_history {log : List ChildEvent}
    (hall : ∀ c, (history log c).Pairwise fun e _ => e.status? = none) :
    log.Pairwise fun e e' => e.child = e'.child → e.status? = none := by
  induction log with
  | nil => exact .nil
  | cons e log ih =>
    refine List.pairwise_cons.mpr ⟨fun e' he' heq => ?_, ih fun c => ?_⟩
    · have hfirst := hall e.child
      rw [history, List.filter_cons_of_pos (by simp)] at hfirst
      exact List.rel_of_pairwise_cons hfirst (mem_history.mpr ⟨he', heq.symm⟩)
    · exact (hall c).sublist ((List.sublist_cons_self e log).filter _)

theorem Tracked.recorded {gs : List Guard} {log : List ChildEvent} (htracked : Tracked log gs)
    {g : Guard} {st : ExitStatus} (hg : g ∈ gs) (hst : g.status = some st) :
    Recorded log g.child st := by
  have hlife := htracked g hg
  rw [hst] at hlife
  obtain ⟨e, he, hstatus⟩ := hlife.recorded
  obtain ⟨hmem, hchild⟩ := mem_history.mp he
  exact ⟨e, hmem, hchild, hstatus⟩

/-- A record of the children of some guards and of no others. -/
structure Covers (log : List ChildEvent) (gs : List Guard) : Prop where
  nodup : (gs.map Guard.child).Nodup
  tracked : Tracked log gs
  others : ∀ c ∉ gs.map Guard.child, history log c = []

namespace Covers

variable {gs gs' : List Guard} {log log' : List ChildEvent}

theorem nil : Covers [] [] := ⟨List.nodup_nil, nofun, fun _ _ => rfl⟩

theorem spawned (hcovers : Covers log gs) {c : Child} (stage : Stage)
    (hc : c ∉ gs.map Guard.child) : Covers (log ++ [.spawned c]) (gs ++ [⟨c, stage, none⟩]) where
  nodup := by
    rw [List.map_append]
    exact List.nodup_append.mpr ⟨hcovers.nodup, List.nodup_singleton c, by simp_all⟩
  tracked := by
    intro g hg
    rw [history_append]
    obtain hg | hg := List.mem_append.mp hg
    · have hne : c ≠ g.child := fun heq => hc (heq ▸ List.mem_map_of_mem hg)
      simpa [history, ChildEvent.child, hne] using hcovers.tracked g hg
    · obtain rfl := List.mem_singleton.mp hg
      rw [hcovers.others c hc]
      simpa [history, ChildEvent.child] using Life.spawned
  others := by
    intro c' hc'
    have hne : c ≠ c' := by
      rintro rfl
      simp at hc'
    rw [history_append, hcovers.others c' (by simp_all)]
    simp [history, ChildEvent.child, hne]

theorem advances (hcovers : Covers log gs) (hadvances : Advances gs gs' log log') :
    Covers log' gs' where
  nodup := hadvances.children ▸ hcovers.nodup
  tracked := hadvances.tracked hcovers.nodup hcovers.tracked
  others c hc := by
    rw [hadvances.children] at hc
    rw [hadvances.others c hc, hcovers.others c hc]

theorem accounted (hcovers : Covers log gs) (hended : ∀ g ∈ gs, g.status ≠ none) :
    Accounted log := by
  have hguard : ∀ e ∈ log, ∃ g ∈ gs, g.child = e.child := by
    intro e he
    by_contra hnone
    have hnil := hcovers.others e.child fun hmem => hnone (List.mem_map.mp hmem)
    exact List.not_mem_nil (hnil ▸ mem_history.mpr ⟨he, rfl⟩)
  refine ⟨fun c hc => ?_, pairwise_of_history fun c => ?_, fun c hc => ?_⟩
  · obtain ⟨g, hg, rfl⟩ := hguard _ hc
    obtain ⟨st, hst⟩ := Option.ne_none_iff_exists'.mp (hended g hg)
    exact ⟨st, hcovers.tracked.recorded hg hst⟩
  · by_cases hc : c ∈ gs.map Guard.child
    · obtain ⟨g, hg, rfl⟩ := List.mem_map.mp hc
      exact (hcovers.tracked g hg).pairwise
    · rw [hcovers.others c hc]
      exact .nil
  · obtain ⟨g, hg, rfl⟩ := hguard _ hc
    obtain ⟨st, hst⟩ := Option.ne_none_iff_exists'.mp (hended g hg)
    have hlife := hcovers.tracked g hg
    rw [hst] at hlife
    have hkilled := hlife.killed_iff
    simpa [mem_history, ChildEvent.child] using hkilled

end Covers

theorem map_relabeled_id (r : Option (Except PipelineError CapturedRun)) :
    r.map (·.map (·.relabeled id)) = r := by
  obtain _ | _ | r := r
  · rfl
  · rfl
  · simp [Except.map]

section Runs

variable {h : Host σ} {launch : Launch} {s s' : σ} {log : List ChildEvent}

theorem recording_spawn {c : Child} (hspawn : h.spawn launch s = (.ok c, s')) :
    h.recording.spawn launch (s, log) = (.ok c, s', log ++ [.spawned c]) := by
  simp [Host.recording, hspawn]

theorem recording_spawn_fault {cause : SystemFault}
    (hspawn : h.spawn launch s = (.error cause, s')) :
    h.recording.spawn launch (s, log) = (.error cause, s', log) := by
  simp [Host.recording, hspawn]

theorem finishPipeline_statuses {d : Deadline} {lexer parser : Child} {st st' : ExitStatus}
    {r : CapturedRun}
    (hr : (finishPipeline h d [⟨lexer, .lexer, some st⟩, ⟨parser, .parser, some st'⟩] s).1 =
      some (.ok r)) : r.lexerStatus = some st ∧ r.status = st' := by
  cases finishPipeline_iff.mp hr
  exact ⟨rfl, rfl⟩

theorem finishCompiler_status {d : Deadline} {child : Child} {st : ExitStatus} {r : CapturedRun}
    (hr : (finishCompiler h d [⟨child, .compiler, some st⟩] s).1 = some (.ok r)) :
    r.status = st := by
  obtain ⟨_ | ⟨stdout, stderr, elapsed⟩, -, heq⟩ :=
    (capture_iff (g := ⟨child, .compiler, some st⟩) rfl).mp (Option.some.inj hr)
  · cases heq
  · cases heq
    rfl

variable (hreap : ∀ c s, (h.reap c s).1 ≠ none)
include hreap

theorem runPipeline_accounted
    (hspawn : ∀ launch s c, (h.spawn launch s).1 = .ok c → launch.input ≠ some c) (rounds : Nat)
    (limit : Option Duration) (t : Toolchain) (source : Path) (s : σ) :
    let run := runPipeline h.recording rounds limit t source (s, [])
    Accounted run.2.2 ∧ ∀ r, run.1 = some (.ok r) →
      ∃ lexer parser st, [.spawned lexer, .spawned parser] <+: run.2.2 ∧
        r.lexerStatus = some st ∧ Recorded run.2.2 lexer st ∧ Recorded run.2.2 parser r.status := by
  intro run
  have hnow : h.recording.now (s, []) = ((h.now s).1, (h.now s).2, []) := rfl
  rcases hlexer : h.spawn (lexerLaunch t source) (h.now s).2 with ⟨cause | lexer, s₁⟩
  · have hrun : run = _ := runPipeline_lexerFault hnow (recording_spawn_fault hlexer)
    rw [hrun]
    exact ⟨Covers.nil.accounted nofun, nofun⟩
  have hcovers := Covers.nil.spawned .lexer (c := lexer) List.not_mem_nil
  rcases hparser : h.spawn (parserLaunch t lexer) s₁ with ⟨cause | parser, s₂⟩
  · have hrun : run = _ := runPipeline_parserFault hnow (recording_spawn hlexer)
      (recording_spawn_fault hparser)
    obtain ⟨hkilled, hended⟩ :=
      killAll_advances hreap [⟨lexer, .lexer, none⟩] (s₂, [.spawned lexer])
    rw [hrun]
    exact ⟨(hcovers.advances hkilled).accounted hended, nofun⟩
  have hne : parser ≠ lexer := fun heq =>
    hspawn (parserLaunch t lexer) s₁ parser (by rw [hparser]) (heq ▸ rfl)
  have hcovers := hcovers.spawned .parser (c := parser) (by simpa using hne)
  have hrun : run = _ :=
    runPipeline_launched hnow ⟨recording_spawn hlexer, recording_spawn hparser⟩
  obtain ⟨gs, hadvances, hended, hok⟩ := conclude_advances (d := ⟨(h.now s).1, limit⟩) hreap
    finishPipeline_record rounds [⟨lexer, .lexer, none⟩, ⟨parser, .parser, none⟩]
    (s₂, [.spawned lexer, .spawned parser])
  have hcovers := hcovers.advances hadvances
  rw [hrun]
  refine ⟨hcovers.accounted hended, fun r hr => ?_⟩
  obtain ⟨sts, s', hlength, rfl, hfinish⟩ := hok r hr
  obtain ⟨st, st', rfl⟩ := List.length_eq_two.mp hlength
  obtain ⟨hlexerStatus, rfl⟩ := finishPipeline_statuses hfinish
  exact ⟨lexer, parser, st, hadvances.grows, hlexerStatus,
    hcovers.tracked.recorded (.head _) rfl, hcovers.tracked.recorded (.tail _ (.head _)) rfl⟩

theorem runCompiler_accounted (rounds : Nat) (limit : Option Duration) (compiler : Invocation)
    (source : Path) (s : σ) :
    let run := runCompiler h.recording rounds limit compiler source (s, [])
    Accounted run.2.2 ∧ ∀ r, run.1 = some (.ok r) →
      ∃ child, [.spawned child] <+: run.2.2 ∧ Recorded run.2.2 child r.status := by
  intro run
  have hnow : h.recording.now (s, []) = ((h.now s).1, (h.now s).2, []) := rfl
  rcases hspawn : h.spawn (compilerLaunch compiler source) (h.now s).2 with ⟨cause | child, s₁⟩
  · have hrun : run = _ := runCompiler_fault hnow (recording_spawn_fault hspawn)
    rw [hrun]
    exact ⟨Covers.nil.accounted nofun, nofun⟩
  have hcovers := Covers.nil.spawned .compiler (c := child) List.not_mem_nil
  have hrun : run = _ := runCompiler_launched hnow (recording_spawn hspawn)
  obtain ⟨gs, hadvances, hended, hok⟩ := conclude_advances (d := ⟨(h.now s).1, limit⟩) hreap
    finishCompiler_record rounds [⟨child, .compiler, none⟩] (s₁, [.spawned child])
  have hcovers := hcovers.advances hadvances
  rw [hrun]
  refine ⟨hcovers.accounted hended, fun r hr => ?_⟩
  obtain ⟨sts, s', hlength, rfl, hfinish⟩ := hok r hr
  obtain ⟨st, rfl⟩ := List.length_eq_one_iff.mp hlength
  obtain rfl := finishCompiler_status hfinish
  exact ⟨child, hadvances.grows, hcovers.tracked.recorded (.head _) rfl⟩

end Runs

/-- **No child is forgotten and none is disturbed.** Let a host never give a process the number of
the one that it reads from, and let it reap each child that it is asked to reap.  However a run on
it ends, all children that were started have been reaped, none was polled, killed or reaped once
its status was recorded, a captured run states the recorded statuses, and just those children were
killed that no poll had found to have exited. -/
theorem children_accounted (h : Host σ)
    (hspawn : ∀ launch s c, (h.spawn launch s).1 = .ok c → launch.input ≠ some c)
    (hreap : ∀ c s, (h.reap c s).1 ≠ none) (rounds : Nat) (limit : Option Duration)
    (source : Path) (s : σ) :
    (∀ t : Toolchain, let run := runPipeline h.recording rounds limit t source (s, [])
      run.1 = (runPipeline h rounds limit t source s).1 ∧ Accounted run.2.2 ∧
      ∀ r, run.1 = some (.ok r) → ∃ lexer parser st,
        [.spawned lexer, .spawned parser] <+: run.2.2 ∧ r.lexerStatus = some st ∧
          Recorded run.2.2 lexer st ∧ Recorded run.2.2 parser r.status) ∧
    ∀ compiler : Invocation, let run := runCompiler h.recording rounds limit compiler source (s, [])
      run.1 = (runCompiler h rounds limit compiler source s).1 ∧ Accounted run.2.2 ∧
      ∀ r, run.1 = some (.ok r) → ∃ child,
        [.spawned child] <+: run.2.2 ∧ Recorded run.2.2 child r.status := by
  refine ⟨fun t => ⟨?_, runPipeline_accounted hreap hspawn rounds limit t source s⟩,
    fun compiler => ⟨?_, runCompiler_accounted hreap rounds limit compiler source s⟩⟩
  · have hsame := follows_runPipeline h.recording_follows rounds limit t source (s, [])
    rw [hsame.result, map_relabeled_id]
  · have hsame := follows_runCompiler h.recording_follows rounds limit compiler source (s, [])
    rw [hsame.result, map_relabeled_id]

/-- A host on which the first child exits at once and the others run until they are killed. -/
def stubborn : Host Unit where
  now _ := (⟨0⟩, ())
  spawn launch _ := (.ok (launch.input.elim 0 (· + 1)), ())
  poll c _ := (.ok (if c = 0 then some (.exited 0) else none), ())
  kill _ _ := ()
  reap _ _ := (some (.signaled 9), ())
  drain _ _ _ := (.ok [], ())
  drainWithin _ _ _ _ := (.bytes [], ())
  sleep _ _ := ()

/-- A deadline that passes while the parser runs: the parser is killed, the lexer is not. -/
theorem stubborn_accounted :
    (∀ launch s c, (stubborn.spawn launch s).1 = .ok c → launch.input ≠ some c) ∧
    (∀ c s, (stubborn.reap c s).1 ≠ none) ∧
    let run := runPipeline stubborn.recording 1 (some ⟨0⟩)
      ⟨[], .ofProgram "lexer".toList, .ofProgram "parser".toList⟩ (.ofText "source".toList) ((), [])
    run.1 = some (.error (.timeout ⟨0⟩)) ∧
    run.2.2 = [.spawned 0, .spawned 1, .polled 0 (.ok (some (.exited 0))), .polled 1 (.ok none),
      .killed 1, .reaped 1 (some (.signaled 9))] ∧
    Accounted run.2.2 := by
  have hspawn : ∀ launch s c, (stubborn.spawn launch s).1 = .ok c → launch.input ≠ some c := by
    rintro ⟨_, _, _ | c⟩ s c' heq <;> cases heq
    · exact nofun
    · simp
  have hreap : ∀ c s, (stubborn.reap c s).1 ≠ none := fun c s => Option.some_ne_none _
  exact ⟨hspawn, hreap, rfl, rfl,
    ((children_accounted stubborn hspawn hreap 1 (some ⟨0⟩) (.ofText "source".toList) ()).1 _).2.1⟩

end Executor

end Conformance
