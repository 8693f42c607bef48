import Conformance.Pipeline.Executor

/-!
# Starting the children and waiting for them

Waiting as a relation on what the host answers, with no bound on the rounds: `Asked` for one child,
`Round` for one round of polling, `Waits` for all rounds.  The loop ends within some number of
rounds exactly if the relation has an end, and then with that one (`waitAll_iff`); more rounds
change nothing (`waitAll_mono`).  A run whose children are started waits for them, and all that it
does then is to `conclude`.
-/

namespace Conformance.Executor

variable {σ : Type} {h : Host σ} {d : Deadline}

/-! ## One child -/

/-- A child is asked whether it has exited, unless that is known. -/
inductive Asked (h : Host σ) (g : Guard) (s : σ) : Except PipelineError Guard → σ → Prop
  | known : g.status ≠ none → Asked h g s (.ok g) s
  | answer {status s'} : g.status = none → h.poll g.child s = (.ok status, s') →
      Asked h g s (.ok { g with status }) s'
  | fault {cause s'} : g.status = none → h.poll g.child s = (.error cause, s') →
      Asked h g s (.error (.collect g.stage cause)) s'

theorem poll_iff {g : Guard} {s s' : σ} {r : Except PipelineError Guard} :
    g.poll h s = (r, s') ↔ Asked h g s r s' := by
  unfold Guard.poll
  constructor
  · intro heq
    split at heq
    · next st hst =>
      obtain ⟨rfl, rfl⟩ := Prod.mk.inj heq
      exact .known (by rw [hst]; exact Option.some_ne_none st)
    · next hst =>
      split at heq <;> obtain ⟨rfl, rfl⟩ := Prod.mk.inj heq
      · next hpoll => exact .answer hst hpoll
      · next hpoll => exact .fault hst hpoll
  · intro hasked
    cases hasked with
    | known hst =>
      obtain ⟨st, hst⟩ := Option.ne_none_iff_exists'.mp hst
      rw [hst]
    | answer hst hpoll => rw [hst, hpoll]
    | fault hst hpoll => rw [hst, hpoll]

/-! ## One round -/

/-- The children are asked in order, up to the first whose answer is a fault. -/
inductive Round (h : Host σ) : List Guard → σ → Except PipelineError (List Guard) → σ → Prop
  | nil {s} : Round h [] s (.ok []) s
  | fault {g gs s e s'} : Asked h g s (.error e) s' → Round h (g :: gs) s (.error e) s'
  | cons {g g' gs gs' s s₁ s'} : Asked h g s (.ok g') s₁ → Round h gs s₁ (.ok gs') s' →
      Round h (g :: gs) s (.ok (g' :: gs')) s'
  | later {g g' gs s s₁ e s'} : Asked h g s (.ok g') s₁ → Round h gs s₁ (.error e) s' →
      Round h (g :: gs) s (.error e) s'

/-- What a round has found: the children, unless there was a fault. -/
def found : Option PipelineError × List Guard × σ → Except PipelineError (List Guard) × σ
  | (none, gs, s) => (.ok gs, s)
  | (some e, _, s) => (.error e, s)

theorem found_eq_ok {p : Option PipelineError × List Guard × σ} {gs : List Guard} {s : σ} :
    found p = (.ok gs, s) ↔ p = (none, gs, s) := by
  obtain ⟨_ | e, gs', s'⟩ := p <;> simp [found]

theorem found_eq_error {p : Option PipelineError × List Guard × σ} {e : PipelineError} {s : σ} :
    found p = (.error e, s) ↔ ∃ gs, p = (some e, gs, s) := by
  obtain ⟨_ | e', gs', s'⟩ := p <;> simp [found]

theorem pollAll_cons_error {g : Guard} {gs : List Guard} {s s' : σ} {e : PipelineError}
    (hpoll : g.poll h s = (.error e, s')) : pollAll h (g :: gs) s = (some e, g :: gs, s') := by
  rw [pollAll, hpoll]

theorem pollAll_cons_ok {g g' : Guard} {gs : List Guard} {s s' : σ}
    (hpoll : g.poll h s = (.ok g', s')) :
    pollAll h (g :: gs) s =
      ((pollAll h gs s').1, g' :: (pollAll h gs s').2.1, (pollAll h gs s').2.2) := by
  rw [pollAll, hpoll]

theorem found_pollAll {gs : List Guard} {s s' : σ} {r : Except PipelineError (List Guard)} :
    found (pollAll h gs s) = (r, s') ↔ Round h gs s r s' := by
  constructor
  · intro heq
    induction gs generalizing s r with
    | nil =>
      obtain ⟨rfl, rfl⟩ := Prod.mk.inj heq
      exact .nil
    | cons g gs ih =>
      rcases hpoll : g.poll h s with ⟨e | g', s₁⟩
      · rw [pollAll_cons_error hpoll] at heq
        obtain ⟨rfl, rfl⟩ := Prod.mk.inj heq
        exact .fault (poll_iff.mp hpoll)
      · rw [pollAll_cons_ok hpoll] at heq
        rcases hrest : pollAll h gs s₁ with ⟨_ | e, gs', s₂⟩ <;> rw [hrest] at heq
        · obtain ⟨rfl, rfl⟩ := Prod.mk.inj heq
          exact .cons (poll_iff.mp hpoll) (ih (found_eq_ok.mpr hrest))
        · obtain ⟨rfl, rfl⟩ := Prod.mk.inj heq
          exact .later (poll_iff.mp hpoll) (ih (found_eq_error.mpr ⟨_, hrest⟩))
  · intro hround
    induction hround with
    | nil => rfl
    | fault hasked => rw [pollAll_cons_error (poll_iff.mpr hasked)]; rfl
    | cons hasked _ ih =>
      rw [pollAll_cons_ok (poll_iff.mpr hasked), found_eq_ok.mp ih]
      rfl
    | later hasked _ ih =>
      obtain ⟨gs', ih⟩ := found_eq_error.mp ih
      rw [pollAll_cons_ok (poll_iff.mpr hasked), ih]
      rfl

/-- A round keeps the children and their stages. -/
theorem Round.kept {gs gs' : List Guard} {s s' : σ} (hround : Round h gs s (.ok gs') s') :
    gs'.map (fun g => (g.child, g.stage)) = gs.map (fun g => (g.child, g.stage)) := by
  generalize hr : Except.ok gs' = r at hround
  induction hround generalizing gs' with
  | nil => cases hr; rfl
  | cons hasked _ ih =>
    cases hr
    rw [List.map_cons, List.map_cons, ih rfl]
    cases hasked <;> rfl
  | fault => cases hr
  | later => cases hr

/-! ## The time -/

/-- The time is up: there is a limit, and the clock shows that it is used up. -/
inductive Expired (h : Host σ) (d : Deadline) (s : σ) : Duration → σ → Prop
  | intro {limit now s'} : d.limit = some limit → h.now s = (now, s') →
      limit.nanos ≤ now.nanos - d.start.nanos → Expired h d s limit s'

/-- The time is not up: there is no limit, or the clock shows that some of it is left. -/
inductive InTime (h : Host σ) (d : Deadline) (s : σ) : σ → Prop
  | unlimited : d.limit = none → InTime h d s s
  | within {limit now s'} : d.limit = some limit → h.now s = (now, s') →
      now.nanos - d.start.nanos < limit.nanos → InTime h d s s'

theorem expired_eq_true {s s' : σ} :
    d.expired h s = (true, s') ↔ ∃ limit, Expired h d s limit s' := by
  unfold Deadline.expired Deadline.remaining
  constructor
  · intro heq
    rcases hlimit : d.limit with _ | limit <;> rw [hlimit] at heq
    · exact nomatch heq
    · obtain ⟨hle, rfl⟩ := Prod.mk.inj heq
      exact ⟨limit, hlimit, rfl, by simpa [Duration.minus, Nat.sub_eq_zero_iff_le] using hle⟩
  · rintro ⟨limit, hlimit, hnow, hle⟩
    rw [hlimit]
    simp [hnow, Duration.minus, Nat.sub_eq_zero_of_le hle]

theorem expired_eq_false {s s' : σ} : d.expired h s = (false, s') ↔ InTime h d s s' := by
  unfold Deadline.expired Deadline.remaining
  constructor
  · intro heq
    rcases hlimit : d.limit with _ | limit <;> rw [hlimit] at heq
    · obtain ⟨-, rfl⟩ := Prod.mk.inj heq
      exact .unlimited hlimit
    · obtain ⟨hle, rfl⟩ := Prod.mk.inj heq
      refine .within hlimit rfl ?_
      simpa [Duration.minus, Nat.sub_eq_zero_iff_le] using hle
  · intro hin
    cases hin with
    | unlimited hlimit => rw [hlimit]; rfl
    | within hlimit hnow hlt =>
      rw [hlimit]
      simp [hnow, Duration.minus, Nat.sub_ne_zero_of_lt hlt]

/-! ## All rounds -/

/-- Rounds of polling, until one has a fault, finds that all children have exited, or finds one
running when the time is up. -/
inductive Waits (h : Host σ) (d : Deadline) :
    List Guard → σ → Except PipelineError (List Guard × σ) → Prop
  | fault {gs s e s'} : Round h gs s (.error e) s' → Waits h d gs s (.error e)
  | exited {gs s gs' s'} : Round h gs s (.ok gs') s' → (∀ g ∈ gs', g.status ≠ none) →
      Waits h d gs s (.ok (gs', s'))
  | late {gs s gs' s₁ limit s'} : Round h gs s (.ok gs') s₁ → (∃ g ∈ gs', g.status = none) →
      Expired h d s₁ limit s' → Waits h d gs s (.error (.timeout limit))
  | again {gs s gs' s₁ s₂ r} : Round h gs s (.ok gs') s₁ → (∃ g ∈ gs', g.status = none) →
      InTime h d s₁ s₂ → Waits h d gs' (h.sleep pollInterval s₂) r → Waits h d gs s r

/-- How waiting has ended, if it has: with the children that have exited, or with an error. -/
def ended : Waited × List Guard × σ → Option (Except PipelineError (List Guard × σ))
  | (.finished, gs, s) => some (.ok (gs, s))
  | (.failed e, _, _) => some (.error e)
  | (.unsettled, _, _) => none

theorem ended_eq_ok {w : Waited × List Guard × σ} {gs : List Guard} {s : σ} :
    ended w = some (.ok (gs, s)) ↔ w = (.finished, gs, s) := by
  obtain ⟨_ | e | _, gs', s'⟩ := w <;> simp [ended]

theorem ended_eq_error {w : Waited × List Guard × σ} {e : PipelineError} :
    ended w = some (.error e) ↔ ∃ gs s, w = (.failed e, gs, s) := by
  obtain ⟨_ | e | _, gs', s'⟩ := w <;> simp [ended]

theorem all_exited_iff {gs : List Guard} :
    gs.all (·.status.isSome) = true ↔ ∀ g ∈ gs, g.status ≠ none := by
  simp [Option.isSome_iff_ne_none]

theorem not_all_exited_iff {gs : List Guard} :
    gs.all (·.status.isSome) = false ↔ ∃ g ∈ gs, g.status = none := by
  simp

section Step

variable {n : Nat} {gs gs' : List Guard} {s s₁ s₂ : σ}

theorem waitAll_fault {e : PipelineError} (hround : Round h gs s (.error e) s₁) :
    ended (waitAll h d (n + 1) gs s) = some (.error e) := by
  obtain ⟨gs', hpoll⟩ := found_eq_error.mp (found_pollAll.mpr hround)
  rw [waitAll, hpoll]
  rfl

theorem waitAll_exited (hround : Round h gs s (.ok gs') s₁) (hall : ∀ g ∈ gs', g.status ≠ none) :
    waitAll h d (n + 1) gs s = (.finished, gs', s₁) := by
  rw [waitAll, found_eq_ok.mp (found_pollAll.mpr hround)]
  simp only [all_exited_iff.mpr hall, if_true]

theorem waitAll_late {limit : Duration} (hround : Round h gs s (.ok gs') s₁)
    (hrunning : ∃ g ∈ gs', g.status = none) (hexpired : Expired h d s₁ limit s₂) :
    waitAll h d (n + 1) gs s =
      (.failed (.timeout limit), (killAll h gs' s₂).1, (killAll h gs' s₂).2) := by
  rw [waitAll, found_eq_ok.mp (found_pollAll.mpr hround)]
  have herror : d.error = .timeout limit := by
    obtain ⟨hlimit, -, -⟩ := hexpired
    rw [Deadline.error, hlimit]
    rfl
  simp [not_all_exited_iff.mpr hrunning, expired_eq_true.mpr ⟨limit, hexpired⟩, herror]

theorem waitAll_again (hround : Round h gs s (.ok gs') s₁)
    (hrunning : ∃ g ∈ gs', g.status = none) (hin : InTime h d s₁ s₂) :
    waitAll h d (n + 1) gs s = waitAll h d n gs' (h.sleep pollInterval s₂) := by
  rw [waitAll, found_eq_ok.mp (found_pollAll.mpr hround)]
  simp [not_all_exited_iff.mpr hrunning, expired_eq_false.mpr hin]

end Step

/-- How a round goes on. -/
inductive Turn (h : Host σ) (d : Deadline) (gs : List Guard) (s : σ) : Prop
  | fault {e s₁} : Round h gs s (.error e) s₁ → Turn h d gs s
  | exited {gs' s₁} : Round h gs s (.ok gs') s₁ → (∀ g ∈ gs', g.status ≠ none) → Turn h d gs s
  | late {gs' s₁ limit s₂} : Round h gs s (.ok gs') s₁ → (∃ g ∈ gs', g.status = none) →
      Expired h d s₁ limit s₂ → Turn h d gs s
  | again {gs' s₁ s₂} : Round h gs s (.ok gs') s₁ → (∃ g ∈ gs', g.status = none) →
      InTime h d s₁ s₂ → Turn h d gs s

theorem turn (h : Host σ) (d : Deadline) (gs : List Guard) (s : σ) : Turn h d gs s := by
  rcases hround : found (pollAll h gs s) with ⟨e | gs', s₁⟩
  · exact .fault (found_pollAll.mp hround)
  · have hround := found_pollAll.mp hround
    cases hall : gs'.all (·.status.isSome) with
    | true => exact .exited hround (all_exited_iff.mp hall)
    | false =>
      have hrunning := not_all_exited_iff.mp hall
      rcases hexpired : d.expired h s₁ with ⟨_ | _, s₂⟩
      · exact .again hround hrunning (expired_eq_false.mp hexpired)
      · obtain ⟨limit, hexpired⟩ := expired_eq_true.mp hexpired
        exact .late hround hrunning hexpired

/-- Waiting that has ended ends in the same way if more rounds are allowed. -/
theorem waitAll_mono {n m : Nat} {gs : List Guard} {s : σ}
    (hended : (waitAll h d n gs s).1 ≠ .unsettled) (hle : n ≤ m) :
    waitAll h d m gs s = waitAll h d n gs s := by
  induction n generalizing m gs s with
  | zero => exact absurd rfl hended
  | succ n ih =>
    obtain ⟨m, rfl⟩ : ∃ k, m = k + 1 := ⟨m - 1, by omega⟩
    cases turn h d gs s with
    | fault hround =>
      obtain ⟨gs', hpoll⟩ := found_eq_error.mp (found_pollAll.mpr hround)
      rw [waitAll, waitAll, hpoll]
    | exited hround hall => rw [waitAll_exited hround hall, waitAll_exited hround hall]
    | late hround hrunning hexpired =>
      rw [waitAll_late hround hrunning hexpired, waitAll_late hround hrunning hexpired]
    | again hround hrunning hin =>
      rw [waitAll_again hround hrunning hin] at hended ⊢
      rw [waitAll_again hround hrunning hin]
      exact ih hended (by omega)

theorem waits_of_ended {n : Nat} {gs : List Guard} {s : σ}
    {r : Except PipelineError (List Guard × σ)} (hended : ended (waitAll h d n gs s) = some r) :
    Waits h d gs s r := by
  induction n generalizing gs s with
  | zero => exact nomatch hended
  | succ n ih =>
    cases turn h d gs s with
    | fault hround =>
      obtain rfl := Option.some.inj ((waitAll_fault hround).symm.trans hended)
      exact .fault hround
    | exited hround hall =>
      rw [waitAll_exited hround hall] at hended
      obtain rfl := Option.some.inj hended
      exact .exited hround hall
    | late hround hrunning hexpired =>
      rw [waitAll_late hround hrunning hexpired] at hended
      obtain rfl := Option.some.inj hended
      exact .late hround hrunning hexpired
    | again hround hrunning hin =>
      rw [waitAll_again hround hrunning hin] at hended
      exact .again hround hrunning hin (ih hended)

theorem ended_of_waits {gs : List Guard} {s : σ} {r : Except PipelineError (List Guard × σ)}
    (hwaits : Waits h d gs s r) : ∃ n, ended (waitAll h d n gs s) = some r := by
  induction hwaits with
  | fault hround => exact ⟨1, waitAll_fault hround⟩
  | exited hround hall => exact ⟨1, by rw [waitAll_exited hround hall]; rfl⟩
  | late hround hrunning hexpired =>
    exact ⟨1, by rw [waitAll_late hround hrunning hexpired]; rfl⟩
  | again hround hrunning hin _ ih =>
    obtain ⟨n, hn⟩ := ih
    exact ⟨n + 1, by rw [waitAll_again hround hrunning hin, hn]⟩

theorem waitAll_iff {gs : List Guard} {s : σ} {r : Except PipelineError (List Guard × σ)} :
    (∃ n, ended (waitAll h d n gs s) = some r) ↔ Waits h d gs s r :=
  ⟨fun ⟨_, hn⟩ => waits_of_ended hn, ended_of_waits⟩

/-- Waiting that finds all children exited keeps them and their stages. -/
theorem Waits.exited_children {gs gs' : List Guard} {s s' : σ}
    (hwaits : Waits h d gs s (.ok (gs', s'))) :
    gs'.map (fun g => (g.child, g.stage)) = gs.map (fun g => (g.child, g.stage)) ∧
      ∀ g ∈ gs', g.status ≠ none := by
  generalize hr : Except.ok (gs', s') = r at hwaits
  induction hwaits with
  | fault => cases hr
  | exited hround hall =>
    cases hr
    exact ⟨hround.kept, hall⟩
  | late => cases hr
  | again hround _ _ _ ih =>
    obtain ⟨hkept, hall⟩ := ih hr
    exact ⟨hkept.trans hround.kept, hall⟩

/-- The child with the status that it has exited with. -/
def Guard.exited (g : Guard) (st : ExitStatus) : Guard := { g with status := some st }

theorem Waits.exited_eq {gs gs' : List Guard} {s s' : σ}
    (hwaits : Waits h d gs s (.ok (gs', s'))) :
    ∃ sts, sts.length = gs.length ∧ gs' = List.zipWith Guard.exited gs sts := by
  obtain ⟨hkept, hall⟩ := hwaits.exited_children
  clear hwaits
  induction gs' generalizing gs with
  | nil =>
    obtain rfl := List.map_eq_nil_iff.mp hkept.symm
    exact ⟨[], rfl, rfl⟩
  | cons g' gs' ih =>
    obtain ⟨g, gs, rfl, hg, hgs⟩ := List.map_eq_cons_iff.mp hkept.symm
    obtain ⟨sts, hlength, rfl⟩ := ih hgs.symm fun g hg => hall g (.tail _ hg)
    obtain ⟨st, hst⟩ := Option.ne_none_iff_exists'.mp (hall g' (.head _))
    have heq : g' = g.exited st := by
      obtain ⟨c, stage, status⟩ := g'
      simp_all [Guard.exited]
    exact ⟨st :: sts, by simp [hlength], by rw [heq, List.zipWith_cons_cons]⟩

/-! ## Runs -/

/-- How the lexer of a pipeline is started. -/
def lexerLaunch (t : Toolchain) (source : Path) : Launch :=
  ⟨(t.lexer.command (some source)).1, (t.lexer.command (some source)).2, none⟩

/-- How the parser of a pipeline is started. -/
def parserLaunch (t : Toolchain) (lexer : Child) : Launch :=
  ⟨(t.parser.command none).1, (t.parser.command none).2, some lexer⟩

/-- How a compiler is started. -/
def compilerLaunch (compiler : Invocation) (source : Path) : Launch :=
  ⟨(compiler.command (some source)).1, (compiler.command (some source)).2, none⟩

/-- Both stages of a pipeline are started. -/
inductive Launched (h : Host σ) (t : Toolchain) (source : Path) (s : σ) : Child → Child → σ → Prop
  | intro {lexer parser s₁ s₂} : h.spawn (lexerLaunch t source) s = (.ok lexer, s₁) →
      h.spawn (parserLaunch t lexer) s₁ = (.ok parser, s₂) → Launched h t source s lexer parser s₂

/-- What is done when waiting has ended: the outputs are collected if all children have exited,
and the children are let go. -/
def conclude (h : Host σ)
    (finish : List Guard → σ → Option (Except PipelineError CapturedRun) × σ) :
    Waited × List Guard × σ → Option (Except PipelineError CapturedRun) × σ
  | (.finished, gs, s) => ((finish gs s).1, release h gs (finish gs s).2)
  | (.failed e, gs, s) => (some (.error e), release h gs s)
  | (.unsettled, gs, s) => (none, release h gs s)

/-- A run that has a result has not stopped in the middle of waiting. -/
theorem settled_of_conclude
    {finish : List Guard → σ → Option (Except PipelineError CapturedRun) × σ}
    {w : Waited × List Guard × σ} (hsome : (conclude h finish w).1 ≠ none) :
    w.1 ≠ .unsettled := by
  obtain ⟨w, gs, s⟩ := w
  rintro rfl
  exact hsome rfl

/-- The outputs of a pipeline: those of its parser, once the lexer has closed its error output. -/
def finishPipeline (h : Host σ) (d : Deadline) :
    List Guard → σ → Option (Except PipelineError CapturedRun) × σ
  | [lexer, parser], s =>
    match collect h d lexer .stderr s with
    | (.error e, s) => (some (.error e), s)
    | (.ok _, s) => (capture h d parser (some lexer) s).map some id
  | _, s => (none, s)

/-- The outputs of a compiler. -/
def finishCompiler (h : Host σ) (d : Deadline) :
    List Guard → σ → Option (Except PipelineError CapturedRun) × σ
  | [guard], s => (capture h d guard none s).map some id
  | _, s => (none, s)

section Run

variable {n : Nat} {limit : Option Duration} {t : Toolchain} {source : Path} {start : Duration}
  {s s₀ : σ} (hnow : h.now s = (start, s₀))

include hnow

theorem runPipeline_lexerFault {cause : SystemFault} {s₁ : σ}
    (hlexer : h.spawn (lexerLaunch t source) s₀ = (.error cause, s₁)) :
    runPipeline h n limit t source s = (some (.error (.launch .lexer cause)), s₁) := by
  unfold lexerLaunch at hlexer
  simp only [runPipeline, hnow, hlexer]

theorem runPipeline_parserFault {lexer : Child} {cause : SystemFault} {s₁ s₂ : σ}
    (hlexer : h.spawn (lexerLaunch t source) s₀ = (.ok lexer, s₁))
    (hparser : h.spawn (parserLaunch t lexer) s₁ = (.error cause, s₂)) :
    runPipeline h n limit t source s =
      (some (.error (.launch .parser cause)), release h [⟨lexer, .lexer, none⟩] s₂) := by
  unfold lexerLaunch at hlexer
  unfold parserLaunch at hparser
  simp only [runPipeline, hnow, hlexer, hparser]

theorem runPipeline_launched {lexer parser : Child} {s₂ : σ}
    (hlaunched : Launched h t source s₀ lexer parser s₂) :
    runPipeline h n limit t source s =
      conclude h (finishPipeline h ⟨start, limit⟩)
        (waitAll h ⟨start, limit⟩ n [⟨lexer, .lexer, none⟩, ⟨parser, .parser, none⟩] s₂) := by
  obtain ⟨hlexer, hparser⟩ := hlaunched
  unfold lexerLaunch at hlexer
  unfold parserLaunch at hparser
  simp only [runPipeline, hnow, hlexer, hparser]
  rcases waitAll h ⟨start, limit⟩ n _ s₂ with ⟨_ | e | _, gs, s₃⟩
  · rcases gs with _ | ⟨a, _ | ⟨b, _ | ⟨c, gs⟩⟩⟩
    · rfl
    · rfl
    · simp only [conclude, finishPipeline]
      rcases collect h ⟨start, limit⟩ a .stderr s₃ with ⟨e | bytes, s₄⟩ <;> rfl
    · rfl
  · rfl
  · rfl

theorem runCompiler_fault {compiler : Invocation} {cause : SystemFault} {s₁ : σ}
    (hspawn : h.spawn (compilerLaunch compiler source) s₀ = (.error cause, s₁)) :
    runCompiler h n limit compiler source s = (some (.error (.launch .compiler cause)), s₁) := by
  unfold compilerLaunch at hspawn
  simp only [runCompiler, hnow, hspawn]

theorem runCompiler_launched {compiler : Invocation} {child : Child} {s₁ : σ}
    (hspawn : h.spawn (compilerLaunch compiler source) s₀ = (.ok child, s₁)) :
    runCompiler h n limit compiler source s =
      conclude h (finishCompiler h ⟨start, limit⟩)
        (waitAll h ⟨start, limit⟩ n [⟨child, .compiler, none⟩] s₁) := by
  unfold compilerLaunch at hspawn
  simp only [runCompiler, hnow, hspawn]
  rcases waitAll h ⟨start, limit⟩ n _ s₁ with ⟨_ | e | _, gs, s₂⟩
  · rcases gs with _ | ⟨a, _ | ⟨b, gs⟩⟩ <;> rfl
  · rfl
  · rfl

end Run

end Conformance.Executor
