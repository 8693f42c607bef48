import Conformance.Pipeline.Host

/-!
# Running a pipeline

The executor starts the stages of a pipeline, polls them until all have exited or the time is up,
and then collects what the last stage wrote.  Every child that it starts is killed and reaped on
every way out, unless it has been seen to exit.
-/

namespace Conformance

/-- An executor: it gives up on a run that takes longer than its timeout, if it has one. -/
structure Executor where
  timeout : Option Duration
  deriving DecidableEq, Repr

namespace Executor

/-- The executor that waits for as long as a run takes. -/
def patient : Executor := ⟨none⟩

/-- The executor with a timeout. -/
def withTimeout (e : Executor) (limit : Duration) : Executor := { e with timeout := some limit }

variable {σ : Type}

/-- The time between two rounds of polling. -/
def pollInterval : Duration := ⟨20000000⟩

/-- A child with its stage and, once it is known, how it ended. -/
structure Guard where
  child : Child
  stage : Stage
  status : Option ExitStatus
  deriving DecidableEq, Repr

/-- The time at which a run was started, and how long it may take. -/
structure Deadline where
  start : Duration
  limit : Option Duration
  deriving DecidableEq, Repr

namespace Deadline

/-- The time left, if there is a limit; only then the clock is read. -/
def remaining (h : Host σ) (d : Deadline) (s : σ) : Option Duration × σ :=
  match d.limit with
  | none => (none, s)
  | some limit =>
    let (now, s) := h.now s
    (some (limit.minus ⟨now.nanos - d.start.nanos⟩), s)

/-- Whether the time is up. -/
def expired (h : Host σ) (d : Deadline) (s : σ) : Bool × σ :=
  let (left, s) := d.remaining h s
  (left == some ⟨0⟩, s)

/-- The error of a run whose time is up. -/
def error (d : Deadline) : PipelineError := .timeout (d.limit.getD ⟨0⟩)

end Deadline

namespace Guard

/-- Asks whether the child has exited, unless that is known already. -/
def poll (h : Host σ) (g : Guard) (s : σ) : Except PipelineError Guard × σ :=
  match g.status with
  | some _ => (.ok g, s)
  | none =>
    match h.poll g.child s with
    | (.ok status, s) => (.ok { g with status := status }, s)
    | (.error cause, s) => (.error (.collect g.stage cause), s)

/-- Kills and reaps the child, unless it is known to have exited, and notes how it ended. -/
def kill (h : Host σ) (g : Guard) (s : σ) : Guard × σ :=
  match g.status with
  | some _ => (g, s)
  | none =>
    let (status, s) := h.reap g.child (h.kill g.child s)
    ({ g with status := status }, s)

end Guard

/-- Asks all children in order, up to the first whose answer is a fault. -/
def pollAll (h : Host σ) : List Guard → σ → Option PipelineError × List Guard × σ
  | [], s => (none, [], s)
  | g :: gs, s =>
    match g.poll h s with
    | (.error e, s) => (some e, g :: gs, s)
    | (.ok g, s) =>
      let (e, gs, s) := pollAll h gs s
      (e, g :: gs, s)

/-- Kills and reaps all children that are not known to have exited. -/
def killAll (h : Host σ) : List Guard → σ → List Guard × σ
  | [], s => ([], s)
  | g :: gs, s =>
    let (g, s) := g.kill h s
    let (gs, s) := killAll h gs s
    (g :: gs, s)

/-- Lets go of children: those not known to have exited are killed and reaped. -/
def release (h : Host σ) (gs : List Guard) (s : σ) : σ := (killAll h gs s).2

/-- How waiting for the children ends. -/
inductive Waited
  | finished
  | failed (error : PipelineError)
  | unsettled
  deriving DecidableEq, Repr

/-- Polls all children in rounds until each has exited.  A round that finds one still running when
the time is up kills them all.  Waiting is unsettled if it has not ended after `rounds` rounds. -/
def waitAll (h : Host σ) (d : Deadline) : Nat → List Guard → σ → Waited × List Guard × σ
  | 0, gs, s => (.unsettled, gs, s)
  | rounds + 1, gs, s =>
    match pollAll h gs s with
    | (some e, gs, s) => (.failed e, gs, s)
    | (none, gs, s) =>
      if gs.all (·.status.isSome) then (.finished, gs, s)
      else
        let (expired, s) := d.expired h s
        if expired then
          let (gs, s) := killAll h gs s
          (.failed d.error, gs, s)
        else waitAll h d rounds gs (h.sleep pollInterval s)

/-- The bytes of an output, waiting for them no longer than the deadline if there is one. -/
def collect (h : Host σ) (d : Deadline) (g : Guard) (channel : Channel) (s : σ) :
    Except PipelineError (List UInt8) × σ :=
  match d.remaining h s with
  | (none, s) =>
    match h.drain g.child channel s with
    | (.ok content, s) => (.ok content, s)
    | (.error cause, s) => (.error (.collect g.stage cause), s)
  | (some left, s) =>
    match h.drainWithin g.child channel left s with
    | (.bytes content, s) => (.ok content, s)
    | (.fault cause, s) => (.error (.collect g.stage cause), s)
    | (.late, s) => (.error d.error, s)

/-- The lines of an output. -/
def collectLines (h : Host σ) (d : Deadline) (g : Guard) (channel : Channel) (s : σ) :
    Except PipelineError (List Text) × σ :=
  match collect h d g channel s with
  | (.error e, s) => (.error e, s)
  | (.ok content, s) => (decodeLines g.stage channel content, s)

/-- The captured output of the last stage, the standard output first. -/
def capture (h : Host σ) (d : Deadline) (last : Guard) (lexer : Option Guard) (s : σ) :
    Except PipelineError CapturedRun × σ :=
  match collectLines h d last .stdout s with
  | (.error e, s) => (.error e, s)
  | (.ok stdout, s) =>
    match collectLines h d last .stderr s with
    | (.error e, s) => (.error e, s)
    | (.ok stderr, s) =>
      let (now, s) := h.now s
      (.ok
        { stdout, stderr
          status := last.status.getD (.exited 0)
          lexerStatus := lexer.bind (·.status)
          elapsed := ⟨now.nanos - d.start.nanos⟩ }, s)

/-- Runs `lexer source | parser`.  Nothing is answered if waiting is unsettled after `rounds`
rounds. -/
def runPipeline (h : Host σ) (rounds : Nat) (limit : Option Duration) (t : Toolchain)
    (source : Path) (s : σ) : Option (Except PipelineError CapturedRun) × σ :=
  let (start, s) := h.now s
  let d : Deadline := ⟨start, limit⟩
  let (program, args) := t.lexer.command (some source)
  match h.spawn ⟨program, args, none⟩ s with
  | (.error cause, s) => (some (.error (.launch .lexer cause)), s)
  | (.ok lexer, s) =>
    let lexer : Guard := ⟨lexer, .lexer, none⟩
    let (program, args) := t.parser.command none
    match h.spawn ⟨program, args, some lexer.child⟩ s with
    | (.error cause, s) => (some (.error (.launch .parser cause)), release h [lexer] s)
    | (.ok parser, s) =>
      let parser : Guard := ⟨parser, .parser, none⟩
      match waitAll h d rounds [lexer, parser] s with
      | (.finished, [lexer, parser], s) =>
        match collect h d lexer .stderr s with
        | (.error e, s) => (some (.error e), release h [lexer, parser] s)
        | (.ok _, s) =>
          let (result, s) := capture h d parser (some lexer) s
          (some result, release h [lexer, parser] s)
      | (.failed e, gs, s) => (some (.error e), release h gs s)
      | (_, gs, s) => (none, release h gs s)

/-- Runs `compiler source`.  Nothing is answered if waiting is unsettled after `rounds` rounds. -/
def runCompiler (h : Host σ) (rounds : Nat) (limit : Option Duration) (compiler : Invocation)
    (source : Path) (s : σ) : Option (Except PipelineError CapturedRun) × σ :=
  let (start, s) := h.now s
  let d : Deadline := ⟨start, limit⟩
  let (program, args) := compiler.command (some source)
  match h.spawn ⟨program, args, none⟩ s with
  | (.error cause, s) => (some (.error (.launch .compiler cause)), s)
  | (.ok child, s) =>
    match waitAll h d rounds [⟨child, .compiler, none⟩] s with
    | (.finished, [guard], s) =>
      let (result, s) := capture h d guard none s
      (some result, release h [guard] s)
    | (.failed e, gs, s) => (some (.error e), release h gs s)
    | (_, gs, s) => (none, release h gs s)

end Executor

end Conformance
