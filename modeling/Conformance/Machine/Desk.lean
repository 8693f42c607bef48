import Conformance.Machine.Programs
import Conformance.Session.Hosted

/-!
# A machine as a host

The requests of the executor carried out on a machine.  A child is known by its process number.
The standard output of a child goes to a pipe until it is known who reads it: another child, or the
executor, which reads all that comes as soon as it comes.
-/

namespace Conformance.Machine

/-- The outputs of a child: the pipe of its standard output, while it is not known who reads it, and
the collectors of both outputs. -/
structure Outputs where
  child : Child
  pipe : Option Nat
  out : Nat
  err : Nat

/-- What collects an output. -/
def Outputs.collector (o : Outputs) : Channel → Nat
  | .stdout => o.out
  | .stderr => o.err

/-- A machine with the children that were started on it. -/
structure Desk where
  kernel : Kernel
  outputs : List Outputs

namespace Desk

/-- The time that it takes to start a process. -/
def spawnCost : Nat := 1000000

/-- The time after which a new process makes its first call. -/
def startCost : Nat := 1000000

/-- The time between two looks at an output that is still open. -/
def drainStep : Nat := 1000000

/-- A desk over a file tree on which nothing runs. -/
def ofFiles (files : FileSystem) : Desk :=
  { kernel :=
      { files, processes := [], pipes := #[], opened := #[], collected := #[], held := none
        clock := 0, nextId := 100 }
    outputs := [] }

/-- Lets time pass. -/
def elapse (nanos : Nat) (d : Desk) : Desk :=
  { d with kernel := d.kernel.elapse Programs.load nanos }

/-- The outputs of a child. -/
def outputs? (d : Desk) (child : Child) : Option Outputs :=
  d.outputs.find? (·.child == child)

/-- From now on the executor reads the standard outputs that no child reads. -/
def settle (d : Desk) : Desk :=
  d.outputs.foldl (fun d o =>
    match o.pipe with
    | none => d
    | some n =>
      let k := d.kernel
      let waiting := match k.pipes[n]? with
        | some p => (p.take p.size).1
        | none => .empty
      let opened := k.opened.map fun t =>
        match t with
        | .writer i => if i = n then .collector o.out else t
        | t => t
      { kernel :=
          { k with
            opened, held := none, pipes := k.pipes.set! n .empty
            collected := k.collected.modify o.out (waiting :: ·) }.stir
        outputs := d.outputs.map fun q =>
          if q.child = o.child then { q with pipe := none } else q }) d

/-- Starts a process with its outputs. -/
def start (d : Desk) (script : Script) (input : Option Child) : Child × Desk :=
  let k := d.kernel
  let source := (input.bind d.outputs?).bind (·.pipe)
  let (k, stdin) := k.addOpened (match source with
    | some n => .reader n
    | none => .null)
  let (k, pipe) := k.addPipe
  let (k, out) := k.addCollector
  let (k, err) := k.addCollector
  let (k, stdout) := k.addOpened (.writer pipe)
  let (k, stderr) := k.addOpened (.collector err)
  let id := k.nextId
  let p : Process :=
    { id, parent := 0, script, directory := k.files.workingDirectory
      files := [(0, stdin), (1, stdout), (2, stderr)], wake := k.clock + startCost
      blocked := false, stopped := false, ended := none, reactions := [], noted := [] }
  let outputs := d.outputs.map fun o =>
    if some o.child = input then { o with pipe := none } else o
  (id,
    { kernel := { k with processes := k.processes ++ [p], nextId := id + 1, held := some pipe }
      outputs := ⟨id, some pipe, out, err⟩ :: outputs })

/-- Starts the process of a launch. -/
def spawn (l : Launch) (d : Desk) : Except SystemFault Child × Desk :=
  if !(l.program :: l.args).all Invocation.passable then (.error .nulCharacter, d)
  else
    let args := (l.program :: l.args).map Word.ofName
    let env := Programs.environment
    let d := d.elapse spawnCost
    match Programs.launch d.kernel.files args env false .noSuchFile
        (Search.candidates env (Word.ofName l.program)) with
    | .error e => (.error e, d)
    | .ok script =>
      let (id, d) := d.start script l.input
      (.ok id, d)

/-- How a child ended, if it has. -/
def ended? (d : Desk) (child : Child) : Option ExitStatus :=
  (d.kernel.processes.find? (·.id == child)).bind (·.ended)

/-- Forgets a child that has ended. -/
def forget (child : Child) (d : Desk) : Desk := { d with kernel := d.kernel.forget child }

/-- Whether a child has ended. -/
def poll (child : Child) (d : Desk) : Option ExitStatus × Desk :=
  let d := d.settle
  match d.ended? child with
  | some status => (some status, d.forget child)
  | none => (none, d)

/-- Waits for a child to end. -/
def reap (child : Child) : Nat → Desk → Option ExitStatus × Desk
  | 0, d => (none, d)
  | fuel + 1, d =>
    match d.ended? child with
    | some status => (some status, d.forget child)
    | none =>
      if d.kernel.processes.any (·.id == child) then reap child fuel (d.elapse drainStep)
      else (none, d)

/-- What has come from an output. -/
def gathered (collector : Nat) (d : Desk) : List UInt8 :=
  ((d.kernel.collected[collector]?).getD []).reverse.flatMap ByteArray.toList

/-- Waits for an output to be closed. -/
def drain (collector : Nat) : Nat → Desk → List UInt8 × Desk
  | 0, d => (d.gathered collector, d)
  | fuel + 1, d =>
    if d.kernel.feedsCollector collector then drain collector fuel (d.elapse drainStep)
    else (d.gathered collector, d)

/-- Waits for an output to be closed, no longer than the time that is left. -/
def drainWithin (collector left : Nat) : Nat → Desk → Drained × Desk
  | 0, d => (.late, d)
  | fuel + 1, d =>
    if d.kernel.feedsCollector collector then
      match left with
      | 0 => (.late, d)
      | n + 1 =>
        let step := min drainStep (n + 1)
        drainWithin collector (n + 1 - step) fuel (d.elapse step)
    else (.bytes (d.gathered collector), d)

/-- The number of looks after which an output that stays open is given up. -/
def patience : Nat := 1000000000

/-- The requests of the executor on a machine. -/
def host : Host Desk where
  now d := (⟨d.kernel.clock⟩, d)
  spawn := spawn
  poll child d :=
    let (status, d) := d.poll child
    (.ok status, d)
  kill child d := { d with kernel := d.kernel.deliver child 9 }
  reap child d := d.reap child patience
  drain child channel d :=
    match d.outputs? child with
    | none => (.ok [], d)
    | some o =>
      let (content, d) := d.drain (o.collector channel) patience
      (.ok content, d)
  drainWithin child channel left d :=
    match d.outputs? child with
    | none => (.bytes [], d)
    | some o => d.drainWithin (o.collector channel) left.nanos patience
  sleep interval d := d.elapse interval.nanos

/-- The number of rounds of polling for which a run is followed. -/
def rounds : Nat := 1000000000

/-- Carries out the runs of a session on a machine. -/
def runner : Runner (Option Desk) := host.runner rounds

end Desk

end Conformance.Machine
