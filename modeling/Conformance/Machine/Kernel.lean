import Conformance.Machine.Process

/-!
# The kernel

A machine is a file tree with processes on it.  Its clock counts nanoseconds.  The process whose
turn comes first makes its next call, which takes some time; a call that has to wait for another
process is tried again whenever something has happened.
-/

namespace Conformance.Machine

/-- How a program is started: the file tree, its path, its arguments, its environment. -/
abbrev Loader := FileSystem → Path → List Word → Environment → Except SystemFault Script

/-- The state of a machine. -/
structure Kernel where
  files : FileSystem
  processes : List Process
  pipes : Array Pipe
  opened : Array Target
  /-- What was written to each collector, last first. -/
  collected : Array (List ByteArray)
  /-- The pipe whose reading end is kept outside. -/
  held : Option Nat
  clock : Nat
  nextId : Nat

namespace Kernel

/-! ## Costs, in nanoseconds -/

def callCost : Nat := 2000
def forkCost : Nat := 150000
def loadCost : Nat := 400000

/-- The cost of moving bytes. -/
def transferCost (bytes : ByteArray) : Nat := callCost + 100 * bytes.size

/-- The cost of a read. -/
def readCost : Except SystemFault ByteArray → Nat
  | .ok bytes => transferCost bytes
  | .error _ => callCost

/-! ## Looking -/

/-- What a number stands for in a process. -/
def target? (k : Kernel) (p : Process) (number : Nat) : Option Target :=
  (p.file? number).bind fun i => k.opened[i]?

/-- Whether some process has an open file with a property. -/
def anyOpen (k : Kernel) (f : Target → Bool) : Bool :=
  k.processes.any fun p => p.files.any fun (_, i) => (k.opened[i]?).any f

/-- Whether a pipe can be read from. -/
def hasReader (k : Kernel) (pipe : Nat) : Bool :=
  k.held == some pipe || k.anyOpen fun
    | .reader n => n == pipe
    | _ => false

/-- Whether a pipe can be written to. -/
def hasWriter (k : Kernel) (pipe : Nat) : Bool :=
  k.anyOpen fun
    | .writer n => n == pipe
    | _ => false

/-- Whether a collector can be written to. -/
def feedsCollector (k : Kernel) (number : Nat) : Bool :=
  k.anyOpen fun
    | .collector n => n == number
    | _ => false

/-- The file tree as a process sees it. -/
def view (k : Kernel) (p : Process) : FileSystem := { k.files with workingDirectory := p.directory }

/-- The content of the regular file at a place. -/
def contentAt (k : Kernel) (place : List Name) : ByteArray :=
  match k.files.root.at? place with
  | some (.file content _) => content
  | _ => .empty

/-! ## Changing -/

/-- Writes a process back. -/
def setProcess (k : Kernel) (p : Process) : Kernel :=
  { k with processes := k.processes.map fun q => if q.id = p.id then p else q }

/-- Something has happened: calls that were waiting are tried again. -/
def stir (k : Kernel) : Kernel :=
  { k with
    processes := k.processes.map fun p =>
      if p.blocked then { p with blocked := false, wake := max p.wake k.clock } else p }

/-- The process goes on with a script after its call. -/
def resume (k : Kernel) (p : Process) (script : Script) (cost : Nat) : Kernel :=
  (k.setProcess { p with script, wake := k.clock + cost }).stir

/-- The process has to wait. -/
def block (k : Kernel) (p : Process) : Kernel := k.setProcess { p with blocked := true }

/-- A new open file. -/
def addOpened (k : Kernel) (t : Target) : Kernel × Nat :=
  ({ k with opened := k.opened.push t }, k.opened.size)

/-- A new pipe. -/
def addPipe (k : Kernel) : Kernel × Nat :=
  ({ k with pipes := k.pipes.push .empty }, k.pipes.size)

/-- A new collector. -/
def addCollector (k : Kernel) : Kernel × Nat :=
  ({ k with collected := k.collected.push [] }, k.collected.size)

/-- The process has ended: its files are closed, its children have no parent any more, and the
ended ones among them are forgotten. -/
def finish (k : Kernel) (p : Process) (status : ExitStatus) : Kernel :=
  let ended := { p with files := [], ended := some status, blocked := false, stopped := false }
  let processes := (k.setProcess ended).processes.map fun q =>
    if q.parent = p.id then { q with parent := 1 } else q
  { k with processes := processes.filter fun q => !(q.parent == 1 && q.ended.isSome) }.stir

/-- Forgets an ended process. -/
def forget (k : Kernel) (id : Nat) : Kernel :=
  { k with processes := k.processes.filter (·.id != id) }

/-! ## Signals -/

/-- What a signal does to a process that does not handle it. -/
inductive SignalEffect
  | ends
  | stops
  | continues
  | nothing

/-- The effects of the signals. -/
def signalEffect (number : Nat) : SignalEffect :=
  if number ∈ [0, 17, 23, 28] then .nothing
  else if number = 18 then .continues
  else if number ∈ [19, 20, 21, 22] then .stops
  else .ends

/-- Sends a signal to a process. -/
def deliver (k : Kernel) (id number : Nat) : Kernel :=
  match k.processes.find? (·.id == id) with
  | none => k
  | some p =>
    if p.ended.isSome then k
    else
      match if number = 9 ∨ number = 19 then .usual else p.reaction number with
      | .ignored => k
      | .noted =>
        (k.setProcess { p with noted := if number ∈ p.noted then p.noted else number :: p.noted }).stir
      | .usual =>
        match signalEffect number with
        | .nothing => k
        | .continues => (k.setProcess { p with stopped := false }).stir
        | .stops => k.setProcess { p with stopped := true }
        | .ends => k.finish p (.signaled number)

/-! ## Reading and writing -/

/-- Reads from what a number stands for; with `line`, up to the next line feed.  Nothing is
answered if the reader has to wait. -/
def readFrom (k : Kernel) (p : Process) (number limit : Nat) (line : Bool) :
    Option (Except SystemFault ByteArray) × Kernel :=
  match p.file? number with
  | none => (some (.error (.code 9)), k)
  | some i =>
    match k.opened[i]? with
    | none | some (.writer _) | some (.collector _) => (some (.error (.code 9)), k)
    | some .null => (some (.ok .empty), k)
    | some .zero => (some (.ok ⟨(List.replicate (if line then 1 else limit) 0).toArray⟩), k)
    | some .directory => (some (.error .isDirectory), k)
    | some (.file place offset mode) =>
      if mode = .read ∨ mode = .update then
        let content := k.contentAt place
        let count := if line then lineLength content offset else limit
        let taken := content.extract offset (offset + count)
        (some (.ok taken),
          { k with opened := k.opened.set! i (.file place (offset + taken.size) mode) })
      else (some (.error (.code 9)), k)
    | some (.reader n) =>
      match k.pipes[n]? with
      | none => (some (.error (.code 9)), k)
      | some pipe =>
        if pipe.size = 0 then if k.hasWriter n then (none, k) else (some (.ok .empty), k)
        else
          let count := if line then lineLength pipe.content pipe.start else limit
          let (taken, pipe) := pipe.take count
          (some (.ok taken), { k with pipes := k.pipes.set! n pipe })

/-- What comes of a write. -/
inductive Written
  | done
  | fault (cause : SystemFault)
  | broken
  /-- The writer has to wait with the rest of the bytes. -/
  | partly (rest : ByteArray)

/-- Writes to what a number stands for. -/
def writeTo (k : Kernel) (p : Process) (number : Nat) (bytes : ByteArray) : Written × Kernel :=
  match p.file? number with
  | none => (.fault (.code 9), k)
  | some i =>
    match k.opened[i]? with
    | none | some (.reader _) | some .directory => (.fault (.code 9), k)
    | some .null | some .zero => (.done, k)
    | some (.collector n) => (.done, { k with collected := k.collected.modify n (bytes :: ·) })
    | some (.file place offset mode) =>
      if mode = .read then (.fault (.code 9), k)
      else
        let content := k.contentAt place
        let start := if mode = .append then content.size else offset
        let stop := start + bytes.size
        let next := content.extract 0 start ++ bytes ++ content.extract stop content.size
        let executable :=
          match k.files.root.at? place with
          | some (.file _ x) => x
          | _ => false
        (.done,
          { k with
            files := { k.files with root := k.files.root.put place (.file next executable) }
            opened := k.opened.set! i (.file place stop mode) })
    | some (.writer n) =>
      if bytes.isEmpty then (.done, k)
      else if !k.hasReader n then (.broken, k)
      else
        match k.pipes[n]? with
        | none => (.fault (.code 9), k)
        | some pipe =>
          let space := Pipe.capacity - pipe.size
          if bytes.size ≤ space then (.done, { k with pipes := k.pipes.set! n (pipe.add bytes) })
          else if space = 0 ∨ bytes.size ≤ Pipe.atomicLimit then (.partly bytes, k)
          else
            (.partly (bytes.extract space bytes.size),
              { k with pipes := k.pipes.set! n (pipe.add (bytes.extract 0 space)) })

/-- What comes of opening a file. -/
inductive Opened
  | target (t : Target) (root : Node)
  | fault (cause : SystemFault)
  /-- A named pipe without a partner: the process has to wait. -/
  | waits

/-- Opens a file for a process. -/
def openTarget (k : Kernel) (p : Process) (path : Path) (mode : OpenMode) : Opened :=
  let root := k.files.root
  match (k.view p).resolve path true with
  | .ok (place, node) =>
    match node with
    | .directory .. => if mode = .read then .target .directory root else .fault .isDirectory
    | .device .null => .target .null root
    | .device .zero => .target .zero root
    | .device (.descriptor n) =>
      match k.target? p n with
      | some t => .target t root
      | none => .fault .noSuchFile
    | .file _ executable =>
      .target (.file place 0 mode)
        (if mode = .write then root.put place (.file .empty executable) else root)
    | .program _ => .target (.file place 0 mode) root
    | .fifo => .waits
    | .link _ => .fault .noSuchFile
  | .error e =>
    if mode = .read ∨ e ≠ .noSuchFile ∨ path.bytes.isEmpty then .fault e
    else
      let start := if path.isAbsolute then [] else p.directory
      let names := FileSystem.steps path
      if path.bytes.getLast? = some Path.separator then
        match FileSystem.newPlace root FileSystem.linkLimit start names.dropLast with
        | .ok _ => .fault .isDirectory
        | .error e => .fault e
      else
        match FileSystem.newPlace root FileSystem.linkLimit start names with
        | .ok place => .target (.file place 0 mode) (root.put place (.file .empty false))
        | .error e => .fault e

/-! ## Changing the file tree -/

/-- The directory in which a path names an entry: its place, its entries and the name. -/
def entryOf (k : Kernel) (p : Process) (path : Path) :
    Except SystemFault (List Name × Entries × Name) :=
  if path.bytes.isEmpty then .error .noSuchFile
  else
    let bytes := (path.bytes.reverse.dropWhile (· = Path.separator)).reverse
    let names := FileSystem.steps ⟨if bytes.isEmpty then path.bytes else bytes⟩
    let start := if path.isAbsolute then [] else p.directory
    match FileSystem.follow k.files.root true FileSystem.linkLimit start names.dropLast with
    | .error e => .error e
    | .ok (place, .directory _ es) =>
      match names.getLast? with
      | none => .error .fileExists
      | some name =>
        if FileSystem.nameLimit < name.length then .error .nameTooLong
        else .ok (place, es, name)
    | .ok _ => .error .notDirectory

/-- The file tree with a new node, if its name is free. -/
def placed (k : Kernel) (p : Process) (path : Path) (n : Node) : Except SystemFault Node := do
  let (place, es, name) ← k.entryOf p path
  if (es.find? name).isSome ∨ name ∈ [[], Name.current, Name.parent] then .error .fileExists
  else .ok (k.files.root.put (place ++ [name]) n)

/-- The file tree after a change. -/
def changed (k : Kernel) (p : Process) : Change → Except SystemFault Node
  | .makeDirectory path => k.placed p path (.directory .full .nil)
  | .makeFifo path => k.placed p path .fifo
  | .link target path => k.placed p path (.link target)
  | .remove path => do
    let (place, es, name) ← k.entryOf p path
    match es.find? name with
    | none => .error .noSuchFile
    | some (.directory ..) => .error .isDirectory
    | some _ => .ok (k.files.root.erase (place ++ [name]))
  | .removeDirectory path => do
    let (place, es, name) ← k.entryOf p path
    if name = [] ∨ name = Name.current then .error (.code 22)
    else
      match es.find? name with
      | none => .error .noSuchFile
      | some (.directory _ .nil) => .ok (k.files.root.erase (place ++ [name]))
      | some (.directory ..) => .error (.code 39)
      | some _ => .error .notDirectory
  | .rename source path keep => do
    let (here, es, name) ← k.entryOf p source
    let (there, others, new) ← k.entryOf p path
    match es.find? name, others.find? new with
    | none, _ => .error .noSuchFile
    | some n, old =>
      let root := if keep then k.files.root else k.files.root.erase (here ++ [name])
      let done := root.put (there ++ [new]) n
      if here ++ [name] = there ++ [new] then .ok k.files.root
      else
        match n, old with
        | _, some _ => if keep then .error .fileExists else
          match n, old with
          | .directory .., some (.directory _ .nil) => .ok done
          | .directory .., some (.directory ..) => .error (.code 39)
          | .directory .., some _ => .error .notDirectory
          | _, some (.directory ..) => .error .isDirectory
          | _, _ => .ok done
        | .directory .., none =>
          if keep then .error (.code 1)
          else if (here ++ [name]).isPrefixOf there then .error (.code 22)
          else .ok done
        | _, none => .ok done
  | .permit path executable => do
    match ← (k.view p).resolve path true with
    | (place, .file content _) => .ok (k.files.root.put place (.file content executable))
    | _ => .ok k.files.root
  | .resize path size => do
    match ← (k.view p).resolve path true with
    | (place, .file content executable) =>
      let kept := content.extract 0 size
      let filled := kept ++ ⟨(List.replicate (size - kept.size) 0).toArray⟩
      .ok (k.files.root.put place (.file filled executable))
    | _ => .error (.code 22)

/-! ## Calls -/

/-- Lets a process make its next call. -/
def call (load : Loader) (k : Kernel) (p : Process) : Kernel :=
  match p.script with
  | .exit code => k.finish p (.exited (code % 256))
  | .compute next => k.setProcess { p with script := next (), wake := k.clock + callCost }
  | .sleep nanos next =>
    k.setProcess { p with script := next (), wake := k.clock + nanos + callCost }
  | .identity next => k.resume p (next (p.id, p.parent)) callCost
  | .read file limit next =>
    match k.readFrom p file limit false with
    | (none, k) => k.block p
    | (some r, k) => k.resume p (next r) (readCost r)
  | .readLine file next =>
    match k.readFrom p file 0 true with
    | (none, k) => k.block p
    | (some r, k) => k.resume p (next r) (readCost r)
  | .write file content next =>
    match k.writeTo p file content with
    | (.done, k) => k.resume p (next (.ok ())) (transferCost content)
    | (.fault e, k) => k.resume p (next (.error e)) callCost
    | (.broken, k) =>
      if p.reaction 13 = .usual then k.finish p (.signaled 13)
      else (k.resume p (next (.error (.code 32))) callCost).deliver p.id 13
    | (.partly rest, k) =>
      if rest.size = content.size then k.block p
      else
        k.resume p (.write file rest next) (transferCost content - transferCost rest)
  | .openFile path mode next =>
    match k.openTarget p path mode with
    | .fault e => k.resume p (next (.error e)) callCost
    | .waits => k.block p
    | .target t root =>
      let (k, i) := { k with files := { k.files with root } }.addOpened t
      let number := p.freeFrom 0
      k.resume (p.assign number i) (next (.ok number)) callCost
  | .close file next => k.resume (p.release file) (next ()) callCost
  | .duplicate source target next =>
    match p.file? source with
    | none => k.resume p (next (.error (.code 9))) callCost
    | some i => k.resume (p.assign target i) (next (.ok ())) callCost
  | .duplicateFrom source least next =>
    match p.file? source with
    | none => k.resume p (next (.error (.code 9))) callCost
    | some i =>
      let number := p.freeFrom least
      k.resume (p.assign number i) (next (.ok number)) callCost
  | .kindOf file next =>
    let kind := (k.target? p file).map fun t =>
      match t with
      | .null | .zero => FileKind.device
      | .reader _ | .writer _ | .collector _ => .pipe
      | .file place _ _ => .regular place (k.contentAt place).size
      | .directory => .directory
    k.resume p (next kind) callCost
  | .pipe next =>
    let (k, n) := k.addPipe
    let (k, r) := k.addOpened (.reader n)
    let (k, w) := k.addOpened (.writer n)
    let reading := p.freeFrom 0
    let p := p.assign reading r
    let writing := p.freeFrom 0
    k.resume (p.assign writing w) (next (reading, writing)) callCost
  | .fork child next =>
    let id := k.nextId
    let new : Process :=
      { id, parent := p.id, script := child, directory := p.directory, files := p.files
        wake := k.clock + forkCost, blocked := false, stopped := false, ended := none
        reactions := p.reactions, noted := [] }
    let k := { k with processes := k.processes ++ [new], nextId := id + 1 }
    k.resume p (next id) callCost
  | .execute program args env next =>
    match load (k.view p) program args env with
    | .error e => k.resume p (next e) callCost
    | .ok script =>
      let reactions := p.reactions.filter (·.2 = .ignored)
      k.resume { p with files := p.files.filter (·.1 < 10), reactions, noted := [] } script loadCost
  | .wait child waiting next =>
    match k.processes.find? fun q => q.id == child && q.parent == p.id with
    | none => k.resume p (next .noChild) callCost
    | some q =>
      match q.ended with
      | none =>
        match waiting, p.noted.getLast? with
        | .notAtAll, _ => k.resume p (next .running) callCost
        | .untilSignal, some n => k.resume p (next (.interrupted n)) callCost
        | _, _ => k.block p
      | some status => (k.forget child).resume p (next (.ended status)) callCost
  | .arrange number reaction next =>
    let reactions := (number, reaction) :: p.reactions.filter (·.1 != number)
    k.resume { p with reactions } (next ()) callCost
  | .takeNoted next => k.resume { p with noted := [] } (next p.noted.reverse) callCost
  | .change request next =>
    match k.changed p request with
    | .error e => k.resume p (next (.error e)) callCost
    | .ok root => { k with files := { k.files with root } }.resume p (next (.ok ())) callCost
  | .signal target number next =>
    let known := k.processes.any (·.id == target)
    (k.resume p (next known) callCost).deliver target number
  | .locate path followLast next =>
    k.resume p (next ((k.view p).resolve path followLast)) callCost
  | .enter path next =>
    match (k.view p).resolve path true with
    | .error e => k.resume p (next (.error e)) callCost
    | .ok (place, .directory ..) =>
      k.resume { p with directory := place } (next (.ok place)) callCost
    | .ok _ => k.resume p (next (.error .notDirectory)) callCost

/-- The process whose turn comes first, if it comes by the time `limit`. -/
def nextProcess (k : Kernel) (limit : Nat) : Option Process :=
  k.processes.foldl (fun best p =>
    if p.runnable && p.wake ≤ limit then
      match best with
      | some b => if p.wake < b.wake then some p else best
      | none => some p
    else best) none

/-- Lets the processes run until a time, for at most `fuel` calls. -/
def runUntil (load : Loader) (limit : Nat) : Nat → Kernel → Kernel
  | 0, k => k
  | fuel + 1, k =>
    match k.nextProcess limit with
    | none => { k with clock := max k.clock limit }
    | some p => runUntil load limit fuel (call load { k with clock := max k.clock p.wake } p)

/-- The number of calls for which a machine runs at most in one go. -/
def patience : Nat := 1000000000000

/-- Lets some time pass. -/
def elapse (load : Loader) (nanos : Nat) (k : Kernel) : Kernel :=
  k.runUntil load (k.clock + nanos) patience

end Kernel

end Conformance.Machine
