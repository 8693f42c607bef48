import Conformance.Machine.Search
import Conformance.Machine.Shell.Builtin.Basic
import Conformance.Machine.Tool.Paths
import Conformance.Machine.Tool.Permissions

/-!
# Flow, processes and directories

The commands of a shell that end functions and loops, deal with other processes and their signals,
and change the working directory.
-/

namespace Conformance.Machine.Shell.Builtin

open Routine

/-! ## Flow -/

/-- The status that a command is given as its operand. -/
def statusOperand (args : List Word) (s : State) : Option Nat :=
  match args[1]? with
  | none => some s.status
  | some w => smallNumber? w

/-- Ends the shell. -/
def exit : Builtin := fun args s =>
  match statusOperand args s with
  | some n => pure (s.withStatus (n % 256), .exit)
  | none => reject s (args.headD []) (illegalNumber (args.getD 1 []))

/-- Ends a function or a file of commands. -/
def giveBack : Builtin := fun args s =>
  match statusOperand args s with
  | some n => pure (s.withStatus (n % 256), .return)
  | none => reject s (args.headD []) (illegalNumber (args.getD 1 []))

/-- Leaves or begins anew as many loops as the operand says. -/
def jump (flow : Nat → Flow) : Builtin := fun args s =>
  match (args[1]?.map smallNumber?).getD (some 1) with
  | some (n + 1) =>
    let loops := min (n + 1) s.loops
    pure (s.withStatus 0, if loops = 0 then .next else flow loops)
  | _ => reject s (args.headD []) (illegalNumber (args.getD 1 []))

/-! ## Waiting -/

/-- Reports the end of a process by a signal. -/
def reportEnd (status : ExitStatus) : Routine Unit := do
  let n := status.signal
  if n ≠ 0 ∧ n ≠ 2 ∧ n ≠ 13 then putLine 2 (Signal.description n)

/-- Waits for a process; its end by a signal is reported. -/
def waitFor (id : Nat) : Routine Nat := do
  match ← Routine.wait id .untilEnd with
  | .ended status =>
    reportEnd status
    pure (Signal.exitCode status)
  | _ => pure 127

/-- Waits for processes; the exit code of the last one. -/
def waitForAll : List Nat → Nat → Routine Nat
  | [], code => pure code
  | id :: ids, _ => do waitForAll ids (← waitFor id)

/-- Waits in silence for commands in the background, until a signal is noted. -/
def waitSilently : List Job → State → Routine (State × Option Nat)
  | [], s => pure ({ s with jobs := s.jobs.map fun j => { j with spent := true } }, none)
  | j :: js, s => do
    match ← Routine.wait j.id .untilSignal with
    | .interrupted n => pure (s, some n)
    | .ended status => waitSilently js (s.endJob j.id status)
    | _ => waitSilently js s

/-- Learns which commands in the background have ended. -/
def learnEnds : List Job → State → Routine State
  | [], s => pure s
  | j :: js, s => do
    match ← Routine.wait j.id .notAtAll with
    | .ended status => learnEnds js (s.endJob j.id status)
    | _ => learnEnds js s

/-- The command in the background that a word names: the number behind a percent sign, or a sign
for the last one or the one before it. -/
def job? (s : State) (w : Word) : Option Job :=
  match w with
  | ['%'] | ['%', '%'] | ['%', '+'] => s.jobs[0]?
  | ['%', '-'] => s.jobs[1]?
  | '%' :: n => (Word.nat? n).bind fun n => s.jobs.find? (·.number == n)
  | _ => none

/-- The complaint about a word that names no command in the background. -/
def noJob (w : Word) : Word := Word.lit "No such job: " ++ w

/-- Waits for the processes or commands that words name; what is known of one that has ended stays
known. -/
def waitNamed : List Word → State → Nat → Routine (State × Flow)
  | [], s, code => finish s code
  | w :: rest, s, _ => do
    let fault :=
      if w.head? = some '%' then if (job? s w).isNone then some (noJob w) else none
      else if (smallNumber? w).isNone then some (illegalNumber w) else none
    let named := (job? s w).or (s.jobs.find? fun j => some j.id == Word.nat? w)
    match fault, named with
    | some m, _ => refuse s (Word.lit "wait") m 2
    | none, none => waitNamed rest s 127
    | none, some j =>
      let spend (s : State) : State :=
        { s with jobs := s.jobs.map fun k => if k.id = j.id then { k with spent := true } else k }
      match j.ended with
      | some status => waitNamed rest (spend s) (Signal.exitCode status)
      | none =>
        match ← Routine.wait j.id .untilSignal with
        | .interrupted n => finish s (128 + n)
        | .ended status =>
          reportEnd status
          waitNamed rest (spend (s.endJob j.id status)) (Signal.exitCode status)
        | _ => waitNamed rest s 127

/-- Waits for processes in the background. -/
def wait : Builtin := fun args s => do
  match args.tail with
  | [] =>
    match ← waitSilently (s.jobs.filter (·.ended.isNone)).reverse s with
    | (s, some n) => finish s (128 + n)
    | (s, none) => finish s 0
  | words => waitNamed words s 0

/-- What is said about a command in the background. -/
def jobState (j : Job) : Word :=
  match j.ended with
  | none => Word.lit "Running"
  | some status =>
    match status.code? with
    | some 0 => Word.lit "Done"
    | some n => Word.lit "Done(" ++ Word.ofNat n ++ [')']
    | none => Signal.description status.signal

/-- The line about a command in the background, `place` being its place in the list of them. -/
def jobLine (withId : Bool) (place : Nat) (j : Job) : Word :=
  let sign := if place = 0 then '+' else if place = 1 then '-' else ' '
  let id := if withId then Word.ofNat j.id ++ [' '] else []
  let front := '[' :: Word.ofNat j.number ++ [']', ' ', sign, ' '] ++ id ++ jobState j
  front ++ List.replicate (33 - front.length) ' ' ++ ['\n']

/-- Lists commands in the background and forgets those that have ended; a command behind one that
was forgotten moves up. -/
def listJobs (letters : Word) : List Job → State → Word → State × Word
  | [], s, out => (s, out)
  | j :: js, s, out =>
    let place := s.jobs.findIdx (·.id == j.id)
    let line :=
      if letters.getLast? = some 'p' then Word.ofNat j.id ++ ['\n']
      else jobLine (letters.getLast? = some 'l') place j
    let s := if j.ended.isSome then { s with jobs := s.jobs.filter (·.id != j.id) } else s
    listJobs letters js s (out ++ line)

/-- Lists the commands in the background. -/
def jobs : Builtin := fun args s => do
  let name := args.headD []
  match readLetters "lp" [] args.tail with
  | .error c => refuse s name (illegalOption c) 2
  | .ok (letters, operands) =>
    let s ← learnEnds (s.jobs.filter (·.ended.isNone)) s
    match operands.find? fun w => (job? s w).isNone with
    | some w => refuse s name (noJob w) 2
    | none =>
      let asked := if operands.isEmpty then s.jobs else operands.filterMap (job? s)
      let (s, out) := listJobs letters asked s []
      answer s name out 0

/-- Asks for a command in the foreground or the background: without terminals there is none. -/
def resume : Builtin := fun args s =>
  match args[1]? with
  | none => refuse s (args.headD []) (Word.lit "No current job") 2
  | some w => refuse s (args.headD []) (noJob w) 2

/-! ## Signals -/

/-- What `kill` is asked for. -/
inductive KillRequest
  | send (signal : Nat) (targets : List Word)
  | names (codes : List Word)
  | fault (message : Word)

/-- Reads the arguments of `kill`. -/
def killRequest (args : List Word) : KillRequest :=
  let named (w : Word) (targets : List Word) : KillRequest :=
    match Signal.number? w with
    | some n => .send n targets
    | none => .fault (illegalOption (w.headD '-'))
  match args with
  | ['-', 'l'] :: rest => .names rest
  | [['-', 's']] => .fault (Word.lit "No arg for -s option")
  | ['-', 's'] :: w :: targets =>
    match Signal.number? w with
    | some n => .send n targets
    | none => .fault (Word.lit "invalid signal number or name: " ++ w)
  | ('-' :: 's' :: w) :: targets =>
    match Signal.number? ('s' :: w), Signal.number? w with
    | some n, _ | none, some n => .send n targets
    | none, none => .fault (Word.lit "invalid signal number or name: " ++ w)
  | ['-', '-'] :: targets => .send 15 targets
  | ('-' :: c :: w) :: targets => named (c :: w) targets
  | targets => .send 15 targets

/-- Sends a signal to processes, with a message for each that there is none of. -/
def signalAll (say : Word → Routine Unit) (n : Nat) : List Nat → Nat → Routine Nat
  | [], code => pure code
  | pid :: pids, code => do
    if ← signal pid n then signalAll say n pids code
    else
      say (Word.lit "No such process")
      signalAll say n pids 1

/-- Writes the names of the signals that exit codes tell of. -/
def nameCodes (s : State) (name : Word) : List Word → Routine (State × Flow)
  | [] => finish s 0
  | w :: rest => do
    match smallNumber? w with
    | none => refuse s name (illegalNumber w) 2
    | some n =>
      match Signal.name? (if 128 < n then n - 128 else n) with
      | none => refuse s name (Word.lit "invalid signal number or exit status: " ++ w) 2
      | some signal =>
        putLine 1 signal
        nameCodes s name rest

/-- Sends a signal to processes. -/
def kill : Builtin := fun args s => do
  let name := Word.lit "kill"
  match killRequest args.tail with
  | .fault m => refuse s name m 2
  | .names [] => answer s name (['0', '\n'] ++ Signal.names.flatMap (· ++ ['\n'])) 0
  | .names codes => nameCodes s name codes
  | .send n targets =>
    if targets.isEmpty then refuse s name (Word.lit killUsage) 2
    else
      let plain (w : Word) : Word := if w.head? = some '-' then w.drop 1 else w
      let bad := targets.find? fun w =>
        if w.head? = some '%' then (job? s w).isNone else (smallNumber? (plain w)).isNone
      match bad with
      | some w =>
        refuse s name (if w.head? = some '%' then noJob w else illegalNumber (plain w)) 2
      | none =>
        let ids := targets.map fun w => (Word.nat? w).getD 0
        let code ← signalAll (fun m => report s (name ++ [':', ' '] ++ m ++ ['\n'])) n ids 0
        finish s code
where
  killUsage : String :=
    "Usage: kill [-s sigspec | -signum | -sigspec] [pid | job]... or\nkill -l [exitstatus]"

/-- What a process has to do about a signal so that an action can follow it. -/
def reactionTo (action : Word) : Reaction := if action.isEmpty then .ignored else .noted

/-- The lines that describe what is done about signals. -/
def trapLines (s : State) : Word :=
  let line (action : Word) (name : Word) : Word :=
    Word.lit "trap -- " ++ inQuotes action ++ ' ' :: name ++ ['\n']
  ((s.atExit.map fun a => line a (Word.lit "EXIT")).getD []) ++
    (s.traps.mergeSort fun a b => a.1 ≤ b.1).flatMap fun (n, a) =>
      line a ((Signal.name? n).getD (Word.ofNat n))

/-- Sets what is done about signals. -/
def trapAll (action : Option Word) : List Word → State → Nat → Routine (State × Flow)
  | [], s, code => finish s code
  | w :: rest, s, code => do
    match Signal.number? w with
    | none =>
      putLine 2 (Word.lit "trap: " ++ w ++ Word.lit ": bad trap")
      finish s 1
    | some 0 => trapAll action rest { s with atExit := action } code
    | some n =>
      arrange n ((action.map reactionTo).getD .usual)
      let others := s.traps.filter (·.1 != n)
      trapAll action rest { s with traps := (action.map (n, ·)).toList ++ others } code

/-- Remembers what is to be done about signals, and at the end of the shell. -/
def trap : Builtin := fun args s => do
  let name := args.headD []
  match readLetters "" [] args.tail with
  | .error c => reject s name (illegalOption c)
  | .ok (_, []) => answer s name (trapLines s) 0
  | .ok (_, [w]) => trapAll none [w] s 0
  | .ok (_, action :: names) =>
    if (Word.nat? action).any (· ≤ 64) then trapAll none (action :: names) s 0
    else if action = ['-'] then trapAll none names s 0
    else trapAll (some action) names s 0

/-! ## Limits and permissions -/

/-- Writes the time that was used: none. -/
def times : Builtin := fun args s =>
  answer s (args.headD []) (Word.lit "0m0.000000s 0m0.000000s\n0m0.000000s 0m0.000000s\n") 0

/-- The limits by letter, with what they are for and their values. -/
def limits : List (Char × String × String) :=
  [('t', "time(seconds)", "unlimited"), ('f', "file(blocks)", "unlimited"),
    ('d', "data(kbytes)", "unlimited"), ('s', "stack(kbytes)", "8192"),
    ('c', "coredump(blocks)", "0"), ('m', "memory(kbytes)", "unlimited"),
    ('l', "locked memory(kbytes)", "8192"), ('p', "process", "unlimited"),
    ('n', "nofiles", "1048576"), ('v', "vmemory(kbytes)", "unlimited"),
    ('w', "locks", "unlimited"), ('r', "rtprio", "0")]

/-- All limits, one a line. -/
def limitListing : Word :=
  limits.flatMap fun (_, what, value) =>
    what.toList ++ List.replicate (20 - what.length) ' ' ++ ' ' :: value.toList ++ ['\n']

/-- Writes a limit, or lets it be. -/
def ulimit : Builtin := fun args s =>
  let name := args.headD []
  match readLetters "HSatfdscmlpnvwr" [] args.tail with
  | .error c => refuse s name (illegalOption c) 2
  | .ok (letters, operands) =>
    if operands.isEmpty && letters.contains 'a' then answer s name limitListing 0
    else if operands.isEmpty then
      let asked := ((letters.filter (!"HSa".toList.contains ·)).getLast?).getD 'f'
      let value := ((limits.find? (·.1 == asked)).map (·.2.2)).getD "unlimited"
      answer s name (Word.lit value ++ ['\n']) 0
    else finish s 0

/-- Sets or writes the permissions that new files are not given. -/
def umask : Builtin := fun args s =>
  let name := args.headD []
  match readLetters "S" [] args.tail with
  | .error c => refuse s name (illegalOption c) 2
  | .ok (letters, []) =>
    if letters.isEmpty then
      let digits := Nat.toDigits 8 s.mask
      answer s name (List.replicate (4 - digits.length) '0' ++ digits ++ ['\n']) 0
    else answer s name (Permissions.symbols (511 - s.mask) ++ ['\n']) 0
  | .ok (_, w :: _) =>
    if w.head?.any Char.isDigit then
      match Permissions.octal? w with
      | some n => finish { s with mask := n % 512 } 0
      | none => refuse s name (illegalNumber w) 2
    else
      match Permissions.change? w (511 - s.mask) with
      | some n => finish { s with mask := 511 - n % 512 } 0
      | none => refuse s name (Word.lit "Illegal mode: " ++ w) 2

/-! ## Directories -/

/-- Changes the working directory. -/
def cd : Builtin := fun args s => do
  let name := args.headD []
  match readLetters "LP" [] args.tail with
  | .error c => refuse s name (illegalOption c) 2
  | .ok (letters, operands) =>
    let old := (s.value? (Word.lit "PWD")).getD []
    let (target, told) :=
      match operands with
      | [] => ((s.value? (Word.lit "HOME")).getD [], false)
      | ['-'] :: _ => ((s.value? (Word.lit "OLDPWD")).getD [], true)
      | w :: _ => (w, false)
    if target.isEmpty then finish s 0
    else
      let full := if target.head? = some '/' then target else old ++ '/' :: target
      let physical := letters.getLast? = some 'P'
      let path := if physical then target else Tool.plainPath full
      match ← enter (Word.toPath path) with
      | .ok place =>
        let new := if physical then Tool.placePath place else path
        let s := (s.assign (Word.lit "OLDPWD") old).publish (Word.lit "OLDPWD")
        let s := (s.assign (Word.lit "PWD") new).publish (Word.lit "PWD")
        if told then answer s name (new ++ ['\n']) 0 else finish s 0
      | .error _ => refuse s name (Word.lit "can't cd to " ++ target) 2

/-- Writes the path of the working directory. -/
def pwd : Builtin := fun args s => do
  let name := args.headD []
  match readLetters "LP" [] args.tail with
  | .error c => refuse s name (illegalOption c) 2
  | .ok (letters, _) =>
    if letters.getLast? = some 'P' then
      match ← enter ⟨Name.current⟩ with
      | .ok place => answer s name (Tool.placePath place ++ ['\n']) 0
      | .error e => refuse s name (Tool.reason e) 2
    else answer s name ((s.value? (Word.lit "PWD")).getD [] ++ ['\n']) 0

end Conformance.Machine.Shell.Builtin
