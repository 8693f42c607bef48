import Conformance.Machine.Shell.Builtin
import Conformance.Machine.Shell.Expansion
import Conformance.Machine.Shell.Reader

/-!
# Running shell programs

Commands are run one after another.  In a process that was started for a single command, as in a
pipeline, the command is not given a process of its own: the process becomes the program.
-/

namespace Conformance.Machine.Shell

open Routine

/-- What is known about the place of a command: whether the process ends with it, and whether its
status is only asked for. -/
structure Mode where
  ends : Bool
  asked : Bool
  deriving DecidableEq, Repr

namespace Mode

/-- A command with others behind it. -/
def inner (m : Mode) : Mode := ⟨false, m.asked⟩

/-- A command whose status is asked for. -/
def question : Mode := ⟨false, true⟩

end Mode

/-- The number of rounds for which a shell runs at most. -/
def patience : Nat := 1000000000000

/-- The least number under which a shell keeps files for itself. -/
def ownFiles : Nat := 10

/-! ## Redirections -/

/-- A file that was put aside: its number, and where it is now, if there was one. -/
structure Saved where
  number : Nat
  kept : Option Nat

/-- Puts the file of a number aside. -/
def putAside (number : Nat) : Routine Saved := do
  match ← duplicateFrom number ownFiles with
  | .ok kept => pure ⟨number, some kept⟩
  | .error _ => pure ⟨number, none⟩

/-- Takes back the files that were put aside, the last one first. -/
def takeBack : List Saved → Routine Unit
  | [] => pure ()
  | s :: rest => do
    match s.kept with
    | some kept =>
      let _ ← duplicate kept s.number
      close kept
    | none => close s.number
    takeBack rest

/-- Lets go of the files that were put aside. -/
def letGo : List Saved → Routine Unit
  | [] => pure ()
  | s :: rest => do
    match s.kept with
    | some kept => close kept
    | none => pure ()
    letGo rest

/-- Lets a number stand for a file. -/
def moveTo (file number : Nat) : Routine Unit := do
  if file ≠ number then
    let _ ← duplicate file number
    close file

/-- Attaches a text to a number: a pipe out of which it is read. -/
def attachText (number : Nat) (text : Word) : Routine Unit := do
  let (r, w) ← pipe
  if text.length ≤ blockSize then
    let _ ← put w text
    close w
  else
    let _ ← fork (Routine.script do
      close r
      let _ ← put w text
      pure 0)
    close w
  moveTo r number

/-- Attaches a file to a number; a message if that cannot be done.  With `kept`, a file that is
there is not written over. -/
def attach (kept : Bool) (r : Redirect) (target : Word) : Routine (Option Word) := do
  let openAs (mode : OpenMode) (problem missing : String) : Routine (Option Word) := do
    match ← openFile (Word.toPath target) mode with
    | .ok file =>
      moveTo file r.number
      pure none
    | .error e =>
      let reason :=
        if e = .noSuchFile ∨ e = .notDirectory then Word.lit missing else Tool.reason e
      pure (some (Word.lit problem ++ target ++ [':', ' '] ++ reason))
  match r.kind with
  | .here =>
    attachText r.number target
    pure none
  | .read => openAs .read "cannot open " "No such file"
  | .both => openAs .update "cannot create " "Directory nonexistent"
  | .write =>
    let old ← if kept then inspect (Word.toPath target) true else pure (.error .noSuchFile)
    match old with
    | .ok (.file ..) =>
      pure (some (Word.lit "cannot create " ++ target ++ Word.lit ": File exists"))
    | _ => openAs .write "cannot create " "Directory nonexistent"
  | .overwrite => openAs .write "cannot create " "Directory nonexistent"
  | .append => openAs .append "cannot create " "Directory nonexistent"
  | .duplicate =>
    if target = ['-'] then
      close r.number
      pure none
    else
      match ← duplicate ((Word.nat? target).getD 0) r.number with
      | .ok () => pure none
      | .error e => pure (some (target ++ [':', ' '] ++ Tool.reason e))

/-- Expands the words behind redirections; a number that is asked for has one digit. -/
def expandRedirects (substitute : Substitute) : List Redirect → List (Redirect × Word) → State →
    Routine (Expanded (List (Redirect × Word)))
  | [], done, s => pure (.ok (done.reverse, s))
  | r :: rest, done, s => do
    match ← expandWord substitute r.target s with
    | .error m => pure (.error m)
    | .ok (target, s) =>
      let numeral := target = ['-'] || (target.length = 1 && target.all Char.isDigit)
      if r.kind = .duplicate && !numeral then pure (.error (Word.lit "Syntax error: Bad fd number"))
      else expandRedirects substitute rest ((r, target) :: done) s

/-- Applies redirections in order; the files put aside, last first, and a message if one of them
cannot be applied. -/
def applyRedirects (kept : Bool) : List (Redirect × Word) → List Saved →
    Routine (List Saved × Option Word)
  | [], saved => pure (saved, none)
  | (r, target) :: rest, saved => do
    let aside ← putAside r.number
    match ← attach kept r target with
    | some m => pure (aside :: saved, some m)
    | none => applyRedirects kept rest (aside :: saved)

/-! ## Programs -/

/-- Becomes a program, or complains and says with which status the shell has to end; `say` writes
the message. -/
def become (s : State) (say : Word → Routine Unit) (args : List Word) : Routine Nat := do
  let env := s.environment
  let name := args.headD []
  let places := match s.value? (Word.lit "PATH") with
    | some path => (Word.lit "PATH", path) :: env
    | none => env
  let e ← Search.execute args env .noSuchFile (Search.candidates places name)
  let missing := e = .noSuchFile ∨ e = .notDirectory
  say (name ++ [':', ' '] ++ if missing then Word.lit "not found" else Tool.reason e)
  pure (if missing ∨ e = .nameTooLong ∨ e = .tooManyLinks then 127 else 126)

/-! ## Signals -/

/-- Signals that were noted by the shell do again in a child what they usually do. -/
def forgetTraps : List (Nat × Word) → Routine Unit
  | [] => pure ()
  | (n, action) :: rest => do
    if !action.isEmpty then arrange n .usual
    forgetTraps rest

/-- The state of a shell in the process of its own that it has just been given. -/
def enterChild (s : State) : Routine State := do
  forgetTraps s.traps
  pure s.inChild

/-! ## Tracing -/

/-- The words of a trace: the assignments and the arguments. -/
def traceText (assignments : List (Word × Word)) (args : List Word) : Word :=
  [' '].intercalate (assignments.map (fun (n, v) => n ++ '=' :: v) ++ args)

/-- The number under which a shell writes what it is about to do: the error output as it was before
redirections. -/
def traceFile (saved : List Saved) : Nat :=
  ((saved.reverse.find? (·.number == 2)).bind (·.kept)).getD 2

/-! ## Commands -/

/-- Tokens that are read again at a line. -/
def placedAt (line : Nat) (ts : List Placed) : List Placed :=
  ts.map fun t => { t with line := line + t.line - 1 }

/-- The first path of the search path that leads to a file of a name. -/
def fileInPath (s : State) (name : Word) : Routine (Option Word) :=
  go (Search.candidates [(Word.lit "PATH", (s.value? (Word.lit "PATH")).getD [])] name)
where
  /-- Goes through paths. -/
  go : List Word → Routine (Option Word)
  | [] => pure none
  | c :: cs => do
    match ← inspect (Word.toPath c) true with
    | .ok (.file ..) | .ok (.program _) => pure (some c)
    | _ => go cs

mutual

/-- Runs a command. -/
def run : Nat → Mode → Command → State → Routine (State × Flow)
  | 0, _, _, s => pure (s, .exit)
  | fuel + 1, m, c, s =>
    match c with
    | .nothing => pure (s, .next)
    | .simple c => do
      compute
      if s.has 'n' then pure (s, .next)
      else
        let (s, flow) ← runSimple fuel m c { s with line := c.line }
        conclude fuel m s flow
    | .negated c => do
      let (s, flow) ← run fuel .question c s
      if flow = .next then finish s (if s.status = 0 then 1 else 0) else pure (s, flow)
    | .both a b => do
      let (s, flow) ← run fuel .question a s
      if flow = .next && s.status = 0 then run fuel m b s else pure (s, flow)
    | .either a b => do
      let (s, flow) ← run fuel .question a s
      if flow = .next && s.status ≠ 0 then run fuel m b s else pure (s, flow)
    | .sequence a b => do
      let (s, flow) ← run fuel m.inner a s
      if flow = .next then run fuel m b s else pure (s, flow)
    | .branch condition yes no => do
      let (s, flow) ← run fuel .question condition s
      if flow ≠ .next then pure (s, flow)
      else if s.status = 0 then run fuel m yes s
      else
        match no with
        | some c => run fuel m c s
        | none => finish s 0
    | .loop reversed condition body => do
      let (after, flow) ←
        runLoop fuel m.inner reversed condition body 0 { s with loops := s.loops + 1 }
      pure ({ after with loops := s.loops }, flow)
    | .each line name items body => do
      let s := { s with line }
      match items with
      | none =>
        let (after, flow) ←
          runEach fuel m.inner name body s.positional 0 { s with loops := s.loops + 1 }
        pure ({ after with loops := s.loops }, flow)
      | some ps =>
        match ← expandWords (capture fuel) ps s with
        | .error message => abort s message
        | .ok (ws, s) =>
          let (after, flow) ← runEach fuel m.inner name body ws 0 { s with loops := s.loops + 1 }
          pure ({ after with loops := s.loops }, flow)
    | .select line subject clauses => do
      let s := { s with line }
      match ← expandWord (capture fuel) subject s with
      | .error message => abort s message
      | .ok (w, s) => runSelect fuel m w clauses s
    | .subshell body => do
      if m.ends then
        let s ← enterChild s
        run fuel m body s
      else
        let id ← fork (own fuel body s)
        let (s, flow) ← finish s.withPlace (← Builtin.waitFor id)
        conclude fuel m s flow
    | .background body => do
      let child : Script := Routine.script do
        close 0
        let _ ← openFile (.ofText "/dev/null".toList) .read
        let s ← enterChild s
        Routine.exit (← runOwn fuel body s)
      let id ← fork child
      finish (s.addJob id) 0
    | .pipeline parts => do
      let ids ← startPipeline fuel parts none s
      let (s, flow) ← finish s.withPlace (← Builtin.waitForAll ids 0)
      conclude fuel m s flow
    | .redirected line body redirects => do
      let s := { s with line }
      match ← expandRedirects (capture fuel) redirects [] s with
      | .error message => abort s message
      | .ok (targets, s) =>
        let (saved, problem) ← applyRedirects (s.has 'C') targets []
        match problem with
        | some message =>
          remark s message
          takeBack saved
          finish s 2
        | none =>
          let (s, flow) ← run fuel m.inner body s
          takeBack saved
          pure (s, flow)
    | .define name body =>
      finish { s with functions := (name, body) :: s.functions.filter (·.1 != name) } 0

/-- Ends a command: what is to be done about the signals that were noted is done, and a failure ends
the shell if it should. -/
def conclude : Nat → Mode → State → Flow → Routine (State × Flow)
  | 0, _, s, _ => pure (s, .exit)
  | fuel + 1, m, s, flow => do
    let (s, flow) ←
      if s.traps.any (fun (_, action) => !action.isEmpty) then do
        runActions fuel (← takeNoted) s flow
      else pure (s, flow)
    if s.has 'e' && s.status ≠ 0 && !m.asked && flow = .next then pure (s, .exit)
    else pure (s, flow)

/-- Does what is to be done about signals. -/
def runActions : Nat → List Nat → State → Flow → Routine (State × Flow)
  | 0, _, s, _ => pure (s, .exit)
  | _ + 1, [], s, flow => pure (s, flow)
  | fuel + 1, n :: rest, s, flow => do
    match s.action? n with
    | none => runActions fuel rest s flow
    | some source =>
      let (after, ending) ← runSource fuel ⟨false, false⟩ (tokens source) s
      if ending.ends then pure (after, ending)
      else runActions fuel rest (after.withStatus s.status) flow

/-- Runs a loop; `last` is the status of the round before. -/
def runLoop : Nat → Mode → Bool → Command → Command → Nat → State → Routine (State × Flow)
  | 0, _, _, _, _, _, s => pure (s, .exit)
  | fuel + 1, m, reversed, condition, body, last, s => do
    let (s, flow) ← run fuel .question condition s
    match flow with
    | .leave (n + 2) => pure (s, .leave (n + 1))
    | .leave _ => finish s last
    | .again (n + 2) => pure (s, .again (n + 1))
    | .again _ => runLoop fuel m reversed condition body last s
    | .return | .exit | .fault => pure (s, flow)
    | .next =>
      if (s.status = 0) = reversed then finish s last
      else
        let (s, flow) ← run fuel m body s
        match flow with
        | .leave (n + 2) => pure (s, .leave (n + 1))
        | .leave _ => pure (s, .next)
        | .again (n + 2) => pure (s, .again (n + 1))
        | .again _ | .next => runLoop fuel m reversed condition body s.status s
        | .return | .exit | .fault => pure (s, flow)

/-- Runs a command for each word. -/
def runEach : Nat → Mode → Word → Command → List Word → Nat → State → Routine (State × Flow)
  | 0, _, _, _, _, _, s => pure (s, .exit)
  | _ + 1, _, _, _, [], last, s => finish s last
  | fuel + 1, m, name, body, w :: ws, _, s => do
    compute
    if s.isFixed name then abort s (name ++ Word.lit ": is read only")
    else
      let (s, flow) ← run fuel m body (s.assign name w)
      match flow with
      | .leave (n + 2) => pure (s, .leave (n + 1))
      | .leave _ => pure (s, .next)
      | .again (n + 2) => pure (s, .again (n + 1))
      | .again _ | .next => runEach fuel m name body ws s.status s
      | .return | .exit | .fault => pure (s, flow)

/-- Runs the commands of the first clause whose pattern accepts a word. -/
def runSelect : Nat → Mode → Word → List (List Pieces × Option Command) → State →
    Routine (State × Flow)
  | 0, _, _, _, s => pure (s, .exit)
  | _ + 1, _, _, [], s => finish s 0
  | fuel + 1, m, w, (patterns, body) :: rest, s => do
    match ← anyAccepts fuel w patterns s with
    | .error message => abort s message
    | .ok (found, s) =>
      if found then
        match body with
        | some c => run fuel m c s
        | none => finish s 0
      else runSelect fuel m w rest s

/-- Whether one of some patterns accepts a word. -/
def anyAccepts : Nat → Word → List Pieces → State → Routine (Expanded Bool)
  | 0, _, _, s => pure (.ok (false, s))
  | _ + 1, _, [], s => pure (.ok (false, s))
  | fuel + 1, w, p :: ps, s => do
    match ← expandPattern (capture fuel) p s with
    | .error m => pure (.error m)
    | .ok (pattern, s) =>
      if pattern.accepts w then pure (.ok (true, s)) else anyAccepts fuel w ps s

/-- Starts the commands of a pipeline; their process numbers.  `input` is the reading end of the
pipe in front. -/
def startPipeline : Nat → List Command → Option Nat → State → Routine (List Nat)
  | 0, _, _, _ => pure []
  | _ + 1, [], _, _ => pure []
  | fuel + 1, c :: cs, input, s => do
    let ends ←
      if cs.isEmpty then pure none
      else do
        let e ← pipe
        pure (some e)
    let child : Script := Routine.script do
      match input with
      | some i => moveTo i 0
      | none => pure ()
      match ends with
      | some (r, w) =>
        close r
        moveTo w 1
      | none => pure ()
      let s ← enterChild s
      Routine.exit (← runOwn fuel c s)
    let id ← fork child
    match input with
    | some i => close i
    | none => pure ()
    match ends with
    | some (r, w) =>
      close w
      let rest ← startPipeline fuel cs (some r) s
      pure (id :: rest)
    | none => pure [id]

/-- Runs a command to the end of its shell; the exit code. -/
def runOwn : Nat → Command → State → Routine Nat
  | 0, _, _ => pure 0
  | fuel + 1, c, s => do
    let (s, _) ← run fuel ⟨!s.hasTraps, false⟩ c s
    leave fuel s

/-- What is done when a shell ends; its exit code. -/
def leave : Nat → State → Routine Nat
  | 0, s => pure s.status
  | fuel + 1, s => do
    match s.atExit with
    | none => pure s.status
    | some source =>
      let (after, flow) ← runSource fuel ⟨false, false⟩ (tokens source) { s with atExit := none }
      pure (if flow.ends then after.status else s.status)

/-- The future of a process that runs a command. -/
def own : Nat → Command → State → Script
  | 0, _, _ => .exit 0
  | fuel + 1, c, s => Routine.script do
    let s ← enterChild s
    Routine.exit (← runOwn fuel c s)

/-- Runs the commands of a program one after another. -/
def runSource : Nat → Mode → List Placed → State → Routine (State × Flow)
  | 0, _, _, s => pure (s, .exit)
  | fuel + 1, m, ts, s => do
    match nextCommandWith s.aliases ts with
    | .error f => abort { s with line := f.line } f.message
    | .ok none => pure (s, .next)
    | .ok (some c) =>
      let (s, flow) ←
        if s.has 'n' then pure (s, .next)
        else run fuel ⟨m.ends && c.last && !s.hasTraps, m.asked⟩ c.command s
      if flow = .next then runSource fuel m c.rest s else pure (s, flow)

/-- Runs a command substitution: the output of its commands. -/
def capture : Nat → Bool → Word → State → Routine (Word × State)
  | 0, _, _, s => pure ([], s)
  | fuel + 1, older, source, s => do
    let ts := if older then tokens source else placedAt s.line (tokens source)
    let (r, w) ← pipe
    let child : Script := Routine.script do
      close r
      moveTo w 1
      let s ← enterChild s
      let (s, _) ← runSource fuel ⟨true, false⟩ ts s
      Routine.exit (← leave fuel s)
    let id ← fork child
    close w
    let out ← Tool.readRest r rounds []
    close r
    let code ← Builtin.waitFor id
    let text :=
      match out with
      | .ok b => (Word.ofBytes b).filter (· ≠ '\x00')
      | .error _ => []
    pure (text, { s.withPlace with substituted := code })

/-- Expands the words of a simple command.  Operands that are assignments to a command which makes
them are not cut. -/
def expandCommand : Nat → List Pieces → State → Routine (Expanded (List Word))
  | 0, _, s => pure (.ok ([], s))
  | _ + 1, [], s => pure (.ok ([], s))
  | fuel + 1, p :: ps, s => do
    match ← expandWords (capture fuel) [p] s with
    | .error m => pure (.error m)
    | .ok (front, s) =>
      let rest ←
        if front.head?.any Builtin.isDeclaration then expandDeclarations (capture fuel) ps s
        else expandWords (capture fuel) ps s
      pure (rest.map fun (rest, s) => (front ++ rest, s))

/-- Runs a simple command. -/
def runSimple : Nat → Mode → SimpleCommand → State → Routine (State × Flow)
  | 0, _, _, s => pure (s, .exit)
  | fuel + 1, m, c, s => do
    match ← expandCommand fuel c.words { s with substituted := 0 } with
    | .error message => abort s message
    | .ok (args, s) =>
      match ← expandRedirects (capture fuel) c.redirects [] s with
      | .error message => abort s message
      | .ok (targets, s) =>
        let (saved, problem) ← applyRedirects (s.has 'C') targets []
        match problem with
        | some message =>
          remark s message
          takeBack saved
          pure (s.withStatus 2, if Builtin.isSpecial (args.headD []) then .fault else .next)
        | none => runPrepared fuel m args saved c.assignments s

/-- Runs a simple command whose redirections have been applied. -/
def runPrepared : Nat → Mode → List Word → List Saved → List (Word × Pieces) → State →
    Routine (State × Flow)
  | 0, _, _, _, _, s => pure (s, .exit)
  | fuel + 1, m, args, saved, assignments, s => do
    match ← assignAll fuel assignments [] s with
    | .error message => abort s message
    | .ok (values, assigned) =>
      if s.has 'x' && !(values.isEmpty && args.isEmpty) then
        let sign := (assigned.value? (Word.lit "PS4")).getD []
        match ← expandText fuel sign assigned with
        | .error _ => pure ()
        | .ok (sign, _) => putLine (traceFile saved) (sign ++ traceText values args)
      if args.headD [] = Word.lit "exec" then
        letGo saved
        runExec (args.drop 1) assigned
      else
        let (s, flow) ← runWords fuel m args (values.map (·.1)) s assigned
        takeBack saved
        pure (s, flow)

/-- Expands a text as if it stood in double quotes. -/
def expandText : Nat → Word → State → Routine (Expanded Word)
  | 0, w, s => pure (.ok (w, s))
  | fuel + 1, w, s =>
    match readPieces (isComplete substitutionDepth) (2 * w.length + 2) .here [] w with
    | .error m => pure (.error m)
    | .ok (pieces, _) => expandWord (capture fuel) pieces s

/-- Makes assignments in order; each sees the ones before it.  The values are given back. -/
def assignAll : Nat → List (Word × Pieces) → List (Word × Word) → State →
    Routine (Expanded (List (Word × Word)))
  | 0, _, done, s => pure (.ok (done, s))
  | _ + 1, [], done, s => pure (.ok (done, s))
  | fuel + 1, (n, p) :: rest, done, s => do
    match ← expandValue (capture fuel) p s with
    | .error m => pure (.error m)
    | .ok (v, s) =>
      if s.isFixed n then pure (.error (n ++ Word.lit ": is read only"))
      else assignAll fuel rest (done ++ [(n, v)]) (s.assign n v)

/-- Becomes the program that `exec` names, if it names one. -/
def runExec (args : List Word) (s : State) : Routine (State × Flow) := do
  let args := if args.head? = some ['-', '-'] then args.drop 1 else args
  if args.isEmpty then finish s s.substituted
  else
    let code ← become s (fun w => report s (Word.lit "exec: " ++ w)) args
    pure (s.withStatus code, .exit)

/-- Runs expanded words: a function, a command of the shell, or a program.  The assignments in
front of them, which set `names`, last no longer than the command, unless it is a special one. -/
def runWords : Nat → Mode → List Word → List Word → State → State → Routine (State × Flow)
  | 0, _, _, _, s, _ => pure (s, .exit)
  | fuel + 1, m, args, names, s, assigned => do
    match args with
    | [] => finish assigned assigned.substituted
    | name :: operands =>
      match s.functions.find? fun (n, _) => n == name with
      | some (_, body) =>
        let (after, flow) ← run fuel m.inner body (assigned.enterFunction operands)
        let after := State.restore names s (assigned.leaveFunction after)
        pure (after, if flow = .return then .next else flow)
      | none =>
        if name = Word.lit "eval" then runEval fuel m operands assigned
        else if name = ['.'] then runFile fuel operands assigned
        else if name = Word.lit "command" then
          let (after, flow) ← runCommand fuel m operands names s assigned
          pure (State.restore names s after, flow)
        else if name = Word.lit "type" then Builtin.type args s
        else if name = Word.lit "hash" then Builtin.hash args s
        else
          match Builtin.find? name with
          | some b =>
            let (after, flow) ← b args assigned
            pure (if Builtin.isSpecial name then after else State.restore names s after, flow)
          | none =>
            let published := names.foldl State.publish assigned
            if m.ends && !s.hasTraps then
              let code ← become published (remark s) args
              pure (s.withStatus code, .exit)
            else
              let id ← fork (Routine.script do
                forgetTraps s.traps
                become published (remark s) args)
              let code ← Builtin.waitFor id
              let s := State.restore names s assigned
              let found :=
                if code = 127 || name.contains '/' then s.found
                else s.found.filter (· ≠ name) ++ [name]
              finish { s.withPlace with found } code

/-- Runs `command`: a command without regard to functions, or what a name stands for. -/
def runCommand : Nat → Mode → List Word → List Word → State → State → Routine (State × Flow)
  | 0, _, _, _, s, _ => pure (s, .exit)
  | fuel + 1, m, operands, names, s, assigned => do
    match readLetters "pvV" [] operands with
    | .error c => refuse s (Word.lit "command") (illegalOption c) 2
    | .ok (letters, operands) =>
      if operands.isEmpty then finish assigned 0
      else if letters.contains 'V' then
        Builtin.describeAll (fun n m => m.sentence n) assigned (operands.take 1) 0
      else if letters.contains 'v' then
        Builtin.describeAll (fun n m => m.brief n) assigned (operands.take 1) 0
      else
        let bare (s : State) : State := { s with functions := [] }
        let (after, flow) ←
          if operands.headD [] = Word.lit "exec" then runExec operands.tail assigned
          else runWords fuel m operands names (bare s) (bare assigned)
        let kept := after.functions ++ s.functions.filter fun (n, _) =>
          !after.functions.any (·.1 == n)
        pure ({ after with functions := kept }, if flow = .fault then .next else flow)

/-- Runs the commands that operands hold. -/
def runEval : Nat → Mode → List Word → State → Routine (State × Flow)
  | 0, _, _, s => pure (s, .exit)
  | fuel + 1, m, operands, s => do
    let source := [' '].intercalate operands
    let start := { s with context := some (Word.lit "eval"), status := 0 }
    let (after, flow) ← runSource fuel m.inner (tokens source) start
    pure ({ after with context := s.context }, flow)

/-- Runs the commands of a file. -/
def runFile : Nat → List Word → State → Routine (State × Flow)
  | 0, _, s => pure (s, .exit)
  | fuel + 1, operands, s => do
    let name := operands.headD []
    let fail (m : Word) : Routine (State × Flow) := reject s ['.'] m
    if operands.isEmpty then finish s 0
    else
      let found ← if name.contains '/' then pure (some name) else fileInPath s name
      match found with
      | none => fail (name ++ Word.lit ": not found")
      | some path =>
        match ← openFile (Word.toPath path) .read with
        | .error _ => fail (Word.lit "cannot open " ++ path ++ Word.lit ": No such file")
        | .ok file =>
          let content ← Tool.readRest file rounds []
          close file
          match content with
          | .error e => fail (path ++ [':', ' '] ++ Tool.reason e)
          | .ok b =>
            let start := { s with context := some path, status := 0 }
            let (after, flow) ←
              runSource fuel ⟨false, false⟩ (tokens (Word.ofBytes b)) start
            pure ({ after with context := s.context }, if flow = .return then .next else flow)

end

/-! ## The shell as a program -/

/-- Runs a program of commands in a new shell. -/
def runProgram (source : Word) (s : State) : Routine Nat := do
  let (s, _) ← runSource patience ⟨false, false⟩ (tokens source) s
  leave patience s

/-- What the arguments of a shell ask for: options, whether commands are given as an argument, and
the operands. -/
structure Options where
  options : List Char
  text : Bool
  operands : List Word

/-- Reads the options in front of the operands; one that is not known is given back. -/
def readOptions : Nat → Options → Except Word Options
  | 0, o => .ok o
  | fuel + 1, o =>
    match o.operands with
    | ['-', '-'] :: rest | ['-'] :: rest => .ok { o with operands := rest }
    | (sign :: c :: cs) :: rest =>
      if sign ≠ '-' && sign ≠ '+' then .ok o
      else
        let letters := c :: cs
        let known := State.optionNames.filterMap (·.2)
        match letters.find? fun c => c ≠ 'c' && c ≠ 'o' && c ≠ 'l' && !known.contains c with
        | some c => .error ['-', c]
        | none =>
          let (names, rest) :=
            if letters.contains 'o' then (rest.take 1, rest.drop 1) else ([], rest)
          let named := names.map fun n =>
            (State.optionNames.find? fun (m, _) => m.toList == n).map (·.2)
          if named.any Option.isNone then .error (Word.lit "-o " ++ names.headD [])
          else
            let asked := letters.filter known.contains ++ named.filterMap (·.join)
            let others := o.options.filter (!asked.contains ·)
            readOptions fuel
              ⟨if sign = '-' then asked ++ others else others,
                o.text || (sign = '-' && letters.contains 'c'), rest⟩
    | _ => .ok o

/-- The shell. -/
def shell : Tool := fun args env => do
  let own := args.headD []
  let (id, parent) ← identity
  let directory :=
    match ← enter ⟨Name.current⟩ with
    | .ok place => Tool.placePath place
    | .error _ => []
  let complain (m : Word) : Routine Nat := do
    putLine 2 (own ++ Word.lit ": 0: " ++ m)
    pure 2
  match readOptions (args.length + 1) ⟨[], false, args.tail⟩ with
  | .error w => complain (Word.lit "Illegal option " ++ w)
  | .ok o =>
    let start (name : Word) (positional : List Word) (options : List Char) : State :=
      State.initial name positional env id parent directory options
    match o.text, o.operands with
    | true, [] => complain (Word.lit "-c requires an argument")
    | true, source :: rest =>
      runProgram source (start (rest.headD own) (rest.drop 1) o.options)
    | false, rest =>
      match (if o.options.contains 's' then none else rest.head?) with
      | some path =>
        match ← openFile (Word.toPath path) .read with
        | .error e =>
          let reason :=
            if e = .noSuchFile ∨ e = .notDirectory then Word.lit "No such file" else Tool.reason e
          complain (Word.lit "cannot open " ++ path ++ [':', ' '] ++ reason)
        | .ok file =>
          let content ← Tool.readRest file rounds []
          close file
          match content with
          | .error _ => pure 0
          | .ok b => runProgram (Word.ofBytes b) (start path (rest.drop 1) o.options)
      | none =>
        match ← Tool.readRest 0 rounds [] with
        | .error _ => pure 0
        | .ok b => runProgram (Word.ofBytes b) (start own rest ('s' :: o.options.filter (· ≠ 's')))

end Conformance.Machine.Shell
