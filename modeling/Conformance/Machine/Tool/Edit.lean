import Conformance.Machine.Tool.Edit.Program

/-!
# Editing lines

A program of edits is run for every line of the input.  The line stands in a space of its own while
it is edited; a second space holds what is to be kept from line to line.
-/

namespace Conformance.Machine.Edit

open Routine

/-! ## Inputs and outputs -/

/-- Where lines come from: the inputs that are left, the one that is read, and what is known of
it. -/
structure Source where
  waiting : List Word
  name : Word
  file : Option Nat
  /-- Whole lines that were read, with their line feeds. -/
  known : List Word
  /-- The part of a line that was read. -/
  part : Word
  /-- Whether all inputs could be read. -/
  fine : Bool

/-- Where text goes: a file, what is still to be written to it, and whether a line there lacks its
line feed. -/
structure Sink where
  name : Word
  file : Nat
  waiting : List Word
  unended : Bool
  /-- The same for what commands write to the standard output as a file. -/
  unendedAside : Bool

/-- What is known while a program runs. -/
structure Editor where
  source : Source
  sinks : List Sink
  /-- How far lines of files were read one by one. -/
  readers : List (Word × Nat)
  number : Nat
  space : Word
  held : Word
  /-- Whether the line in the space ends with a line feed. -/
  ended : Bool
  /-- The same for what is held. -/
  heldEnded : Bool
  /-- What is written behind the line: texts, and the contents of files. -/
  behind : List (Except Word Word)
  /-- The commands, by place, whose range is open, with its last line if that is known. -/
  ranges : List (Nat × Option Nat)
  /-- The commands whose range was open from the start and is no more. -/
  closed : List Nat
  changed : Bool
  last : Option Pattern

/-- How the tool was called. -/
structure Setting where
  tool : Word
  quiet : Bool
  separate : Bool
  inPlace : Option Word
  width : Nat
  program : Array Command

/-- A part of the run of a program. -/
abbrev Run (α : Type) := StateT Editor Routine α

/-! ### Writing -/

/-- Writes what is waiting for a file. -/
def Sink.flush (tool : Word) (s : Sink) : Routine Sink := do
  if s.waiting.isEmpty then pure s
  else
    let text := s.waiting.reverse.flatten
    if s.file = 1 then Tool.emit tool text
    else
      let _ ← put s.file text
    pure { s with waiting := [] }

/-- Writes what is waiting for all files. -/
def flushAll (tool : Word) : Run Unit := do
  let e ← get
  let sinks ← e.sinks.mapM fun s => (s.flush tool : Routine Sink)
  set { e with sinks }

/-- Adds a text to a file; a line there that lacks its line feed gets it first. -/
def Sink.add (s : Sink) (w : Word) (ended : Bool) : Sink :=
  let front := if s.unended then ['\n'] else []
  let back := if ended then ['\n'] else []
  { s with waiting := (front ++ w ++ back) :: s.waiting, unended := !ended }

/-- Writes a line to a file by name. -/
def writeTo (name w : Word) (ended : Bool) : Run Unit :=
  modify fun e =>
    { e with sinks := e.sinks.map fun s => if s.name = name then s.add w ended else s }

/-- The name of the standard output. -/
def standard : Word := Word.lit "/dev/stdout"

/-- Adds a text that a command writes to the standard output as a file. -/
def Sink.addAside (s : Sink) (w : Word) (ended : Bool) : Sink :=
  let t := { s with unended := s.unendedAside }.add w ended
  { t with unended := s.unended, unendedAside := t.unended }

/-- Writes a line to a file that a command names. -/
def writeAside (c : Setting) (name w : Word) (ended : Bool) : Run Unit := do
  if name ≠ standard then writeTo name w ended
  else if c.inPlace.isSome then Tool.emit c.tool (w ++ if ended then ['\n'] else [])
  else
    modify fun e =>
      { e with sinks := e.sinks.map fun s => if s.name = standard then s.addAside w ended else s }

/-- Writes a line. -/
def writeLine (w : Word) : Run Unit := writeTo standard w true

/-- Writes a text that need not end with a line feed. -/
def writeText (w : Word) : Run Unit :=
  modify fun e =>
    { e with sinks := e.sinks.map fun s =>
        if s.name = standard then { s.add w false with unended := false } else s }

/-- Writes the line in the space. -/
def writeSpace : Run Unit := do
  let e ← get
  writeTo standard e.space e.ended

/-- Writes what stands behind the line. -/
def writeBehind : Run Unit := do
  let e ← get
  set { e with behind := [] }
  for item in e.behind.reverse do
    match item with
    | .ok w => if !w.isEmpty then writeText w
    | .error name =>
      match ← (Tool.openInput (if name = Word.lit "/dev/stdin" then ['-'] else name) :
          Routine _) with
      | .error _ => pure ()
      | .ok file =>
        let content ← (Tool.readRest file rounds [] : Routine _)
        Tool.closeInput file
        match content with
        | .ok b => if !b.isEmpty then writeText (Word.ofBytes b)
        | .error _ => pure ()

/-! ### Reading -/

/-- Ends the work on an input that is edited in place: its file gets what was written. -/
def putBack (c : Setting) : Run Unit := do
  let e ← get
  match c.inPlace with
  | none => pure ()
  | some ending =>
    if !e.source.name.isEmpty then
      let s := e.sinks.find? (·.name = standard)
      let text := (s.map (·.waiting.reverse.flatten)).getD []
      let name := e.source.name
      if !ending.isEmpty then
        let spare := if ending.contains '*' then
            ending.flatMap fun ch => if ch = '*' then name else [ch]
          else name ++ ending
        let _ ← Routine.change (.rename (Word.toPath name) (Word.toPath spare) false)
      match ← (openFile (Word.toPath name) .write : Routine _) with
      | .ok file =>
        let _ ← (put file text : Routine _)
        Routine.close file
      | .error _ => pure ()
      set { e with
        source := { e.source with name := [] }
        sinks := e.sinks.map fun (s : Sink) =>
          if s.name = standard then { s with waiting := [], unended := false } else s }

/-- Ends the tool at once because of a fault. -/
def panic {α : Type} (c : Setting) (m : Word) : Run α := do
  flushAll c.tool
  Tool.complain c.tool m
  (Routine.exit 4 : Routine α)

/-- Reads on until a line is known, or until there is none; `within` keeps to the input that is
read. -/
def fill (c : Setting) (within : Bool) : Nat → Run Unit
  | 0 => pure ()
  | fuel + 1 => do
    let e ← get
    let s := e.source
    if !s.known.isEmpty then pure ()
    else
      match s.file with
      | some file =>
        if c.inPlace.isNone then flushAll c.tool
        match ← (Routine.read file blockSize : Routine _) with
        | .error err =>
          panic c (Word.lit "read error on " ++ s.name ++ [':', ' '] ++ Tool.reason err)
        | .ok b =>
          if b.isEmpty then
            Tool.closeInput file
            let known := if s.part.isEmpty then [] else [s.part]
            modify fun e => { e with source := { s with file := none, known, part := [] } }
            fill c within fuel
          else
            let (known, part) := Tool.knownLines (s.part ++ Word.ofBytes b)
            let whole := part.getLast? = some '\n'
            modify fun e =>
              { e with source :=
                  { s with
                    known := if whole then known ++ [part] else known
                    part := if whole then [] else part } }
            fill c within fuel
      | none =>
        match within, s.waiting with
        | true, _ => pure ()
        | false, [] => pure ()
        | false, name :: waiting =>
          putBack c
          modify fun e => { e with source := { e.source with waiting } }
          let missing (err : SystemFault) : Run Unit := do
            flushAll c.tool
            Tool.complain c.tool (Word.lit "can't read " ++ name ++ [':', ' '] ++ Tool.reason err)
            modify fun e => { e with source := { e.source with fine := false } }
          match ← (Tool.openInput name : Routine _) with
          | .error err => missing err
          | .ok file =>
            if c.inPlace.isSome then
              match ← (kindOf file : Routine _) with
              | some (.regular ..) => pure ()
              | _ => panic c (Word.lit "couldn't edit " ++ name ++ Word.lit ": not a regular file")
            modify fun e =>
              { e with
                source := { e.source with name, file := some file }
                number := if c.separate then 0 else e.number }
          fill c within fuel

/-- Whether there is no line behind the one in the space. -/
def atEnd (c : Setting) : Run Bool := do
  fill c c.separate rounds
  let e ← get
  pure e.source.known.isEmpty

/-- Takes the next line, if there is one; `add` puts it behind the line in the space. -/
def takeLine (c : Setting) (add : Bool) : Run Bool := do
  writeBehind
  fill c false rounds
  let e ← get
  match e.source.known with
  | [] => pure false
  | l :: known =>
    let (text, ended) := Word.chomp l
    set { e with
      source := { e.source with known }
      number := e.number + 1, ended, changed := if add then e.changed else false
      space := if add then e.space ++ '\n' :: text else text }
    pure true

/-! ## Matching -/

/-- The expression of a pattern, with whether letters are all the same and whether lines count. -/
def resolve (c : Setting) (p : Pattern) : Run (Regex × Bool × Bool) := do
  match p with
  | .regex r fold lines =>
    modify fun e => { e with last := some p }
    pure (r, fold, lines)
  | .last =>
    match (← get).last with
    | some (.regex r fold lines) => pure (r, fold, lines)
    | _ => do
      flushAll c.tool
      Tool.complain c.tool (Word.lit "-e expression #1, char 0: no previous regular expression")
      (Routine.exit 1 : Routine _)

/-- Whether the line is at an address. -/
def isAt (c : Setting) (a : Address) : Run Bool := do
  match a with
  | .line n => pure ((← get).number = n)
  | .every first step =>
    let n := (← get).number
    pure (first ≤ n && (n - first) % step = 0)
  | .last => atEnd c
  | .pattern p =>
    let (r, fold, lines) ← resolve c p
    let e ← get
    let s : Regex.Subject := ⟨e.space.toArray, fold, lines⟩
    pure ((List.range (e.space.length + 1)).any fun i => (r.endAt s (fun _ => true) i).isSome)

/-- Opens or closes the range of a command. -/
def setRange (place : Nat) (r : Option (Option Nat)) : Run Unit :=
  modify fun e =>
    let others := e.ranges.filter (·.1 ≠ place)
    { e with ranges := (r.map (place, ·)).toList ++ others }

/-- Whether a command is for the line; with it, whether its range goes on. -/
def chosen (c : Setting) (place : Nat) (r : Range) : Run (Bool × Bool) := do
  match r with
  | .all => pure (true, false)
  | .single a => do
    let hit ← isAt c a
    pure (hit, false)
  | .span early first stop =>
    let e ← get
    if early && !e.closed.contains place && !(e.ranges.any (·.1 = place)) then
      modify fun e => { e with closed := place :: e.closed }
      setRange place (some none)
    let e ← get
    match e.ranges.find? (·.1 = place) with
    | some (_, some n) =>
      if n ≤ e.number then setRange place none
      pure (e.number ≤ n, e.number < n)
    | some (_, none) =>
      let done ←
        match stop with
        | .address a => isAt c a
        | _ => pure false
      if done then setRange place none
      pure (true, !done)
    | none =>
      if early then pure (false, false)
      else
        let hit ← isAt c first
        if !hit then pure (false, false)
        else
          let n := e.number
          let lastly (m : Nat) : Run (Bool × Bool) := do
            if n < m then setRange place (some (some m))
            pure (true, n < m)
          match stop with
          | .after k => lastly (n + k)
          | .multiple k => lastly (if k = 0 then n else (n / k + 1) * k)
          | .address (.line m) => lastly m
          | .address _ => do
            setRange place (some none)
            pure (true, true)

/-! ## Substitution -/

/-- A text that is written, with the change of letters that goes on and the one that is for one
letter. -/
structure Written where
  text : Word
  all : Letters
  one : Letters

/-- Adds a text, with its letters changed. -/
def Written.add (t : Written) (w : Word) : Written :=
  match w with
  | [] => t
  | c :: r =>
    let change (l : Letters) (c : Char) : Char :=
      match l with
      | .allUpper | .oneUpper => c.toUpper
      | .allLower | .oneLower => c.toLower
      | .asTheyAre => c
    let first := if t.one = .asTheyAre then change t.all c else change t.one c
    ⟨t.text ++ first :: r.map (change t.all), t.all, .asTheyAre⟩

/-- What is written in place of a match. -/
def expand (s : Regex.Subject) (m : Regex.Match) (pieces : List Piece) : Word :=
  (pieces.foldl (fun t p =>
    match p with
    | .text w => t.add w
    | .part 0 => t.add (s.part m.start m.stop)
    | .part n =>
      match m.groups.find? (·.1 == n) with
      | some (_, i, j) => t.add (s.part i j)
      | none => t
    | .letters l =>
      match l with
      | .oneUpper | .oneLower => { t with one := l }
      | l => { t with all := l, one := .asTheyAre }) (⟨[], .asTheyAre, .asTheyAre⟩ : Written)).text

/-- Replaces matches from a position on; `count` were passed so far, the last one up to `barred`,
where an empty match does not count. -/
def replaceFrom (r : Regex) (s : Regex.Subject) (pieces : List Piece) (every : Bool) (nth : Nat) :
    Nat → Nat → Nat → Option Nat → Word × Bool
  | 0, p, _, _ => (s.part p s.text.size, false)
  | fuel + 1, p, count, barred =>
    match r.find? s p with
    | none => (s.part p s.text.size, false)
    | some m =>
      let front := s.part p m.start
      let onwards (own : Word) (count : Nat) (barred : Option Nat) (hit : Bool) : Word × Bool :=
        if m.stop = m.start then
          match s.at? m.stop with
          | none => (front ++ own, hit)
          | some c =>
            let (rest, more) := replaceFrom r s pieces every nth fuel (m.stop + 1) count none
            (front ++ own ++ c :: rest, hit || more)
        else
          let (rest, more) := replaceFrom r s pieces every nth fuel m.stop count barred
          (front ++ own ++ rest, hit || more)
      if m.stop = m.start && barred = some m.start then onwards [] count none false
      else if count + 1 < nth then onwards (s.part m.start m.stop) (count + 1) (some m.stop) false
      else
        let own := expand s m pieces
        if every then onwards own (count + 1) (some m.stop) true
        else (front ++ own ++ s.part m.stop s.text.size, true)

/-- Replaces matches in the space. -/
def substitute (c : Setting) (t : Substitution) : Run Unit := do
  let (r, fold, lines) ← resolve c t.pattern
  let e ← get
  let s : Regex.Subject := ⟨e.space.toArray, fold, lines⟩
  let (space, hit) := replaceFrom r s t.pieces t.every t.nth (2 * e.space.length + 3) 0 0 none
  if hit then
    set { e with space, changed := true }
    if t.print then writeSpace
    match t.output with
    | some name => writeAside c name space e.ended
    | none => pure ()

/-! ## Commands -/

/-- A byte as it is listed. -/
def listed (ch : Char) : Word :=
  match ch with
  | '\\' => ['\\', '\\']
  | '\x07' => ['\\', 'a']
  | '\x08' => ['\\', 'b']
  | '\x0c' => ['\\', 'f']
  | '\n' => ['\\', 'n']
  | '\r' => ['\\', 'r']
  | '\t' => ['\\', 't']
  | '\x0b' => ['\\', 'v']
  | ch =>
    let n := ch.toNat
    if 32 ≤ n && n < 127 then [ch]
    else ['\\', Char.ofNat (48 + n / 64), Char.ofNat (48 + n / 8 % 8), Char.ofNat (48 + n % 8)]

/-- A text as it is listed, in lines of a width unless that is zero. -/
def listing (width : Nat) (w : Word) : Word :=
  (w.foldl (fun (done, column) ch =>
    let own := listed ch
    if 0 < width && width - 1 < column + own.length then (done ++ '\\' :: '\n' :: own, own.length)
    else (done ++ own, column + own.length)) (([] : Word), 0)).1 ++ ['$']

/-- How a program goes on. -/
inductive Step
  | go (place : Nat)
  /-- To the next line; with `keep`, without reading it. -/
  | cycle (print keep : Bool)
  | quit (print : Bool) (code : Nat)

/-- Reads one more line of a file. -/
def readOneLine (name : Word) : Run (Option Word) := do
  let e ← get
  let count := ((e.readers.find? (·.1 = name)).map (·.2)).getD 0
  match ← (openFile (Word.toPath name) .read : Routine _) with
  | .error _ => pure none
  | .ok file =>
    let content ← (Tool.readRest file rounds [] : Routine _)
    Routine.close file
    let line :=
      match content with
      | .ok b => ((Word.ofBytes b).splitLines)[count]?
      | .error _ => none
    modify fun e => { e with readers := (name, count + 1) :: e.readers.filter (·.1 ≠ name) }
    pure line

/-- Does what a command says; `place` is where the next command stands. -/
def perform (c : Setting) (place : Nat) (goesOn : Bool) (a : Action) : Run Step := do
  let next : Step := .go place
  let e ← get
  let space (w : Word) : Run Step := do
    modify fun e => { e with space := w }
    pure next
  let firstLine := e.space.takeWhile (· ≠ '\n')
  let firstEnded := e.space.contains '\n' || e.ended
  match a with
  | .block _ | .nothing => pure next
  | .equals => do
    writeLine (Word.ofNat e.number)
    pure next
  | .append w => do
    modify fun e => { e with behind := .ok w :: e.behind }
    pure next
  | .insert w => do
    if !w.isEmpty then writeText w
    pure next
  | .change w => do
    if !goesOn && !w.isEmpty then writeText w
    pure (.cycle false false)
  | .branch t => pure (.go t)
  | .branchIf changed t => do
    modify fun e => { e with changed := false }
    pure (if e.changed = changed then .go t else next)
  | .delete => pure (.cycle false false)
  | .deleteFirst =>
    if e.space.contains '\n' then do
      modify fun e => { e with space := e.space.drop (firstLine.length + 1) }
      pure (.cycle false true)
    else pure (.cycle false false)
  | .hold add => do
    modify fun e =>
      { e with held := if add then e.held ++ '\n' :: e.space else e.space, heldEnded := e.ended }
    pure next
  | .get add => do
    modify fun e => { e with ended := e.heldEnded }
    space (if add then e.space ++ '\n' :: e.held else e.held)
  | .exchange => do
    modify fun e =>
      { e with space := e.held, held := e.space, ended := e.heldEnded, heldEnded := e.ended }
    pure next
  | .fileName => do
    writeLine (if e.source.name.isEmpty then ['-'] else e.source.name)
    pure next
  | .list width => do
    writeLine (listing (width.getD c.width) e.space)
    pure next
  | .next =>
    if ← atEnd c then pure (.quit true 0)
    else
      if !c.quiet then writeSpace
      let _ ← takeLine c false
      pure next
  | .nextAdd =>
    if ← atEnd c then pure (.quit true 0)
    else
      let _ ← takeLine c true
      pure next
  | .print => do
    writeSpace
    pure next
  | .printFirst => do
    writeTo standard firstLine firstEnded
    pure next
  | .quit silent code => pure (.quit (!silent) code)
  | .readFile name => do
    modify fun e => { e with behind := .error name :: e.behind }
    pure next
  | .readLine name => do
    match ← readOneLine name with
    | some l => modify fun e => { e with behind := .ok ((Word.chomp l).1 ++ ['\n']) :: e.behind }
    | none => pure ()
    pure next
  | .writeFile first name => do
    if first then writeAside c name firstLine firstEnded else writeAside c name e.space e.ended
    pure next
  | .substitute t => do
    substitute c t
    pure next
  | .translate table =>
    space (e.space.map fun ch => ((table.find? (·.1 == ch)).map (·.2)).getD ch)
  | .zap => space []

/-- Runs the commands from a place on, up to the end of the program. -/
def runFrom (c : Setting) : Nat → Nat → Run Step
  | 0, _ => pure (.quit false 0)
  | fuel + 1, place =>
    match c.program[place]? with
    | none => pure (.cycle true false)
    | some command => do
      let (hit, goesOn) ← chosen c place command.range
      if hit == command.reversed then
        match command.action with
        | .block stop => runFrom c fuel stop
        | _ => runFrom c fuel (place + 1)
      else
        match ← perform c (place + 1) (goesOn && !command.reversed) command.action with
        | .go target => runFrom c fuel target
        | s => pure s

/-- Runs the program for line after line; the exit code. -/
def runCycles (c : Setting) : Nat → Bool → Run Nat
  | 0, _ => pure 0
  | fuel + 1, keep => do
    let more ← if keep then pure true else takeLine c false
    if !more then pure 0
    else
      Routine.compute
      match ← runFrom c rounds 0 with
      | .cycle print keep =>
        if print && !c.quiet then writeSpace
        if keep then writeBehind
        runCycles c fuel keep
      | .quit print code =>
        if print && !c.quiet then writeSpace
        writeBehind
        pure code
      | .go _ => pure 0

/-- Runs a program on inputs. -/
def runProgram (c : Setting) (sinks : List Sink) (names : List Word) : Routine Nat := do
  let source : Source := ⟨names, [], none, [], [], true⟩
  let start : Editor :=
    { source, sinks := ⟨standard, 1, [], false, false⟩ :: sinks, readers := [], number := 0, space := []
      held := [], ended := true, heldEnded := true, behind := [], ranges := [], closed := [], changed := false
      last := none }
  let (code, _) ← (do
    let code ← runCycles c rounds false
    let e ← get
    putBack c
    flushAll c.tool
    pure (if e.source.fine then code else 2) : Run Nat).run start
  pure code

/-! ## Arguments -/

/-- A part of a program: its text, and the file that it was read from. -/
structure Chunk where
  text : Word
  file : Option Word

/-- Where a fault is: the part of the program, by number, and what was read of it. -/
def locate (count : Nat) (left : Nat) : List Chunk → Option (Nat × Chunk × Word)
  | [] => none
  | [c] => some (count, c, c.text.take left)
  | c :: cs =>
    if left ≤ c.text.length then some (count, c, c.text.take left)
    else locate (count + if c.file.isNone then 1 else 0) (left - c.text.length - 1) cs

/-- The message about a fault. -/
def Fault.sentence (f : Fault) (whole : Word) (chunks : List Chunk) : Word :=
  match f.spot with
  | .nowhere => f.message
  | .start => Word.lit "-e expression #1, char 0: " ++ f.message
  | .before rest =>
    match locate 1 (whole.length - rest.length) chunks with
    | none => f.message
    | some (n, c, front) =>
      match c.file with
      | none =>
        Word.lit "-e expression #" ++ Word.ofNat n ++ Word.lit ", char " ++
          Word.ofNat front.length ++ [':', ' '] ++ f.message
      | some name =>
        Word.lit "file " ++ name ++ Word.lit " line " ++ Word.ofNat (front.count '\n' + 1) ++
          [':', ' '] ++ f.message

/-- Reads the parts of the program; nothing if a file cannot be read. -/
def readChunks (name : Word) : List (Char × Word) → Routine (Option (List Chunk))
  | [] => pure (some [])
  | (c, w) :: rest => do
    let own : Option (List Chunk) ←
      if c = 'e' then pure (some [⟨w, none⟩])
      else if c = 'f' then do
        let (contents, fine) ← Tool.readInputs (fun f e =>
          Tool.complain name (Word.lit "couldn't open file " ++ f ++ [':', ' '] ++ Tool.reason e)) [w]
        pure (if fine then some (contents.map fun (n, t) => ⟨(Word.chomp t).1, some n⟩) else none)
      else pure (some [])
    match own with
    | none => pure none
    | some chunks =>
      let more ← readChunks name rest
      pure (more.map (chunks ++ ·))

/-- Opens the files that a program writes; nothing if one of them cannot be opened. -/
def openSinks (name : Word) : List Word → Routine (Option (List Sink))
  | [] => pure (some [])
  | w :: rest => do
    if w = standard then openSinks name rest
    else
      match ← openFile (Word.toPath w) .write with
      | .error e =>
        Tool.complain name (Word.lit "couldn't open file " ++ w ++ [':', ' '] ++ Tool.reason e)
        pure none
      | .ok file =>
        let more ← openSinks name rest
        pure (more.map (⟨w, file, [], false, false⟩ :: ·))

/-- The options of the tool. -/
def options : Tool.Options where
  plain := "nErsuz\x80\x81\x82\x83"
  valued := "efl"
  optional := "i"
  long := [("quiet", 'n'), ("silent", 'n'), ("expression", 'e'), ("file", 'f'), ("in-place", 'i'),
    ("line-length", 'l'), ("regexp-extended", 'E'), ("separate", 's'), ("unbuffered", 'u'),
    ("null-data", 'z'), ("posix", '\x80'), ("debug", '\x81'), ("sandbox", '\x82'),
    ("follow-symlinks", '\x83')]

/-- How the tool is used. -/
def usage (name : Word) : Routine Unit :=
  putLine 2 (Word.lit "Usage: " ++ name ++
    Word.lit " [OPTION]... \x7bscript-only-if-no-other-script\x7d [input-file]...")

end Conformance.Machine.Edit

namespace Conformance.Machine

namespace Tool

open Edit in
/-- Edits the lines of its inputs by a program. -/
def sed : Tool := fun args _ =>
  withOptionsOr Edit.usage Edit.options args fun name p => do
    let own := p.given.any fun (c, _) => c = 'e' || c = 'f'
    if !own && p.operands.isEmpty then
      Edit.usage name
      pure 1
    else
      let given := if own then p.given else [('e', p.operands.headD [])]
      let operands := if own then p.operands else p.operands.drop 1
      match ← readChunks name given with
      | none => pure 4
      | some chunks =>
        let text := ['\n'].intercalate (chunks.map (·.text))
        let silent := (Word.lit "#n\n").isPrefixOf text || text = Word.lit "#n"
        match readProgram (p.has 'E' || p.has 'r') text with
        | .error f =>
          complain name (f.sentence text chunks)
          pure (if f.spot matches .nowhere then 4 else 1)
        | .ok program =>
          match ← openSinks name (outputsOf program) with
          | none => pure 4
          | some sinks =>
            let width := ((p.value? 'l').bind Word.nat?).getD 70
            let c : Setting :=
              ⟨name, p.has 'n' || silent, p.has 's' || p.has 'i', p.value? 'i', width, program⟩
            runProgram c sinks (inputs operands)

end Tool

end Conformance.Machine
