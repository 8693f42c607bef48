import Conformance.Machine.Tool.Quotation

/-!
# Tools that pass bytes on

Copying, the front and the end of an input, counting, and the tools that make output from nothing.
-/

namespace Conformance.Machine.Tool

open Routine

/-! ## Copying -/

/-- How a copy is written: numbers in front of lines, one line feed for many, and signs for
characters that do not show. -/
structure CopyStyle where
  numbered : Bool
  numberedNonblank : Bool
  squeezed : Bool
  ends : Bool
  tabs : Bool
  controls : Bool

/-- Where a copy is: the number of lines numbered so far, whether a line begins, and how many blank
lines came last. -/
structure CopyPlace where
  line : Nat
  fresh : Bool
  blanks : Nat

/-- A number as it stands in front of a line. -/
def lineNumber (n : Nat) : Word :=
  let digits := Word.ofNat n
  List.replicate (6 - digits.length) ' ' ++ digits ++ ['\t']

/-- A byte as it is shown. -/
def showByte (s : CopyStyle) (c : Char) : Word :=
  if c = '\n' then if s.ends then ['$', '\n'] else ['\n']
  else if c = '\t' then if s.tabs then ['^', 'I'] else ['\t']
  else if !s.controls then [c]
  else
    let low (n : Nat) : Word :=
      if n < 32 then ['^', Char.ofNat (n + 64)] else if n = 127 then ['^', '?'] else [Char.ofNat n]
    if c.toNat < 128 then low c.toNat else ['M', '-'] ++ low (c.toNat - 128)

/-- Copies a block in a style, from a place on. -/
def copyBlock (s : CopyStyle) : CopyPlace → List Word → Word → CopyPlace × Word
  | p, out, [] => (p, out.reverse.flatten)
  | p, out, c :: cs =>
    if p.fresh && c = '\n' then
      if s.squeezed && p.blanks ≥ 1 then copyBlock s p out cs
      else
        let counted := s.numbered && !s.numberedNonblank
        let front := if counted then lineNumber (p.line + 1) else []
        copyBlock s ⟨if counted then p.line + 1 else p.line, true, p.blanks + 1⟩
          ((front ++ showByte s c) :: out) cs
    else
      let counted := p.fresh && (s.numbered || s.numberedNonblank)
      let front := if counted then lineNumber (p.line + 1) else []
      copyBlock s ⟨if counted then p.line + 1 else p.line, c = '\n', 0⟩
        ((front ++ showByte s c) :: out) cs

/-- Copies an open file to the standard output. -/
def copyFile (name input : Word) (style : Option CopyStyle) (file : Nat) :
    Nat → CopyPlace → Routine (CopyPlace × Bool)
  | 0, p => pure (p, true)
  | fuel + 1, p => do
    match ← read file blockSize with
    | .error e =>
      complainOf name input e
      pure (p, false)
    | .ok b =>
      if b.isEmpty then pure (p, true)
      else
        match style with
        | none =>
          checked name (← write 1 b)
          copyFile name input style file fuel p
        | some s =>
          let (p, out) := copyBlock s p [] (Word.ofBytes b)
          emit name out
          copyFile name input style file fuel p

/-- Copies inputs one after another. -/
def copyInputs (name : Word) (style : Option CopyStyle) : CopyPlace → Bool → List Word →
    Routine Nat
  | _, fine, [] => pure (if fine then 0 else 1)
  | p, fine, input :: rest => do
    match ← openInput input with
    | .error e =>
      complainOf name input e
      copyInputs name style p false rest
    | .ok file =>
      let (p, ok) ← copyFile name input style file rounds p
      closeInput file
      copyInputs name style p (fine && ok) rest

/-- Copies its inputs. -/
def cat : Tool := fun args _ =>
  withOptions { plain := "nbsuETAvet", valued := "", long := [("number", 'n'), ("number-nonblank", 'b'),
    ("squeeze-blank", 's'), ("show-ends", 'E'), ("show-tabs", 'T'), ("show-all", 'A'),
    ("show-nonprinting", 'v')] } args fun name p =>
    let style : CopyStyle :=
      ⟨p.has 'n', p.has 'b', p.has 's', p.has 'E' || p.has 'A' || p.has 'e',
        p.has 'T' || p.has 'A' || p.has 't',
        p.has 'v' || p.has 'A' || p.has 'e' || p.has 't'⟩
    let plain := p.given.all (·.1 == 'u')
    do
      match ← write 1 .empty with
      | .error e =>
        complain name (Word.lit "standard output: " ++ reason e)
        pure 1
      | .ok () =>
        let names := inputs p.operands
        let code ← copyInputs name (if plain then none else some style) ⟨0, true, 0⟩ true names
        if names.contains ['-'] then
          match ← duplicate 0 0 with
          | .error e =>
            complain name (Word.lit "closing standard input: " ++ reason e)
            pure 1
          | .ok () => pure code
        else pure code

/-- Opens the outputs of `tee`. -/
def openOutputs (name : Word) (mode : OpenMode) : List Word → Routine (List (Word × Nat) × Bool)
  | [] => pure ([], true)
  | output :: rest => do
    match ← openFile (Word.toPath output) mode with
    | .error e =>
      complain name (output ++ [':', ' '] ++ reason e)
      let (more, _) ← openOutputs name mode rest
      pure (more, false)
    | .ok file =>
      let (more, fine) ← openOutputs name mode rest
      pure ((output, file) :: more, fine)

/-- Writes a block to several outputs. -/
def writeAll (b : ByteArray) : List (Word × Nat) → Routine Unit
  | [] => pure ()
  | (_, file) :: rest => do
    let _ ← write file b
    writeAll b rest

/-- Copies the standard input to several outputs. -/
def copyToAll (name : Word) (outputs : List (Word × Nat)) : Nat → Routine Nat
  | 0 => pure 0
  | fuel + 1 => do
    match ← read 0 blockSize with
    | .error e =>
      complain name (Word.lit "read error: " ++ reason e)
      pure 1
    | .ok b =>
      if b.isEmpty then pure 0
      else
        writeAll b outputs
        copyToAll name outputs fuel

/-- Copies the standard input to the standard output and to files. -/
def tee : Tool := fun args _ =>
  withOptions { plain := "aip", valued := "", long := [("append", 'a')] } args fun name p => do
    let (outputs, fine) ← openOutputs name (if p.has 'a' then .append else .write) p.operands
    let code ← copyToAll name ((['-'], 1) :: outputs) rounds
    pure (if fine then code else 1)

/-! ## Front and end -/

/-- What to keep of an input: a number of lines or bytes, counted from the end or not. -/
structure Portion where
  count : Nat
  bytes : Bool
  /-- For a front, everything but the last `count`; for an end, everything from `count` on. -/
  complement : Bool

/-- Reads a portion from the options of a tool, where `sign` asks for the complement. -/
def portion (p : Parsed) (sign : Char) : Option Portion :=
  let parse (bytes : Bool) (v : Word) : Option Portion :=
    match v with
    | c :: r =>
      if c = sign then (Word.nat? r).map fun n => ⟨n, bytes, true⟩
      else if c = '-' then (Word.nat? r).map fun n => ⟨n, bytes, false⟩
      else (Word.nat? v).map fun n => ⟨n, bytes, false⟩
    | [] => none
  match p.value? 'c', p.value? 'n' with
  | some v, _ => parse true v
  | none, some v => parse false v
  | none, none => some ⟨10, false, false⟩

/-- Turns a first argument such as `-5` into the option that it abbreviates. -/
def expandCount (args : List Word) : List Word :=
  match args with
  | ('-' :: c :: r) :: rest => (if c.isDigit then '-' :: 'n' :: c :: r else '-' :: c :: r) :: rest
  | args => args

/-- Copies the first bytes or lines of an open file. -/
def copyFront (name : Word) (bytes : Bool) (file : Nat) : Nat → Nat → Routine Unit
  | 0, _ => pure ()
  | _ + 1, 0 => pure ()
  | fuel + 1, count => do
    match ← read file (if bytes then min count blockSize else blockSize) with
    | .error _ => pure ()
    | .ok b =>
      if b.isEmpty then pure ()
      else if bytes then
        checked name (← write 1 b)
        copyFront name bytes file fuel (count - b.size)
      else
        let ls := (Word.ofBytes b).splitLines
        let kept := ls.take count
        emit name kept.flatten
        copyFront name bytes file fuel
          (count - (kept.filter fun l => l.getLast? = some '\n').length)

/-- The heading of an input among several. -/
def heading (first : Bool) (input : Word) : Word :=
  (if first then [] else ['\n']) ++ Word.lit "==> " ++
    (if input = ['-'] then Word.lit "standard input" else input) ++ Word.lit " <==\n"

/-- Goes through the inputs of `head` and `tail`. -/
def eachPortion (name : Word) (titles : Bool) (body : Nat → Routine Unit) : Bool → Bool →
    List Word → Routine Nat
  | _, fine, [] => pure (if fine then 0 else 1)
  | first, fine, input :: rest => do
    match ← openInput input with
    | .error e =>
      complain name (Word.lit "cannot open '" ++ input ++ Word.lit "' for reading: " ++ reason e)
      eachPortion name titles body first false rest
    | .ok file =>
      if titles then emit name (heading first input)
      body file
      closeInput file
      eachPortion name titles body false fine rest

/-- Copies the front of its inputs. -/
def head : Tool := fun args _ =>
  withOptions { plain := "qv", valued := "nc", long := [("lines", 'n'), ("bytes", 'c'), ("quiet", 'q')] }
    (args.headD [] :: expandCount args.tail) fun name p =>
    match portion p '-' with
    | none => do
      complain name (Word.lit "invalid number of lines: '" ++ (p.value? 'n').getD [] ++ ['\''])
      pure 1
    | some k =>
      let titles := p.has 'v' || (p.operands.length > 1 && !p.has 'q')
      eachPortion name titles
        (fun file =>
          if k.complement then do
            match ← readRest file rounds [] with
            | .error _ => pure ()
            | .ok b =>
              let w := Word.ofBytes b
              if k.bytes then emit name (w.take (w.length - k.count))
              else
                let ls := w.splitLines
                emit name (ls.take (ls.length - k.count)).flatten
          else copyFront name k.bytes file rounds k.count)
        true true (inputs p.operands)

/-- Copies the end of its inputs. -/
def tail : Tool := fun args _ =>
  withOptions { plain := "qvf", valued := "nc", long := [("lines", 'n'), ("bytes", 'c'), ("quiet", 'q')] }
    (args.headD [] :: expandCount args.tail) fun name p =>
    match portion p '+' with
    | none => do
      complain name (Word.lit "invalid number of lines: '" ++ (p.value? 'n').getD [] ++ ['\''])
      pure 1
    | some k =>
      let titles := p.has 'v' || (p.operands.length > 1 && !p.has 'q')
      eachPortion name titles
        (fun file => do
          match ← readRest file rounds [] with
          | .error _ => pure ()
          | .ok b =>
            let w := Word.ofBytes b
            let keep {α : Type} (l : List α) : List α :=
              if k.complement then l.drop (k.count - 1) else l.drop (l.length - k.count)
            if k.bytes then emit name (keep w) else emit name (keep w.splitLines).flatten)
        true true (inputs p.operands)

/-! ## Counting -/

/-- The words of a word, counted by the blanks between them. -/
def wordCount (w : Word) : Nat :=
  (w.foldl (fun (n, inside) c =>
    let blank := c = ' ' || (9 ≤ c.toNat && c.toNat ≤ 13)
    if blank then (n, false) else if inside then (n, true) else (n + 1, true)) (0, false)).1

/-- The counts that are asked for, in their fixed order. -/
def counts (p : Parsed) (w : Word) : List Nat :=
  let all := p.given.isEmpty
  (if all || p.has 'l' then [w.count '\n'] else []) ++
    (if all || p.has 'w' then [wordCount w] else []) ++
    (if p.has 'm' then [w.length] else []) ++
    (if all || p.has 'c' then [w.length] else []) ++
    (if p.has 'L' then [(w.splitLines.map fun l => l.chomp.1.length).foldl max 0] else [])

/-- Counts in columns of a width. -/
def countLine (width : Nat) (ns : List Nat) (title : Word) : Word :=
  let column (n : Nat) : Word :=
    let d := Word.ofNat n
    List.replicate (width - d.length) ' ' ++ d
  [' '].intercalate (ns.map column) ++ (if title.isEmpty then [] else ' ' :: title) ++ ['\n']

/-- Counts lines, words and bytes. -/
def wc : Tool := fun args _ =>
  withOptions { plain := "lwcmL", valued := "", long := [("lines", 'l'), ("words", 'w'), ("bytes", 'c'), ("chars", 'm')] }
    args fun name p => do
    let (contents, fine) ← readInputs (complainOf name) (inputs p.operands)
    let rows := contents.map fun (input, w) =>
      (counts p w, if p.operands.isEmpty then [] else input)
    let columns := (counts p []).length
    let size := (contents.map (·.2.length)).foldl (· + ·) 0
    let width :=
      if columns = 1 && p.operands.length ≤ 1 then 1
      else if p.operands.isEmpty || p.operands.contains ['-'] then 7
      else (Word.ofNat size).length
    let total :=
      if p.operands.length > 1 then
        [((List.range columns).map fun i => (rows.map fun r => r.1.getD i 0).foldl (· + ·) 0,
          Word.lit "total")]
      else []
    emit name ((rows ++ total).flatMap fun (ns, title) => countLine width ns title)
    pure (if fine then 0 else 1)

/-! ## Doing nothing -/

/-- A length of time in nanoseconds: decimals with a unit if one likes. -/
def interval? (w : Word) : Option Nat :=
  let (body, unit) :=
    match w.getLast? with
    | some 's' => (w.dropLast, 1)
    | some 'm' => (w.dropLast, 60)
    | some 'h' => (w.dropLast, 3600)
    | some 'd' => (w.dropLast, 86400)
    | _ => (w, 1)
  let whole := body.takeWhile (· ≠ '.')
  let part := ((body.dropWhile (· ≠ '.')).drop 1).take 9
  if whole.isEmpty && part.isEmpty then none
  else if (whole ++ part).all Char.isDigit then
    let n := ((Word.nat? whole).getD 0) * 1000000000
    let f := ((Word.nat? part).getD 0) * Nat.pow 10 (9 - part.length)
    some ((n + f) * unit)
  else none

/-- Sleeps for the sum of its intervals. -/
def sleepFor : Tool := fun args _ => do
  let name := args.headD []
  match args.tail.mapM interval? with
  | some [] => refuse name (Word.lit "missing operand") 1
  | some ns =>
    sleep (ns.foldl (· + ·) 0)
    pure 0
  | none =>
    let bad := (args.tail.find? fun w => (interval? w).isNone).getD []
    refuse name (Word.lit "invalid time interval '" ++ bad ++ ['\'']) 1

/-- Does nothing, with success. -/
def succeed : Tool := fun _ _ => pure 0

/-- Does nothing, without success. -/
def fail : Tool := fun _ _ => pure 1

end Conformance.Machine.Tool
