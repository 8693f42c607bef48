import Conformance.Machine.Tool.Paths
import Conformance.Machine.Tool.Regex

/-!
# Selecting lines

Lines are selected by the regular expressions that they match.  The lines around a selected one can
be written too.
-/

namespace Conformance.Machine.Tool

open Routine

namespace Select

/-! ## Which lines are selected -/

/-- How lines are selected: by what they match as a whole, as words or in any part, or by their
matching nothing. -/
structure Choice where
  patterns : List Regex
  fold : Bool
  whole : Bool
  words : Bool
  inverted : Bool

/-- Whether a match from one position to another counts. -/
def Choice.accepts (c : Choice) (s : Regex.Subject) (start stop : Nat) : Bool :=
  (!c.whole || (start = 0 && stop = s.text.size)) &&
    (!c.words || (!(s.before? start).any Regex.isWordChar && !(s.at? stop).any Regex.isWordChar))

/-- The longest match that counts among those that begin at a position. -/
def Choice.endAt (c : Choice) (s : Regex.Subject) (p : Nat) : Option Nat :=
  (c.patterns.filterMap fun r => r.endAt s (c.accepts s p) p).max?

/-- The first match that counts among so many positions from one on. -/
def Choice.search (c : Choice) (s : Regex.Subject) : Nat → Nat → Option (Nat × Nat)
  | 0, _ => none
  | fuel + 1, p =>
    match c.endAt s p with
    | some stop => some (p, stop)
    | none => if c.whole then none else search c s fuel (p + 1)

/-- A line as a text to search. -/
def Choice.subject (c : Choice) (line : Word) : Regex.Subject := ⟨line.toArray, c.fold, false⟩

/-- Whether a line is selected. -/
def Choice.selects (c : Choice) (line : Word) : Bool :=
  c.inverted != (c.search (c.subject line) (line.length + 1) 0).isSome

/-- The parts of a line that match, each with its position, without empty ones. -/
def Choice.partsFrom (c : Choice) (s : Regex.Subject) : Nat → Nat → List (Nat × Word)
  | 0, _ => []
  | fuel + 1, p =>
    match c.search s (s.text.size + 1 - p) p with
    | none => []
    | some (start, stop) =>
      if stop = start then partsFrom c s fuel (stop + 1)
      else (start, s.part start stop) :: partsFrom c s fuel stop

/-- The parts of a line that match. -/
def Choice.parts (c : Choice) (line : Word) : List (Nat × Word) :=
  if c.inverted then [] else c.partsFrom (c.subject line) (line.length + 2) 0

/-! ## What is written -/

/-- What is written about the lines of an input. -/
inductive Answer
  | lines
  | parts
  | count
  /-- The name of the input, if lines are selected, or if none are. -/
  | name (selected : Bool)
  | nothing
  deriving DecidableEq

/-- How lines are written. -/
structure Layout where
  answer : Answer
  numbered : Bool
  offsets : Bool
  /-- How many lines in front of a selected one and behind it are written. -/
  before : Option Nat
  after : Option Nat
  separator : Option Word
  most : Option Nat
  /-- What stands behind the name of an input. -/
  ending : Char
  /-- Whether bytes that are no text are written like others. -/
  raw : Bool

/-- A line of an input: its number, the number of bytes in front of it, and its text. -/
structure Line where
  number : Nat
  offset : Nat
  text : Word

/-- What is known between the lines of an input. -/
structure Progress where
  number : Nat
  offset : Nat
  hits : Nat
  /-- The lines in front that were not written, the last one first. -/
  held : List Line
  /-- How many lines are still to be written. -/
  due : Nat
  /-- The number of the last line that was written. -/
  written : Nat
  /-- Whether anything was written, from this input or those before. -/
  used : Bool
  binary : Bool

/-- What stands in front of a line or a part of one. -/
def Layout.front (l : Layout) (title : Option Word) (sign : Char) (number offset : Nat) : Word :=
  let name :=
    match title with
    | some t => t ++ [if l.ending = ':' then sign else l.ending]
    | none => []
  name ++ (if l.numbered then Word.ofNat number ++ [sign] else []) ++
    if l.offsets then Word.ofNat offset ++ [sign] else []

/-- A line near a selected one as it is written. -/
def Layout.near (l : Layout) (title : Option Word) (line : Line) : Word :=
  if l.answer = .lines then l.front title '-' line.number line.offset ++ line.text ++ ['\n'] else []

/-- A selected line as it is written. -/
def Layout.hit (l : Layout) (c : Choice) (title : Option Word) (line : Line) : Word :=
  if l.answer = .lines then l.front title ':' line.number line.offset ++ line.text ++ ['\n']
  else
    (c.parts line.text).flatMap fun (place, w) =>
      l.front title ':' line.number (line.offset + place) ++ w ++ ['\n']

/-- Whether lines are written at all. -/
def Layout.writes (l : Layout) (p : Progress) : Bool :=
  (l.answer = .lines || l.answer = .parts) && !p.binary

/-- Whether the rest of an input does not matter. -/
def Layout.done (l : Layout) (p : Progress) : Bool :=
  (l.most.any (· ≤ p.hits) && p.due = 0) ||
    (0 < p.hits && (!l.writes p && l.answer ≠ .count))

/-- Takes a selected line; what is written. -/
def takeHit (l : Layout) (c : Choice) (title : Option Word) (p : Progress) (line : Line) :
    Progress × Word :=
  let p := { p with hits := p.hits + 1 }
  if !l.writes p then (p, [])
  else
    let near := p.held.take (l.before.getD 0) |>.filter (p.written < ·.number)
    let first := (near.getLast?.map (·.number)).getD line.number
    let apart := p.used && (first ≠ p.written + 1 || p.written = 0) &&
      (l.before.isSome || l.after.isSome)
    let mark :=
      match l.separator with
      | some w => if apart then w ++ ['\n'] else []
      | none => []
    ({ p with held := [], due := l.after.getD 0, written := line.number, used := true },
      mark ++ near.reverse.flatMap (l.near title) ++ l.hit c title line)

/-- Takes a line that is not selected; what is written. -/
def takeOther (l : Layout) (title : Option Word) (p : Progress) (line : Line) : Progress × Word :=
  if 0 < p.due && l.writes p then
    ({ p with due := p.due - 1, written := line.number }, l.near title line)
  else
    match l.before with
    | some (n + 1) => ({ p with held := (line :: p.held).take (n + 1) }, [])
    | _ => (p, [])

/-- Takes lines; what is written, the last part first, and whether the rest does not matter. -/
def takeLines (l : Layout) (c : Choice) (title : Option Word) :
    Progress → List Word → List Word → Progress × List Word × Bool
  | p, out, [] => (p, out, false)
  | p, out, raw :: rest =>
    if l.done p then (p, out, true)
    else
      let line : Line := ⟨p.number + 1, p.offset, (Word.chomp raw).1⟩
      let p := { p with number := p.number + 1, offset := p.offset + raw.length }
      let full := l.most.any (· ≤ p.hits)
      let (p, w) :=
        if !full && c.selects line.text then takeHit l c title p line
        else takeOther l title p line
      takeLines l c title p (w :: out) rest

/-! ## Inputs -/

/-- Goes through the lines of an open input; a fault if it cannot be read. -/
def scan (l : Layout) (c : Choice) (name : Word) (title : Option Word) (file : Nat) :
    Nat → Word → Progress → Routine (Except SystemFault Progress)
  | 0, _, p => pure (.ok p)
  | fuel + 1, rest, p => do
    if l.done p then pure (.ok p)
    else
      match ← read file blockSize with
      | .error e => pure (.error e)
      | .ok b =>
        let block := Word.ofBytes b
        let p := if !l.raw && block.contains '\x00' then { p with binary := true } else p
        let (ls, rest) := if b.isEmpty then (rest.splitLines, []) else knownLines (rest ++ block)
        let (p, out, stop) := takeLines l c title p [] ls
        emit name out.reverse.flatten
        if stop || b.isEmpty then pure (.ok p) else scan l c name title file fuel rest p

/-- What is known between inputs. -/
structure Outcome where
  found : Bool
  fine : Bool
  used : Bool

/-- The name of an input in what is written. -/
def titleOf (label : Word) (input : Word) : Word := if input = ['-'] then label else input

/-- Writes what is known at the end of an input. -/
def conclude (l : Layout) (name title : Word) (titled : Bool) (p : Progress) : Routine Unit := do
  match l.answer with
  | .count =>
    emit name ((if titled then title ++ [l.ending] else []) ++ Word.ofNat p.hits ++ ['\n'])
  | .name selected =>
    if selected == decide (0 < p.hits) then
      emit name (title ++ [if l.ending = ':' then '\n' else l.ending])
  | .nothing => pure ()
  | _ =>
    if p.binary && 0 < p.hits then complain name (title ++ Word.lit ": binary file matches")

/-- Searches the inputs one after another. -/
def searchInputs (l : Layout) (c : Choice) (name label : Word) (titled silent : Bool) :
    Outcome → List Word → Routine Outcome
  | o, [] => pure o
  | o, input :: rest => do
    let failed (e : SystemFault) : Routine Outcome := do
      if !silent then complain name (titleOf label input ++ [':', ' '] ++ reason e)
      searchInputs l c name label titled silent { o with fine := false } rest
    match ← openInput input with
    | .error e => failed e
    | .ok file =>
      let title := titleOf label input
      let start : Progress := ⟨0, 0, 0, [], 0, 0, o.used, false⟩
      let r ← scan l c name (if titled then some title else none) file rounds [] start
      closeInput file
      match r with
      | .error e => failed e
      | .ok p =>
        conclude l name title titled p
        let o : Outcome := { o with found := o.found || 0 < p.hits, used := p.used }
        if l.answer = .nothing && 0 < p.hits then pure { o with fine := true }
        else searchInputs l c name label titled silent o rest

/-- The files at and below some paths, in the order in which they are kept; `true` stands with a
path that was asked for by name. -/
def filesBelow : Nat → List Word → List (Word × Bool) → Routine (List Word)
  | 0, done, _ => pure done.reverse
  | _ + 1, done, [] => pure done.reverse
  | fuel + 1, done, (path, asked) :: rest => do
    match ← inspect (Word.toPath (if path.isEmpty then ['.'] else path)) asked with
    | .ok (.directory _ es) =>
      let inner := es.names.map fun n => (entryPath path (Word.ofName n), false)
      filesBelow fuel done (inner ++ rest)
    | .ok (.link _) => filesBelow fuel done rest
    | .ok (.device _) | .ok .fifo => filesBelow fuel (if asked then path :: done else done) rest
    | _ => filesBelow fuel (path :: done) rest

/-! ## Arguments -/

/-- The options of the tool. -/
def options : Options where
  plain := "EFGPHITUVabchiLlnoqRrsuvwxyZz0123456789\x80\x81"
  valued := "ABCDdefmX\x82\x83\x84\x85\x86\x87"
  optional := "\x88"
  long := [("basic-regexp", 'G'), ("extended-regexp", 'E'), ("fixed-regexp", 'F'),
    ("fixed-strings", 'F'), ("perl-regexp", 'P'), ("after-context", 'A'), ("before-context", 'B'),
    ("binary-files", '\x84'), ("binary", 'U'), ("byte-offset", 'b'), ("context", 'C'),
    ("color", '\x88'), ("colour", '\x88'), ("count", 'c'), ("devices", 'D'), ("directories", 'd'),
    ("exclude", '\x85'), ("exclude-dir", '\x86'), ("file", 'f'), ("files-with-matches", 'l'),
    ("files-without-match", 'L'), ("group-separator", '\x82'), ("no-group-separator", '\x80'),
    ("ignore-case", 'i'), ("no-ignore-case", '\x81'), ("include", '\x87'), ("initial-tab", 'T'),
    ("label", '\x83'), ("line-buffered", 'u'), ("line-number", 'n'), ("line-regexp", 'x'),
    ("max-count", 'm'), ("no-filename", 'h'), ("no-messages", 's'), ("null", 'Z'),
    ("null-data", 'z'), ("only-matching", 'o'), ("quiet", 'q'), ("recursive", 'r'),
    ("dereference-recursive", 'R'), ("regexp", 'e'), ("invert-match", 'v'), ("silent", 'q'),
    ("text", 'a'), ("with-filename", 'H'), ("word-regexp", 'w')]
  failure := 2

/-- How the tool is used. -/
def usage (_ : Word) : Routine Unit := do
  putLine 2 (Word.lit "Usage: grep [OPTION]... PATTERNS [FILE]...")
  putLine 2 (Word.lit "Try 'grep --help' for more information.")

/-- A number as an option has it: blanks and a sign may stand in front. -/
def optionNumber? (w : Word) : Option Int :=
  Word.int? (w.dropWhile fun c => c = ' ' || ('\t' ≤ c && c ≤ '\r'))

/-- The number of lines that an option asks for. -/
def lineCount? (w : Word) : Option Nat :=
  match optionNumber? w with
  | some (.ofNat n) => some n
  | _ => none

/-- The context that options ask for, the digits of options such as `-15` among them; `run` says
whether the last option was a digit. -/
def contextOf (run : Bool) (n : Option Nat) : List (Char × Word) → Option Nat
  | [] => n
  | (c, w) :: rest =>
    if c.isDigit then
      contextOf true (some ((if run then n.getD 0 else 0) * 10 + (c.toNat - 48))) rest
    else contextOf false (if c = 'C' then (lineCount? w).or n else n) rest

/-- What is wrong with options, and what follows the complaint. -/
def optionFlaw? (kind : Option Char) : List (Char × Word) → Option (Word × Routine Unit)
  | [] => none
  | (c, w) :: rest =>
    let flaw (m : Word) : Option (Word × Routine Unit) := some (m, pure ())
    if "ABC".toList.contains c && (lineCount? w).isNone then
      flaw (w ++ Word.lit ": invalid context length argument")
    else if c = 'm' && (optionNumber? w).isNone then flaw (Word.lit "invalid max count")
    else if c = 'D' && w ≠ Word.lit "read" && w ≠ Word.lit "skip" then
      flaw (Word.lit "unknown devices method")
    else if c = '\x84' && !(["binary", "text", "without-match"].any (·.toList == w)) then
      flaw (Word.lit "unknown binary-files type")
    else if c = 'd' && !(["read", "recurse", "skip"].any (w.isPrefixOf ·.toList)) then
      some (Word.lit "invalid argument " ++ inQuotes w ++ Word.lit " for '--directories'", do
        putLine 2 (Word.lit "Valid arguments are:")
        for known in ["read", "recurse", "skip"] do
          putLine 2 (Word.lit "  - " ++ inQuotes known.toList)
        usage [])
    else if "EFGP".toList.contains c then
      if kind.any (· ≠ c) then flaw (Word.lit "conflicting matchers specified")
      else optionFlaw? (some c) rest
    else optionFlaw? kind rest

/-- How lines are written. -/
def layout (p : Parsed) : Layout :=
  let context := contextOf false none p.given
  let before := ((p.value? 'B').bind lineCount?).or context
  let after := ((p.value? 'A').bind lineCount?).or context
  let most := (p.value? 'm').bind lineCount?
  let answer : Answer :=
    if p.has 'q' then .nothing
    else
      match p.last? "lL" with
      | some c => .name (c = 'l')
      | none => if p.has 'c' then .count else if p.has 'o' then .parts else .lines
  { answer, before, after, most
    numbered := p.has 'n', offsets := p.has 'b'
    separator := if p.has '\x80' then none else some ((p.value? '\x82').getD ['-', '-'])
    ending := if p.has 'Z' then '\x00' else ':'
    raw := p.has 'a' || p.value? '\x84' = some (Word.lit "text") }

/-- The pattern of each line of a text. -/
def patternLines (w : Word) : List Word := w.splitOn '\n'

/-- Reads the patterns in files; nothing if one of them cannot be read. -/
def patternsOf (name : Word) : List (Char × Word) → Routine (Option (List Word))
  | [] => pure (some [])
  | (c, w) :: rest => do
    let own ←
      if c = 'e' then pure (some (patternLines w))
      else if c = 'f' then
        let (contents, fine) ← readInputs (fun f e => complain name (f ++ [':', ' '] ++ reason e)) [w]
        pure (if fine then some (contents.flatMap fun (_, t) =>
          if t.isEmpty then [] else patternLines (Word.chomp t).1) else none)
      else pure (some [])
    match own with
    | none => pure none
    | some ps =>
      let more ← patternsOf name rest
      pure (more.map (ps ++ ·))

/-- Reads the expressions of patterns; with them, the operators that had nothing to repeat. -/
def expressions (kind : Char) : List Word → Except Regex.Flaw (List Regex × List Word)
  | [] => .ok ([], [])
  | w :: rest => do
    let (r, idle) ←
      if kind = 'F' then pure (Regex.literal w, [])
      else Regex.parse ⟨kind = 'E' || kind = 'P', false⟩ w
    let (rs, more) ← expressions kind rest
    pure (r :: rs, idle ++ more)

/-- Searches for patterns in the inputs that are named. -/
def searchFor (name : Word) (p : Parsed) (patterns operands : List Word) : Routine Nat := do
  let l := layout p
  match expressions ((p.last? "EFGP").getD 'G') patterns with
  | .error e =>
    complain name (Word.lit e.sentence)
    pure 2
  | .ok (regexes, idle) =>
    for sign in idle do
      complain name (Word.lit "warning: " ++ sign ++ Word.lit " at start of expression")
    let fold := (p.last? "iy\x81").any (· ≠ '\x81')
    let choice : Choice := ⟨regexes, fold, p.has 'x', p.has 'w' && !p.has 'x', p.has 'v'⟩
    let deep := p.has 'r' || p.has 'R' || p.value? 'd' = some (Word.lit "recurse")
    let named ←
      if !deep then pure (inputs operands)
      else filesBelow rounds [] (if operands.isEmpty then [([], true)] else operands.map (·, true))
    let titled := if (p.last? "Hh").isSome then p.last? "Hh" = some 'H'
      else operands.length > 1 || deep
    let label := (p.value? '\x83').getD (Word.lit "(standard input)")
    if l.most = some 0 then pure 1
    else
      let o ← searchInputs l choice name label titled (p.has 's') ⟨false, true, false⟩ named
      pure (if !o.fine then 2 else if o.found then 0 else 1)

/-- The body of the tool; `kind` names the expressions that it takes by itself. -/
def body (kind : Option Char) (name : Word) (p : Parsed) : Routine Nat := do
  let p := { p with given := (kind.map (·, [])).toList ++ p.given }
  let own := p.given.any fun (c, _) => c = 'e' || c = 'f'
  match optionFlaw? none p.given with
  | some (m, behind) =>
    complain name m
    behind
    pure 2
  | none =>
    if own then
      match ← patternsOf name p.given with
      | none => pure 2
      | some ps => searchFor name p ps p.operands
    else
      match p.operands with
      | [] => do
        usage name
        pure 2
      | pattern :: rest => searchFor name p (patternLines pattern) rest

end Select

/-- The tool that writes selected lines, for one kind of expressions. -/
def grepOf (kind : Option Char) : Tool := fun args _ =>
  withOptionsOr Select.usage Select.options (Word.lit "grep" :: args.tail) (Select.body kind)

/-- Writes the lines that expressions match. -/
def grep : Tool := fun args _ =>
  withOptionsOr Select.usage Select.options args (Select.body none)

/-- Writes the lines that extended expressions match. -/
def egrep : Tool := grepOf (some 'E')

/-- Writes the lines in which words stand literally. -/
def fgrep : Tool := grepOf (some 'F')

end Conformance.Machine.Tool
