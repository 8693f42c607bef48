import Conformance.Machine.Shell.Builtin.Basic
import Conformance.Machine.Tool.Condition
import Conformance.Machine.Tool.Format

/-!
# Reading and writing

The commands of a shell that write their operands, decide conditions or read lines into variables.
-/

namespace Conformance.Machine.Shell.Builtin

open Routine

/-- Does nothing, with success. -/
def succeed : Builtin := fun _ s => finish s 0

/-- Does nothing, without success. -/
def fail : Builtin := fun _ s => finish s 1

/-! ## Writing -/

/-- Writes its arguments with their escapes replaced. -/
def echo : Builtin := fun args s => answer s (args.headD []) (Format.echo args.tail) 0

/-- The operands behind two hyphens, of a command that knows no options; an option is given back. -/
def withoutOptions : List Word → Except Char (List Word)
  | ['-', '-'] :: rest => .ok rest
  | ('-' :: c :: w) :: rest => if (c :: w).isEmpty then .ok rest else .error c
  | rest => .ok rest

/-- The complaint about an argument that should be a number. -/
def numeralComplaint (c : Format.Complaint) : Word :=
  c.argument ++ Word.lit (match c.flaw with
    | .notNumeric => ": expected numeric value"
    | .leftover => ": not completely converted"
    | .range => ": Numerical result out of range")

/-- Writes its arguments in a format. -/
def printf : Builtin := fun args s => do
  let name := args.headD []
  match withoutOptions args.tail with
  | .error c => refuse s name (illegalOption c) 2
  | .ok [] => refuse s name (Word.lit "usage: printf format [arg ...]") 2
  | .ok (format :: rest) =>
    let f := Format.run .shell format rest
    for c in f.complaints do report s (name ++ [':', ' '] ++ numeralComplaint c)
    match f.fault with
    | some m =>
      let m := if m.head? = some '%' then m ++ Word.lit ": invalid directive" else m
      let (s, _) ← refuse s name m 2
      answer s name f.output 2
    | none => answer s name f.output (if f.complaints.isEmpty then 0 else 1)

/-- Decides a condition. -/
def test : Builtin := fun args s => do
  let name := args.headD []
  match if name = ['['] then Condition.unbracket? args.tail else some args.tail with
  | none => refuse s name (Word.lit "missing ]") 2
  | some operands =>
    let (code, complaint) ← Condition.run (Condition.parse operands)
    match complaint with
    | some m => refuse s name m code
    | none => finish s code

/-! ## Reading -/

/-- Characters read from a line, each with whether it may end a field. -/
abbrev ReadLine := List (Char × Bool)

/-- The characters of a line with its backslashes taken away; none if the line goes on behind its
line feed. -/
def unescapeLine : Word → ReadLine → ReadLine × Bool
  | [], done => (done.reverse, false)
  | ['\\'], done => (done.reverse, true)
  | '\\' :: c :: r, done => unescapeLine r ((c, false) :: done)
  | c :: r, done => unescapeLine r ((c, true) :: done)

/-- Reads up to the end of a line; the bytes of the line without those that are zero, and whether
the input ended before the line did. -/
def readBytes : Nat → Word → Routine (Word × Bool)
  | 0, done => pure (done, true)
  | fuel + 1, done => do
    match ← readLine 0 with
    | .error _ => pure (done, true)
    | .ok b =>
      let (text, ended) := Word.chomp (Word.ofBytes b)
      let done := done ++ text.filter (· ≠ '\x00')
      if b.isEmpty then pure (done, true)
      else if ended then pure (done, false)
      else readBytes fuel done

/-- Reads a line; its characters, and whether the input ended before the line did. -/
def readOne (raw : Bool) : Nat → ReadLine → Routine (ReadLine × Bool)
  | 0, done => pure (done, true)
  | fuel + 1, done => do
    let (text, ended) ← readBytes rounds []
    if raw then pure (done ++ text.map (·, true), ended)
    else
      let (more, goesOn) := unescapeLine text []
      if goesOn && !ended then readOne raw fuel (done ++ more) else pure (done ++ more, ended)

/-- Whether a character is a blank that ends fields. -/
def isSeparatorBlank (separators : Word) (c : Char × Bool) : Bool :=
  c.2 && separators.contains c.1 && (c.1 = ' ' || c.1 = '\t' || c.1 = '\n')

/-- Whether a character ends fields. -/
def isSeparator (separators : Word) (c : Char × Bool) : Bool := c.2 && separators.contains c.1

/-- The line that is left for the last field: without blanks at its ends and, if it is a single
field, without the separator that ends it. -/
def lastField (separators : Word) (l : ReadLine) : Word :=
  let l := l.dropWhile (isSeparatorBlank separators)
  let back (l : ReadLine) : ReadLine :=
    (l.reverse.dropWhile (isSeparatorBlank separators)).reverse
  let own := l.takeWhile fun c => !isSeparator separators c
  let behind := (l.drop own.length).dropWhile (isSeparatorBlank separators)
  let single :=
    match behind with
    | [] => true
    | c :: r =>
      isSeparator separators c && (r.dropWhile (isSeparatorBlank separators)).isEmpty
  (if single then own else back l).map (·.1)

/-- Cuts a line into at most so many fields; the last one takes all that is left. -/
def cutLine (separators : Word) : Nat → ReadLine → List Word
  | 0, _ => []
  | 1, l => [lastField separators l]
  | n + 2, l =>
    let l := l.dropWhile (isSeparatorBlank separators)
    let own := l.takeWhile fun c => !isSeparator separators c
    let rest := (l.drop own.length).dropWhile (isSeparatorBlank separators)
    let rest :=
      match rest with
      | c :: r => if isSeparator separators c then r else c :: r
      | [] => []
    own.map (·.1) :: cutLine separators (n + 1) rest

/-- Gives values to names; a message if that cannot be done. -/
def assignFields : List (Word × Word) → State → State × Option Word
  | [], s => (s, none)
  | (n, v) :: rest, s =>
    if !isName n then (s, some (badName n))
    else if s.isFixed n then (s, some (n ++ Word.lit ": is read only"))
    else assignFields rest (s.assign n v)

/-- The names behind the options of `read`, and whether backslashes are kept; an option that is not
known is given back. -/
def readOptions (raw : Bool) : List Word → Except Char (Bool × List Word)
  | ['-', '-'] :: rest => .ok (raw, rest)
  | ['-', 'p'] :: _ :: rest => readOptions raw rest
  | ('-' :: 'p' :: _ :: _) :: rest => readOptions raw rest
  | ['-', 'r'] :: rest => readOptions true rest
  | ('-' :: c :: _) :: rest => if c = 'r' then readOptions true rest else .error c
  | rest => .ok (raw, rest)

/-- Reads a line into variables. -/
def read : Builtin := fun args s => do
  let name := args.headD []
  match readOptions false args.tail with
  | .error c => refuse s name (illegalOption c) 2
  | .ok (_, []) => refuse s name (Word.lit "arg count") 2
  | .ok (raw, names) =>
    let (line, ended) ← readOne raw rounds []
    match assignFields (names.zip (cutLine s.separators names.length line)) s with
    | (s, some m) => refuse s name m 2
    | (s, none) => finish s (if ended then 1 else 0)

end Conformance.Machine.Shell.Builtin
