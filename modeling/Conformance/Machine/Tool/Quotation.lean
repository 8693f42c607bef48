import Conformance.Machine.Tool.Basic

/-!
# Names in messages

How tools write the names of files and the operands of a command into their messages.  A name that
a shell would read as something else stands in quotes; characters without a shape are written as
escapes.
-/

namespace Conformance.Machine.Tool

/-- Whether a byte has a shape. -/
def hasShape (c : Char) : Bool := 0x20 ≤ c.toNat && c.toNat < 0x7f

/-- The escape of a byte without a shape. -/
def shapeless (c : Char) : Word :=
  let letters : List (Char × Char) :=
    [('\x07', 'a'), ('\x08', 'b'), ('\t', 't'), ('\n', 'n'), ('\x0b', 'v'), ('\x0c', 'f'),
      ('\r', 'r')]
  match letters.find? (·.1 == c) with
  | some (_, l) => ['\\', l]
  | none =>
    let n := c.toNat
    ['\\', Char.ofNat (48 + n / 64 % 8), Char.ofNat (48 + n / 8 % 8), Char.ofNat (48 + n % 8)]

/-- An operand in single quotes, with escapes for quotes, backslashes and bytes without a shape. -/
def inQuotes (w : Word) : Word :=
  '\'' :: (w.flatMap fun c =>
    if c = '\'' || c = '\\' then ['\\', c] else if hasShape c then [c] else shapeless c) ++ ['\'']

/-- Whether a byte makes a shell read a name as something else, at the front or not. -/
def isRisky (front alone : Bool) (c : Char) : Bool :=
  !hasShape c || " !\"$&()*;<=>?[\\^|':".toList.contains c || c = Char.ofNat 96 ||
    (front && (c = '#' || c = '~')) || (alone && (c = '\x7b' || c = '\x7d'))

/-- Whether a byte means the same in single and in double quotes. -/
def isHarmless (c : Char) : Bool :=
  c.isAlphanum || " '%+,-./:]_#~\x7b\x7d@".toList.contains c

/-- A name in the quotes of a shell: bytes without a shape stand in quotes of their own, `escaping`
being whether such quotes are open. -/
def quotedFrom (escaping : Bool) : Word → Word
  | [] => []
  | c :: r =>
    if hasShape c then
      (if escaping then ['\'', '\''] else []) ++
        (if c = '\'' then ['\'', '\\', '\''] ++ ['\''] else [c]) ++ quotedFrom false r
    else
      (if escaping then [] else ['\'', '$', '\'']) ++ shapeless c ++ quotedFrom true r

/-- A name in quotes. -/
def shownQuoted (w : Word) : Word :=
  if w.contains '\'' && w.all isHarmless then '"' :: w ++ ['"']
  else '\'' :: quotedFrom false w ++ ['\'']

/-- Whether a name has to stand in quotes. -/
def needsQuotes (w : Word) : Bool :=
  match w with
  | [] => true
  | c :: r => isRisky true r.isEmpty c || r.any (isRisky false false)

/-- A name as it is, or in quotes where it needs them. -/
def shown (w : Word) : Word := if needsQuotes w then shownQuoted w else w

/-! ## Complaints about inputs -/

open Routine

/-- Complains that a file could not be used. -/
def complainOf (name file : Word) (e : SystemFault) : Routine Unit :=
  complain name (shown file ++ [':', ' '] ++ reason e)

/-- Reads all of the named inputs, with a complaint about each that cannot be read; the contents
with their names, and whether there was nothing to complain about. -/
def readInputs (say : Word → SystemFault → Routine Unit) :
    List Word → Routine (List (Word × Word) × Bool)
  | [] => pure ([], true)
  | input :: rest => do
    match ← openInput input with
    | .error e =>
      say input e
      let (more, _) ← readInputs say rest
      pure (more, false)
    | .ok file =>
      let content ← readRest file rounds []
      closeInput file
      match content with
      | .error e =>
        say input e
        let (more, _) ← readInputs say rest
        pure (more, false)
      | .ok b =>
        let (more, fine) ← readInputs say rest
        pure ((input, Word.ofBytes b) :: more, fine)

/-- Complains about an operand that there is no use for. -/
def extraOperand (name operand : Word) (code : Nat) : Routine Nat :=
  refuse name (Word.lit "extra operand " ++ inQuotes operand) code

end Conformance.Machine.Tool
