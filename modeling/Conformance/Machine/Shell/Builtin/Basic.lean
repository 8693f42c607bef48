import Conformance.Machine.Shell.State
import Conformance.Machine.Signal

/-!
# Commands of a shell

A shell runs some commands itself, without a program.  Such a command takes its words and the state
of the shell, and says how the shell goes on.
-/

namespace Conformance.Machine.Shell

open Routine

/-- How a shell goes on after a command. -/
inductive Flow
  | next
  /-- Leaves loops, as many as the number says. -/
  | leave (loops : Nat)
  /-- Begins a round of a loop anew, behind as many loops as the number says. -/
  | again (loops : Nat)
  | return
  | exit
  /-- Ends the shell because of a fault. -/
  | fault
  deriving DecidableEq, Repr

/-- Whether the shell ends. -/
def Flow.ends : Flow → Bool
  | exit | fault => true
  | _ => false

/-- A command of the shell. -/
abbrev Builtin := List Word → State → Routine (State × Flow)

/-! ## Messages -/

/-- Writes a message of the shell. -/
def report (s : State) (message : Word) : Routine Unit :=
  putLine 2 (s.name ++ [':', ' '] ++ Word.ofNat s.line ++ [':', ' '] ++ message)

/-- Writes a message that names what the commands were read from. -/
def remark (s : State) (message : Word) : Routine Unit :=
  report s ((s.context.map (· ++ [':', ' '])).getD [] ++ message)

/-- The shell with a status. -/
def State.withStatus (s : State) (n : Nat) : State := { s with status := n }

/-- Ends a command with a status. -/
def finish (s : State) (n : Nat) : Routine (State × Flow) := pure (s.withStatus n, .next)

/-- Ends a command with a message. -/
def refuse (s : State) (name message : Word) (status : Nat) : Routine (State × Flow) := do
  report s (name ++ [':', ' '] ++ message)
  finish s status

/-- Ends the shell with a message about a command. -/
def reject (s : State) (name message : Word) : Routine (State × Flow) := do
  report s (name ++ [':', ' '] ++ message)
  pure (s.withStatus 2, .fault)

/-- Ends the shell with a message. -/
def abort (s : State) (message : Word) : Routine (State × Flow) := do
  remark s message
  pure (s.withStatus 2, .fault)

/-- Writes the output of a command and ends it. -/
def answer (s : State) (name out : Word) (status : Nat) : Routine (State × Flow) := do
  match ← put 1 out with
  | .ok () => finish s status
  | .error _ => refuse s name (name ++ Word.lit ": I/O error") 1

/-! ## Operands -/

/-- A number of at most 31 bits. -/
def smallNumber? (w : Word) : Option Nat := (Word.nat? w).filter (· < 0x80000000)

/-- The complaint about a word that is no number. -/
def illegalNumber (w : Word) : Word := Word.lit "Illegal number: " ++ w

/-- The complaint about an option. -/
def illegalOption (c : Char) : Word := Word.lit "Illegal option -" ++ [c]

/-- The complaint about a word that is no name. -/
def badName (w : Word) : Word := w ++ Word.lit ": bad variable name"

/-- Whether a word is a name. -/
def isName (w : Word) : Bool :=
  w.head?.any (fun c => c.isAlpha || c = '_') && w.all fun c => c.isAlphanum || c = '_'

/-- A text in quotes, so that a shell reads it back: a run of single quotes stands in double
ones. -/
def inQuotes (w : Word) : Word := go (w.length + 1) w
where
  /-- Goes through the text; there is at least one part in single quotes. -/
  go : Nat → Word → Word
  | 0, _ => []
  | fuel + 1, w =>
    let plain := w.takeWhile (· ≠ '\'')
    let rest := w.drop plain.length
    let marks := rest.takeWhile (· = '\'')
    let behind := rest.drop marks.length
    '\'' :: plain ++ ['\''] ++
      if marks.isEmpty then []
      else '"' :: marks ++ ['"'] ++ if behind.isEmpty then [] else go fuel behind

/-- The letters of the options in front of the operands, and the operands.  An option that is not
known is given back. -/
def readLetters (known : String) : Word → List Word → Except Char (Word × List Word)
  | done, [] => .ok (done, [])
  | done, w :: rest =>
    match w with
    | ['-', '-'] => .ok (done, rest)
    | '-' :: c :: cs =>
      match (c :: cs).find? fun c => !known.toList.contains c with
      | some c => .error c
      | none => readLetters known (done ++ c :: cs) rest
    | _ => .ok (done, w :: rest)

end Conformance.Machine.Shell
