import Conformance.Path.Basic
import Conformance.Text.Blank

/-!
# Invocations

An invocation is a program with its leading arguments.  It is read from a command line by cutting
it into words; no quoting is known, so a program or an argument that holds a blank can be built
but not written.  A program is a path and may be any bytes; a program that is built or read from a
text is the encoding of that text, and arguments are texts.
-/

namespace Conformance

/-- A program and the arguments that it is given first. -/
structure Invocation where
  program : Path
  args : List Text
  deriving DecidableEq, Repr

namespace Invocation

/-- A program without arguments. -/
def ofProgram (program : Text) : Invocation := ⟨.ofText program, []⟩

/-- One more argument at the end. -/
def withArg (i : Invocation) (arg : Text) : Invocation := { i with args := i.args ++ [arg] }

/-- More arguments at the end. -/
def withArgs (i : Invocation) (args : List Text) : Invocation := { i with args := i.args ++ args }

/-- The first word is the program and the others are its arguments; a line without words is no
invocation. -/
def parse? (line : Text) : Option Invocation :=
  match line.words with
  | [] => none
  | program :: args => some ⟨.ofText program, args⟩

/-- What is said of a line that holds no invocation. -/
def emptyMessage : Text := "empty command".toList

/-- The program and the arguments with a space between neighbours. -/
def display (i : Invocation) : Text := Text.join [' '] (i.program.shown :: i.args)

/-- Whether two invocations run the same command; programs count as paths. -/
def same (i j : Invocation) : Bool := i.program.same j.program && i.args == j.args

/-- The program and all arguments of a run as they are handed over to the system, with the source
file as the last argument if there is one. -/
def command (i : Invocation) (source : Option Path) : List UInt8 × List (List UInt8) :=
  (i.program.bytes, i.args.map Utf8.encode ++ (source.map (·.bytes)).toList)

/-- Whether a word can be handed over to the system; one that holds a zero byte cannot. -/
def passable (word : List UInt8) : Bool := word.all (· ≠ 0)

/-- A word as it stands in a command that is ready to be started: a word that cannot be handed over
has given way to a sign of it. -/
def shownWord (word : List UInt8) : Text :=
  if passable word then Utf8.lossy word else "<string-with-nul>".toList

end Invocation

end Conformance
