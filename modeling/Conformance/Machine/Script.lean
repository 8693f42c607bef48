import Conformance.Capture
import Conformance.Files.Lookup

/-!
# What a process does

A process is its future: the next call that it makes to the system and, for every reply, what it
does then.  A `Routine` is a part of a future; one that may go on for ever
is given fuel by the program that it belongs to.

A process deals in bytes.  A `Word` holds one byte a character, so that programs can be written
with character patterns; `Word.ofName`, `Word.toPath` and `Word.toBytes` cross the border.
-/

namespace Conformance.Machine

/-- Bytes, one a character. -/
abbrev Word := List Char

namespace Word

/-- The bytes of a name or a path as a word. -/
def ofName (n : List UInt8) : Word := n.map fun b => Char.ofNat b.toNat

/-- The UTF-8 bytes of a text. -/
def ofText (t : Text) : Word := ofName (Utf8.encode t)

/-- Bytes as a word. -/
def ofBytes (b : ByteArray) : Word := b.toList.map fun x => Char.ofNat x.toNat

/-- A word as bytes. -/
def toBytes (w : Word) : ByteArray := w.foldl (fun b c => b.push c.toNat.toUInt8) .empty

/-- The path that a word holds. -/
def toPath (w : Word) : Path := ⟨w.map (·.toNat.toUInt8)⟩

end Word

/-- What a file is opened for. -/
inductive OpenMode
  | read
  | write
  | append
  /-- Reads and writes, and keeps what is there. -/
  | update
  deriving DecidableEq, Repr

/-- A change of the file tree. -/
inductive Change
  | makeDirectory (path : Path)
  | makeFifo (path : Path)
  /-- Makes a symbolic link. -/
  | link (target path : Path)
  /-- Gives a file a second name. -/
  | rename (source path : Path) (keep : Bool)
  | remove (path : Path)
  | removeDirectory (path : Path)
  /-- Says whether a file may be run. -/
  | permit (path : Path) (executable : Bool)
  /-- Cuts or lengthens a file to a number of bytes. -/
  | resize (path : Path) (size : Nat)
  deriving DecidableEq, Repr

/-- What a signal does to a process. -/
inductive Reaction
  | usual
  | ignored
  /-- The process is told of it. -/
  | noted
  deriving DecidableEq, Repr

/-- How long a process waits for a child. -/
inductive Waiting
  | untilEnd
  /-- Also until a signal is noted. -/
  | untilSignal
  | notAtAll
  deriving DecidableEq, Repr

/-- What comes of waiting for a child. -/
inductive Waited
  | ended (status : ExitStatus)
  | noChild
  | running
  /-- A signal was noted before the child ended. -/
  | interrupted (signal : Nat)

/-- What an open file is; one in the file tree has its place and its size. -/
inductive FileKind
  | regular (place : List Name) (size : Nat)
  | directory
  | pipe
  | device
  deriving DecidableEq, Repr

/-- A variable of the environment: its name and its value. -/
abbrev Environment := List (Word × Word)

/-- The future of a process. -/
inductive Script
  /-- Ends with an exit code. -/
  | exit (code : Nat)
  /-- Does work of its own. -/
  | compute (next : Unit → Script)
  /-- Reads at most `limit` bytes; none at the end of the input. -/
  | read (file limit : Nat) (next : Except SystemFault ByteArray → Script)
  /-- Reads up to the next line feed at most, and it too. -/
  | readLine (file : Nat) (next : Except SystemFault ByteArray → Script)
  /-- Writes all bytes. -/
  | write (file : Nat) (content : ByteArray) (next : Except SystemFault Unit → Script)
  /-- Opens a file under the least free number. -/
  | openFile (path : Path) (mode : OpenMode) (next : Except SystemFault Nat → Script)
  /-- Closes an open file. -/
  | close (file : Nat) (next : Unit → Script)
  /-- Makes one number stand for the open file of another. -/
  | duplicate (source target : Nat) (next : Except SystemFault Unit → Script)
  /-- Gives an open file a second number, the least free one from `least` on. -/
  | duplicateFrom (source least : Nat) (next : Except SystemFault Nat → Script)
  /-- Asks what an open file is. -/
  | kindOf (file : Nat) (next : Option FileKind → Script)
  /-- Makes a pipe: the number to read from and the number to write to. -/
  | pipe (next : Nat × Nat → Script)
  /-- Starts a child that shares the open files. -/
  | fork (child : Script) (next : Nat → Script)
  /-- Becomes another program; goes on only if that fails. -/
  | execute (program : Path) (args : List Word) (env : Environment) (next : SystemFault → Script)
  /-- Waits for a child to end. -/
  | wait (child : Nat) (waiting : Waiting) (next : Waited → Script)
  /-- Sends a signal; false if there is no such process. -/
  | signal (target number : Nat) (next : Bool → Script)
  /-- Sets what a signal does to the process. -/
  | arrange (number : Nat) (reaction : Reaction) (next : Unit → Script)
  /-- Takes the signals that were noted. -/
  | takeNoted (next : List Nat → Script)
  /-- Changes the file tree. -/
  | change (request : Change) (next : Except SystemFault Unit → Script)
  /-- Lets time pass. -/
  | sleep (nanos : Nat) (next : Unit → Script)
  /-- Looks for a file: its place, and what it is. -/
  | locate (path : Path) (followLast : Bool)
      (next : Except SystemFault (List Name × Node) → Script)
  /-- Asks for the number of the process and that of its parent. -/
  | identity (next : Nat × Nat → Script)
  /-- Makes a directory the working directory, and tells its place. -/
  | enter (path : Path) (next : Except SystemFault (List Name) → Script)

instance : Inhabited Script := ⟨.exit 0⟩

/-- A part of a future that gives a value to the rest of it. -/
def Routine (α : Type) : Type := (α → Script) → Script

namespace Routine

instance : Monad Routine where
  pure a := fun next => next a
  bind t f := fun next => t fun a => f a next

/-! Each call as a routine. -/

def exit {α : Type} (code : Nat) : Routine α := fun _ => Script.exit code
def compute : Routine Unit := Script.compute
def read (file limit : Nat) : Routine (Except SystemFault ByteArray) := Script.read file limit
def readLine (file : Nat) : Routine (Except SystemFault ByteArray) := Script.readLine file
def write (file : Nat) (content : ByteArray) : Routine (Except SystemFault Unit) :=
  Script.write file content
def openFile (path : Path) (mode : OpenMode) : Routine (Except SystemFault Nat) :=
  Script.openFile path mode
def close (file : Nat) : Routine Unit := Script.close file
def duplicate (source target : Nat) : Routine (Except SystemFault Unit) :=
  Script.duplicate source target
def duplicateFrom (source least : Nat) : Routine (Except SystemFault Nat) :=
  Script.duplicateFrom source least
def kindOf (file : Nat) : Routine (Option FileKind) := Script.kindOf file
def pipe : Routine (Nat × Nat) := Script.pipe
def fork (child : Script) : Routine Nat := Script.fork child
def execute (program : Path) (args : List Word) (env : Environment) : Routine SystemFault :=
  Script.execute program args env
def wait (child : Nat) (waiting : Waiting) : Routine Waited := Script.wait child waiting
def arrange (number : Nat) (reaction : Reaction) : Routine Unit := Script.arrange number reaction
def takeNoted : Routine (List Nat) := Script.takeNoted
def change (request : Change) : Routine (Except SystemFault Unit) := Script.change request
def signal (target number : Nat) : Routine Bool := Script.signal target number
def sleep (nanos : Nat) : Routine Unit := Script.sleep nanos
def locate (path : Path) (followLast : Bool) : Routine (Except SystemFault (List Name × Node)) :=
  Script.locate path followLast
def identity : Routine (Nat × Nat) := Script.identity
def enter (path : Path) : Routine (Except SystemFault (List Name)) := Script.enter path

/-- The whole future of a routine that ends in an exit code. -/
def script (t : Routine Nat) : Script := t Script.exit

/-- Looks at a file. -/
def inspect (path : Path) (followLast : Bool) : Routine (Except SystemFault Node) := do
  let r ← locate path followLast
  pure (r.map (·.2))

/-- Writes a word. -/
def put (file : Nat) (w : Word) : Routine (Except SystemFault Unit) :=
  if w.isEmpty then pure (.ok ()) else write file w.toBytes

/-- Writes a line. -/
def putLine (file : Nat) (w : Word) : Routine Unit := do
  let _ ← put file (w ++ ['\n'])

end Routine

end Conformance.Machine
