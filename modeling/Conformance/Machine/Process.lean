import Conformance.Machine.Script

/-!
# Processes and open files

The parts of a machine: pipes with a bounded buffer, collectors whose bytes are read from outside,
open files, and processes with the numbers under which they know them.
-/

namespace Conformance.Machine

/-- The bytes in a pipe from `start` on. -/
structure Pipe where
  content : ByteArray
  start : Nat

namespace Pipe

/-- The number of bytes that a pipe holds at most. -/
def capacity : Nat := 65536

/-- Writes of at most this many bytes are not cut. -/
def atomicLimit : Nat := 4096

/-- A pipe that holds nothing. -/
def empty : Pipe := ⟨.empty, 0⟩

/-- The number of bytes in the pipe. -/
def size (p : Pipe) : Nat := p.content.size - p.start

/-- Takes bytes out at the front. -/
def take (p : Pipe) (n : Nat) : ByteArray × Pipe :=
  let stop := min p.content.size (p.start + n)
  let taken := p.content.extract p.start stop
  if stop = p.content.size then (taken, empty)
  else if stop > capacity then (taken, ⟨p.content.extract stop p.content.size, 0⟩)
  else (taken, { p with start := stop })

/-- Puts bytes in at the end. -/
def add (p : Pipe) (bytes : ByteArray) : Pipe := { p with content := p.content ++ bytes }

end Pipe

/-- The number of bytes, behind `n` known ones, up to the next line feed and it too. -/
def lineLengthFrom (b : ByteArray) (start n : Nat) : Nat → Nat
  | 0 => n
  | fuel + 1 =>
    if b.get! (start + n) == 10 then n + 1 else lineLengthFrom b start (n + 1) fuel

/-- The number of bytes from `start` up to the next line feed and it too, or up to the end. -/
def lineLength (b : ByteArray) (start : Nat) : Nat := lineLengthFrom b start 0 (b.size - start)

/-- What an open file leads to. -/
inductive Target
  | null
  | zero
  | reader (pipe : Nat)
  | writer (pipe : Nat)
  | collector (number : Nat)
  | file (place : List Name) (offset : Nat) (mode : OpenMode)
  | directory
  deriving Repr

/-- A process. -/
structure Process where
  id : Nat
  parent : Nat
  script : Script
  /-- The place of the working directory. -/
  directory : List Name
  /-- The numbers under which the process knows open files. -/
  files : List (Nat × Nat)
  /-- The time of its next call. -/
  wake : Nat
  /-- Whether its call waits for another process. -/
  blocked : Bool
  stopped : Bool
  ended : Option ExitStatus
  /-- The signals that do not do what they usually do. -/
  reactions : List (Nat × Reaction)
  /-- The signals that were noted, last first. -/
  noted : List Nat

namespace Process

/-- The open file under a number. -/
def file? (p : Process) (number : Nat) : Option Nat :=
  (p.files.find? (·.1 == number)).map (·.2)

/-- The least number from `least` on that stands for no open file. -/
def freeFrom (p : Process) (least : Nat) : Nat :=
  ((List.range (p.files.length + 1)).map (least + ·)).find?
    (fun n => (p.file? n).isNone) |>.getD least

/-- Lets a number stand for an open file. -/
def assign (p : Process) (number opened : Nat) : Process :=
  { p with files := (number, opened) :: p.files.filter (·.1 != number) }

/-- Lets a number stand for nothing. -/
def release (p : Process) (number : Nat) : Process :=
  { p with files := p.files.filter (·.1 != number) }

/-- What a signal does to the process. -/
def reaction (p : Process) (number : Nat) : Reaction :=
  ((p.reactions.find? (·.1 == number)).map (·.2)).getD .usual

/-- Whether the process can make a call. -/
def runnable (p : Process) : Bool := p.ended.isNone && !p.blocked && !p.stopped

end Process

end Conformance.Machine
