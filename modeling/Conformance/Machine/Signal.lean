import Conformance.Machine.Tool.Basic

/-!
# Signals

The names of the signals, and how the end of a process by a signal is described.
-/

namespace Conformance.Machine.Signal

/-- The signals from number one on: their names and their descriptions. -/
def table : List (String × String) :=
  [("HUP", "Hangup"), ("INT", "Interrupt"), ("QUIT", "Quit"), ("ILL", "Illegal instruction"),
    ("TRAP", "Trace/breakpoint trap"), ("ABRT", "Aborted"), ("BUS", "Bus error"),
    ("FPE", "Floating point exception"), ("KILL", "Killed"), ("USR1", "User defined signal 1"),
    ("SEGV", "Segmentation fault"), ("USR2", "User defined signal 2"), ("PIPE", "Broken pipe"),
    ("ALRM", "Alarm clock"), ("TERM", "Terminated"), ("STKFLT", "Stack fault"),
    ("CHLD", "Child exited"), ("CONT", "Continued"), ("STOP", "Stopped (signal)"),
    ("TSTP", "Stopped"), ("TTIN", "Stopped (tty input)"), ("TTOU", "Stopped (tty output)"),
    ("URG", "Urgent I/O condition"), ("XCPU", "CPU time limit exceeded"),
    ("XFSZ", "File size limit exceeded"), ("VTALRM", "Virtual timer expired"),
    ("PROF", "Profiling timer expired"), ("WINCH", "Window changed"), ("POLL", "I/O possible"),
    ("PWR", "Power failure"), ("SYS", "Bad system call")]

/-- The number of a signal that is given by its number or its name. -/
def number? (w : Word) : Option Nat :=
  match Word.nat? w with
  | some n => if n ≤ 64 then some n else none
  | none =>
    if w.map Char.toUpper = Word.lit "EXIT" then some 0
    else (table.findIdx? fun (name, _) => name.toList == w.map Char.toUpper).map (· + 1)

/-- The names of the signals, those of the real-time signals behind the others. -/
def names : List Word :=
  table.map (fun (n, _) => n.toList) ++ [Word.lit "32", Word.lit "33", Word.lit "RTMIN"] ++
    (List.range 15).map (fun i => Word.lit "RTMIN+" ++ Word.ofNat (i + 1)) ++
    (List.range 14).map (fun i => Word.lit "RTMAX-" ++ Word.ofNat (14 - i)) ++ [Word.lit "RTMAX"]

/-- The name of a signal. -/
def name? (n : Nat) : Option Word := if n = 0 then none else names[n - 1]?

/-- The description of a signal. -/
def description (n : Nat) : Word :=
  match table[n - 1]? with
  | some (_, d) => d.toList
  | none => Word.lit "Unknown signal " ++ Word.ofNat n

/-- The exit code that a shell gives to the end of a process. -/
def exitCode (s : ExitStatus) : Nat := s.code?.getD (128 + s.signal)

end Conformance.Machine.Signal
