import Conformance.Console.Program
import Conformance.Files.Listing
import Conformance.Machine.Desk

/-!
The command line.  The file tree that it works on is read as a listing from the standard input.
-/

namespace Conformance

/-- Reads an input to its end. -/
partial def readAll (input : IO.FS.Stream) (done : String) : IO String := do
  let line ← input.getLine
  if line.isEmpty then return done else readAll input (done ++ line)

end Conformance

open Conformance in
/-- Runs the program on its arguments. -/
def main (args : List String) : IO UInt32 := do
  let listing ← readAll (← IO.getStdin) ""
  let files := Machine.Programs.system.withEntries (Listing.read listing.toList)
  match runProgram Machine.Desk.runner files (args.map String.toList)
      (some (Machine.Desk.ofFiles files)) with
  | (_, none) => throw (IO.userError "a run has not come to its end")
  | (printed, some _) =>
    (← IO.getStdout).putStr (String.ofList printed.stdout)
    (← IO.getStderr).putStr (String.ofList printed.stderr)
    return printed.exitCode.toUInt32
