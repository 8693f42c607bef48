import Conformance.Machine.Tool.Basic

/-!
# Finding programs

A program whose name holds a slash is that file; every other name is looked for in the directories
of the search path.  No program has an empty name.
-/

namespace Conformance.Machine.Search

/-- The search path that is used if the environment has none. -/
def defaultPath : Word := Word.lit "/bin:/usr/bin"

/-- The paths under which a program may be found, in order. -/
def candidates (env : Environment) (program : Word) : List Word :=
  if program.isEmpty then []
  else if program.contains '/' then [program]
  else
    let path := ((env.find? fun (n, _) => n == Word.lit "PATH").map (·.2)).getD defaultPath
    (path.splitOn ':').map fun dir => if dir.isEmpty then program else dir ++ '/' :: program

/-- The shell that runs files which are programs by permission alone. -/
def shell : Word := Word.lit "/bin/sh"

/-- Becomes the first candidate that can be run, or the shell on it if it is no program by its
content; otherwise the fault that counts: one that says more than that there is no such file. -/
def execute (args : List Word) (env : Environment) (worst : SystemFault) :
    List Word → Routine SystemFault
  | [] => pure worst
  | c :: cs => do
    let e ← Routine.execute (Word.toPath c) args env
    match e with
    | .code 2 | .code 20 => execute args env worst cs
    | .code 8 =>
      let e ← Routine.execute (Word.toPath shell) (shell :: c :: args.drop 1) env
      execute args env e cs
    | e => execute args env e cs

end Conformance.Machine.Search
