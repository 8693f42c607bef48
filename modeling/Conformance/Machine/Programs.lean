import Conformance.Machine.Kernel
import Conformance.Machine.Shell.Interpreter
import Conformance.Machine.Tool.Edit
import Conformance.Machine.Tool.Lines
import Conformance.Machine.Tool.Listing
import Conformance.Machine.Tool.Progression
import Conformance.Machine.Tool.Select
import Conformance.Machine.Tool.Small
import Conformance.Machine.Tool.Streams
import Conformance.Machine.Tool.Test
import Conformance.Machine.Tool.Tree

/-!
# Programs

The programs of a standard system, the tree that they lie in, and how a file becomes the script of
a process.
-/

namespace Conformance.Machine

namespace Tool

/-- The variables that assignments in front of a program set. -/
def environmentWith : List Word → Environment → Environment × List Word
  | [], env => (env, [])
  | a :: rest, env =>
    let name := a.takeWhile (· ≠ '=')
    match a.drop name.length with
    | _ :: v => environmentWith rest ((name, v) :: env.filter (·.1 != name))
    | [] => (env, a :: rest)

/-- Runs a program in a changed environment, or writes the environment. -/
def env : Tool := fun args environment => do
  let (start, rest) :=
    match args.tail with
    | ['-', 'i'] :: rest => (([] : Environment), rest)
    | rest => (environment, rest)
  let (environment, command) := environmentWith rest start
  match command with
  | [] =>
    emit (args.headD []) (environment.flatMap fun (n, v) => n ++ '=' :: v ++ ['\n'])
    pure 0
  | program :: _ =>
    let e ← Search.execute command environment .noSuchFile (Search.candidates environment program)
    complain (args.headD []) (['\''] ++ program ++ Word.lit "': " ++ reason e)
    pure (if e = .noSuchFile ∨ e = .notDirectory then 127 else 126)

/-- Sends a signal to processes. -/
def kill : Tool := fun args _ => do
  let name := args.headD []
  match Shell.Builtin.killRequest args.tail with
  | .fault m => refuse name m 1
  | .names [] =>
    emit name (Signal.names.flatMap (· ++ ['\n']))
    pure 0
  | .names _ => pure 0
  | .send n pids =>
    match pids.mapM Word.nat? with
    | some ids => Shell.Builtin.signalAll (complain name) n ids 0
    | none => refuse name (Word.lit "failed to parse argument") 1

end Tool

namespace Programs

/-- The programs by name. -/
def table : List (String × Tool) :=
  [("[", Tool.test), ("basename", Tool.basename), ("cat", Tool.cat), ("chmod", Tool.chmod),
    ("cp", Tool.cp), ("cut", Tool.cut), ("dash", Shell.shell), ("dirname", Tool.dirname),
    ("echo", Tool.echo), ("egrep", Tool.egrep), ("env", Tool.env), ("false", Tool.fail),
    ("fgrep", Tool.fgrep), ("grep", Tool.grep), ("head", Tool.head), ("kill", Tool.kill),
    ("link", Tool.link), ("ln", Tool.ln), ("ls", Tool.ls), ("mkdir", Tool.mkdir), ("mkfifo", Tool.mkfifo),
    ("mktemp", Tool.mktemp), ("mv", Tool.mv), ("nl", Tool.nl), ("printf", Tool.printf),
    ("pwd", Tool.pwd), ("readlink", Tool.readlink), ("realpath", Tool.realpath), ("rev", Tool.rev),
    ("rm", Tool.rm), ("rmdir", Tool.rmdir), ("sed", Tool.sed), ("seq", Tool.seq),
    ("sh", Shell.shell), ("sleep", Tool.sleepFor), ("sort", Tool.sort), ("tac", Tool.tac),
    ("tail", Tool.tail), ("tee", Tool.tee), ("test", Tool.test), ("touch", Tool.touch),
    ("tr", Tool.tr), ("true", Tool.succeed), ("truncate", Tool.truncate), ("uniq", Tool.uniq),
    ("unlink", Tool.unlink), ("wc", Tool.wc), ("yes", Tool.yes)]

/-- The search path of the system. -/
def searchPath : Word :=
  Word.lit "/usr/local/sbin:/usr/local/bin:/usr/sbin:/usr/bin:/sbin:/bin"

/-- The environment in which processes are started. -/
def environment : Environment :=
  [(Word.lit "PATH", searchPath), (Word.lit "HOME", Word.lit "/root")]

/-- The place of the working directory. -/
def workingDirectory : List Name := [Utf8.encode "tmp".toList, Utf8.encode "work".toList]

/-- A directory of named nodes. -/
def directory (nodes : List (String × Node)) : Node :=
  .directory .full (nodes.foldr (fun (name, n) es => .cons (Utf8.encode name.toList) n es) .nil)

/-- The file tree of a system on which nothing has been stored yet; its user may do everything with
the directories. -/
def system : FileSystem where
  workingDirectory := workingDirectory
  root := directory
    [("bin", .link (.ofText "usr/bin".toList)), ("sbin", .link (.ofText "usr/sbin".toList)),
      ("usr", directory
        [("bin", directory (table.map fun (name, _) => (name, .program name.toList))),
          ("sbin", directory []),
          ("local", directory [("bin", directory []), ("sbin", directory [])])]),
      ("dev", directory
        [("null", .device .null), ("zero", .device .zero), ("stdin", .device (.descriptor 0)),
          ("stdout", .device (.descriptor 1)), ("stderr", .device (.descriptor 2)),
          ("fd", directory ((List.range 10).map fun n =>
            (String.ofList (Word.ofNat n), .device (.descriptor n))))]),
      ("etc", directory []), ("root", directory []), ("tmp", directory [("work", directory [])])]

/-! ## Starting a program -/

/-- The interpreter that the first line of a file names, with the argument that follows it. -/
def interpreter? (content : Word) : Option (Word × Option Word) :=
  match content with
  | '#' :: '!' :: rest =>
    let blank (c : Char) : Bool := c = ' ' || c = '\t'
    let line := (rest.takeWhile (· ≠ '\n')).dropWhile blank
    let line := (line.reverse.dropWhile blank).reverse
    let name := line.takeWhile fun c => !blank c
    let argument := (line.drop name.length).dropWhile blank
    if name.isEmpty then none
    else some (name, if argument.isEmpty then none else some argument)
  | _ => none

/-- The number of interpreters that may be interpreted in their turn. -/
def interpreterLimit : Nat := 6

/-- The number of bytes at the front of a file among which an interpreter is looked for. -/
def interpreterLineLimit : Nat := 255

/-- Starts the program at a path; a file that names an interpreter is given to it. -/
def loadFrom (fuel : Nat) (fs : FileSystem) (path : Path) (args : List Word) (env : Environment) :
    Except SystemFault Script :=
  match fs.resolve path true, fuel with
  | .error e, _ => .error e
  | .ok (_, .program _), 0 | .ok (_, .file _ true), 0 => .error .tooManyLinks
  | .ok (_, .program name), _ + 1 =>
    match table.find? fun (n, _) => n.toList == name with
    | some (_, tool) => .ok (Routine.script (tool args env))
    | none => .error .noExecFormat
  | .ok (_, .file content true), fuel + 1 =>
    match interpreter? (Word.ofBytes (content.extract 0 interpreterLineLimit)) with
    | none => .error .noExecFormat
    | some (name, argument) =>
      loadFrom fuel fs (Word.toPath name)
        (name :: argument.toList ++ Word.ofName path.bytes :: args.drop 1) env
  | .ok _, _ => .error .noPermission

/-- Starts the program at a path. -/
def load : Loader := loadFrom interpreterLimit

/-- Starts the first of some candidates that can be started.  Of their faults the last one counts,
unless one was not permitted; a fault other than that there is no such file ends the search. -/
def launch (fs : FileSystem) (args : List Word) (env : Environment) (denied : Bool)
    (last : SystemFault) : List Word → Except SystemFault Script
  | [] => .error (if denied then .noPermission else last)
  | c :: cs =>
    match load fs (Word.toPath c) args env with
    | .ok script => .ok script
    | .error e =>
      if e = .noPermission then launch fs args env true last cs
      else if e = .noSuchFile ∨ e = .notDirectory then launch fs args env denied e cs
      else .error e

end Programs

end Conformance.Machine
