import Conformance.Machine.Shell.Builtin.Input
import Conformance.Machine.Shell.Builtin.Processes
import Conformance.Machine.Shell.Builtin.Variables
import Conformance.Machine.Shell.Reader

/-!
# The commands of a shell by name

The commands that a shell runs itself, and what a name stands for as a command.  Commands that read
commands in their turn belong to the interpreter.
-/

namespace Conformance.Machine.Shell.Builtin

open Routine

/-- The commands by name. -/
def table : List (String × Builtin) :=
  [(":", succeed), ("true", succeed), ("false", fail), ("echo", echo), ("printf", printf),
    ("test", test), ("[", test), ("read", read), ("shift", shift), ("set", set),
    ("export", publish), ("readonly", readonly), ("local", ownVariables), ("unset", unset),
    ("alias", aliases), ("unalias", forgetAliases), ("getopts", getopts), ("exit", exit),
    ("return", giveBack), ("break", jump .leave), ("continue", jump .again), ("kill", kill),
    ("wait", wait), ("jobs", jobs), ("fg", resume), ("bg", resume), ("cd", cd), ("chdir", cd),
    ("pwd", pwd), ("trap", trap), ("times", times), ("ulimit", ulimit), ("umask", umask)]

/-- The commands of the interpreter. -/
def interpreted : List String := ["eval", ".", "exec", "command", "type", "hash"]

/-- The command of a name. -/
def find? (name : Word) : Option Builtin := (table.find? fun (n, _) => n.toList == name).map (·.2)

/-- Whether a fault of the command ends the shell. -/
def isSpecial (name : Word) : Bool :=
  [":", "set", "shift", "export", "readonly", "local", "unset", "exit", "return", "break",
    "continue", "trap", "times", "eval", "exec", "."].any (·.toList == name)

/-- Whether the operands of the command are assignments. -/
def isDeclaration (name : Word) : Bool :=
  ["export", "readonly", "local"].any (·.toList == name)

/-! ## What a name stands for -/

/-- What a name stands for as a command. -/
inductive Meaning
  | keyword
  | aliased (text : Word)
  | function
  | builtin (special : Bool)
  | program (path : Word)
  | nothing

/-- The first path that leads to a file which may be run. -/
def firstProgram : List Word → Routine (Option Word)
  | [] => pure none
  | c :: cs => do
    match ← inspect (Word.toPath c) true with
    | .ok (.program _) | .ok (.file _ true) => pure (some c)
    | _ => firstProgram cs

/-- The path of the program of a name. -/
def programOf (s : State) (name : Word) : Routine (Option Word) :=
  if name.contains '/' then do
    match ← inspect (Word.toPath name) true with
    | .ok _ => pure (some name)
    | .error _ => pure none
  else
    let path := (s.value? (Word.lit "PATH")).getD []
    firstProgram (Search.candidates [(Word.lit "PATH", path)] name)

/-- What a name stands for. -/
def meaning (s : State) (name : Word) : Routine Meaning := do
  if reserved.any (·.toList == name) then pure .keyword
  else
    match s.aliases.find? (·.1 == name) with
    | some (_, text) => pure (.aliased text)
    | none =>
      if s.functions.any (·.1 == name) then pure .function
      else if (find? name).isSome || interpreted.any (·.toList == name) then
        pure (.builtin (isSpecial name))
      else
        match ← programOf s name with
        | some path => pure (.program path)
        | none => pure .nothing

/-- The sentence about what a name stands for. -/
def Meaning.sentence (name : Word) : Meaning → Word
  | keyword => name ++ Word.lit " is a shell keyword\n"
  | aliased text => name ++ Word.lit " is an alias for " ++ text ++ ['\n']
  | function => name ++ Word.lit " is a shell function\n"
  | builtin special =>
    name ++ Word.lit (if special then " is a special shell builtin\n" else " is a shell builtin\n")
  | program path => name ++ Word.lit " is " ++ path ++ ['\n']
  | nothing => name ++ Word.lit ": not found\n"

/-- What a shell would run for a name, in short. -/
def Meaning.brief (name : Word) : Meaning → Word
  | keyword | function | builtin _ => name ++ ['\n']
  | aliased text => Word.lit "alias " ++ name ++ '=' :: inQuotes text ++ ['\n']
  | program path => path ++ ['\n']
  | nothing => []

/-- Says what names stand for. -/
def describeAll (tell : Word → Meaning → Word) (s : State) : List Word → Nat →
    Routine (State × Flow)
  | [], code => finish s code
  | name :: rest, code => do
    let m ← meaning s name
    let _ ← put 1 (tell name m)
    describeAll tell s rest (if m matches .nothing then 127 else code)

/-- Says what names stand for as commands. -/
def type : Builtin := fun args s => describeAll (fun n m => m.sentence n) s args.tail 0

/-- Looks for the programs of names. -/
def hashAll (s : State) : List Word → Nat → Routine (State × Flow)
  | [], code => finish s code
  | name :: rest, code => do
    match ← meaning s name with
    | .nothing =>
      report s (Word.lit "hash: " ++ name ++ Word.lit ": not found")
      hashAll s rest 1
    | .program _ => hashAll { s with found := s.found.filter (· ≠ name) ++ [name] } rest code
    | _ => hashAll s rest code

/-- Writes the paths of the programs that were found. -/
def writeFound (s : State) : List Word → Routine (State × Flow)
  | [] => finish s 0
  | name :: rest => do
    match ← programOf s name with
    | some path => putLine 1 path
    | none => pure ()
    writeFound s rest

/-- Lists the programs that were found, looks for others, or forgets them. -/
def hash : Builtin := fun args s =>
  match readLetters "rv" [] args.tail with
  | .error c => refuse s (args.headD []) (illegalOption c) 2
  | .ok (letters, names) =>
    if letters.contains 'r' then finish { s with found := [] } 0
    else if names.isEmpty then writeFound s s.found
    else hashAll s names 0

end Conformance.Machine.Shell.Builtin
