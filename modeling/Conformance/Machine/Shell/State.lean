import Conformance.Machine.Shell.Grammar

/-!
# The state of a shell

Variables, parameters, options and what else a shell remembers from one command to the next.
-/

namespace Conformance.Machine.Shell

/-- A variable: its value, if it has one, whether it is handed to the programs that are run, and
whether it can no longer be changed. -/
structure Variable where
  name : Word
  value : Option Word
  exported : Bool
  fixed : Bool

/-- A command in the background: its number, its process, and its exit code once it is known. -/
structure Job where
  number : Nat
  id : Nat
  ended : Option ExitStatus
  /-- Whether it was waited for after it had ended. -/
  spent : Bool

/-- What is kept while a function runs: the variables as they were before they became its own, and
the options if they are its own too. -/
structure Frame where
  hidden : List (Word × Option Variable)
  options : Option (List Char)

/-- The state of a shell. -/
structure State where
  /-- The name under which the shell runs: the parameter zero. -/
  name : Word
  positional : List Word
  bindings : List Variable
  functions : List (Word × Command)
  aliases : List (Word × Word)
  status : Nat
  /-- The status of the last command substitution. -/
  substituted : Nat
  /-- The process number of the shell. -/
  id : Nat
  /-- The commands in the background, the last one first. -/
  jobs : List Job
  /-- The process number of the command that was last put into the background. -/
  lastBackground : Option Nat
  /-- The letters of the options that are on. -/
  options : List Char
  /-- The commands that are run when the shell ends. -/
  atExit : Option Word
  /-- What is done about signals: nothing for an empty text. -/
  traps : List (Nat × Word)
  /-- What is kept for each function that is run, the last one first. -/
  frames : List Frame
  /-- How far the options in the current argument of `getopts` have been read. -/
  optionOffset : Option Nat
  /-- The names of the programs that were found. -/
  found : List Word
  /-- The permissions that new files are not given. -/
  mask : Nat
  /-- What the commands that are run were read from, if it is named in messages. -/
  context : Option Word
  line : Nat
  /-- The number of loops around the command that is run. -/
  loops : Nat

namespace State

/-! ## Options -/

/-- The options by name, with their letters if they have one. -/
def optionNames : List (String × Option Char) :=
  [("errexit", some 'e'), ("noglob", some 'f'), ("ignoreeof", some 'I'), ("interactive", some 'i'),
    ("monitor", some 'm'), ("noexec", some 'n'), ("stdin", some 's'), ("xtrace", some 'x'),
    ("verbose", some 'v'), ("vi", some 'V'), ("emacs", some 'E'), ("noclobber", some 'C'),
    ("allexport", some 'a'), ("notify", some 'b'), ("nounset", some 'u'),
    ("privileged", some 'p'), ("nolog", none), ("debug", none)]

/-- Whether an option is on. -/
def has (s : State) (c : Char) : Bool := s.options.contains c

/-- Turns an option on or off. -/
def setOption (on : Bool) (c : Char) (s : State) : State :=
  let others := s.options.filter (· ≠ c)
  { s with options := if on then c :: others else others }

/-- The letters of the options that are on, the last option first. -/
def optionLetters (s : State) : Word :=
  (optionNames.filterMap (·.2)).reverse.filter s.has

/-! ## Variables -/

/-- The variable of a name. -/
def binding? (s : State) (name : Word) : Option Variable :=
  s.bindings.find? (·.name == name)

/-- The value of a variable. -/
def value? (s : State) (name : Word) : Option Word := (s.binding? name).bind (·.value)

/-- Whether a variable can no longer be changed. -/
def isFixed (s : State) (name : Word) : Bool := (s.binding? name).any (·.fixed)

/-- Changes a variable, or adds it behind the others. -/
def setVariable (s : State) (v : Variable) : State :=
  { s with
    bindings :=
      if s.bindings.any (·.name == v.name) then
        s.bindings.map fun w => if w.name == v.name then v else w
      else s.bindings ++ [v] }

/-- Gives a variable a value. -/
def assign (s : State) (name value : Word) : State :=
  let old := s.binding? name
  let exported := (old.map (·.exported)).getD false || s.has 'a'
  let s := if name = Word.lit "OPTIND" then { s with optionOffset := none } else s
  s.setVariable ⟨name, some value, exported, (old.map (·.fixed)).getD false⟩

/-- Marks a variable for the programs that are run. -/
def publish (s : State) (name : Word) : State :=
  s.setVariable ⟨name, s.value? name, true, s.isFixed name⟩

/-- Lets a variable be changed no more. -/
def fix (s : State) (name : Word) : State :=
  s.setVariable ⟨name, s.value? name, ((s.binding? name).map (·.exported)).getD false, true⟩

/-- Forgets a variable. -/
def unset (s : State) (name : Word) : State :=
  { s with bindings := s.bindings.filter (·.name != name) }

/-- Puts a variable back as it was. -/
def putBack (s : State) (name : Word) : Option Variable → State
  | some v => s.setVariable v
  | none => s.unset name

/-- The state with some variables as they were before. -/
def restore (names : List Word) (before s : State) : State :=
  names.foldl (fun s n => s.putBack n (before.binding? n)) s

/-- The number of shelves on which a shell keeps its variables. -/
def shelves : Nat := 39

/-- The shelf of a name. -/
def shelf (name : Word) : Nat :=
  (name.foldl (fun n c => n + c.toNat) ((name.headD '\x00').toNat * 16)) % shelves

/-- The environment of the programs that are run, shelf by shelf. -/
def environment (s : State) : Environment :=
  let marked := s.bindings.filterMap fun v =>
    if v.exported then v.value.map fun w => (v.name, w) else none
  (List.range shelves).flatMap fun n => marked.filter fun (name, _) => shelf name = n

/-- The characters at which fields are cut. -/
def separators (s : State) : Word := (s.value? (Word.lit "IFS")).getD [' ', '\t', '\n']

/-- The value of a parameter that stands for one word. -/
def parameter? (s : State) (name : Word) : Option Word :=
  match name with
  | ['#'] => some (Word.ofNat s.positional.length)
  | ['?'] => some (Word.ofNat s.status)
  | ['$'] => some (Word.ofNat s.id)
  | ['!'] => s.lastBackground.map Word.ofNat
  | ['-'] => some s.optionLetters
  | _ =>
    match Word.nat? name with
    | some 0 => some s.name
    | some (n + 1) => s.positional[n]?
    | none => s.value? name

/-! ## Functions and signals -/

/-- The state at the beginning of a function. -/
def enterFunction (s : State) (positional : List Word) : State :=
  { s with positional, frames := ⟨[], none⟩ :: s.frames, optionOffset := none }

/-- The state after a function; `before` is the state that it was called in. -/
def leaveFunction (before s : State) : State :=
  let own := s.frames.headD ⟨[], none⟩
  let s := own.hidden.foldl (fun s (name, v) => s.putBack name v) s
  { s with
    options := own.options.getD s.options
    positional := before.positional, frames := before.frames
    optionOffset := before.optionOffset }

/-- What is done about a signal, if it is noted at all. -/
def action? (s : State) (number : Nat) : Option Word :=
  ((s.traps.find? (·.1 == number)).map (·.2)).filter (!·.isEmpty)

/-- Whether something is done about signals, or at the end of the shell. -/
def hasTraps (s : State) : Bool :=
  s.atExit.any (!·.isEmpty) || s.traps.any fun (_, action) => !action.isEmpty

/-- The state of a shell in a process of its own. -/
def inChild (s : State) : State :=
  { s with
    atExit := none, jobs := []
    traps := s.traps.filter fun (_, action) => action.isEmpty }

/-! ## Commands in the background -/

/-- The least number that no command in the background has, or the number of one that is spent and
comes before it. -/
def freeNumber (s : State) : Nat :=
  ((List.range (s.jobs.length + 1)).map (· + 1)).find? (fun n =>
    !s.jobs.any fun j => j.number == n && !j.spent) |>.getD 0

/-- The state in which a place for one more process was found: a spent command there is
forgotten. -/
def withPlace (s : State) : State :=
  { s with jobs := s.jobs.filter (·.number != s.freeNumber) }

/-- The state with one more command in the background. -/
def addJob (s : State) (id : Nat) : State :=
  { s with
    jobs := ⟨s.freeNumber, id, none, false⟩ :: s.withPlace.jobs, lastBackground := some id }

/-- The state in which it is known how a command in the background ended. -/
def endJob (s : State) (id : Nat) (status : ExitStatus) : State :=
  { s with jobs := s.jobs.map fun j => if j.id = id then { j with ended := some status } else j }

/-! ## New shells -/

/-- The search path of a shell that was given none. -/
def searchPath : Word := Word.lit "/usr/local/sbin:/usr/local/bin:/usr/sbin:/usr/bin:/sbin:/bin"

/-- A new shell. -/
def initial (name : Word) (positional : List Word) (env : Environment) (id parent : Nat)
    (directory : Word) (options : List Char) : State :=
  let own (n : String) (v : Word) : Variable := ⟨Word.lit n, some v, false, false⟩
  let given := env.filter fun (n, _) => n ≠ Word.lit "OPTIND" && n ≠ Word.lit "PPID"
  { name, positional, functions := [], aliases := [], status := 0, substituted := 0, id
    jobs := [], lastBackground := none, options, atExit := none, traps := [], frames := []
    optionOffset := none, found := [], mask := 18, context := none, line := 1, loops := 0
    bindings :=
      let standard :=
        [own "IFS" [' ', '\t', '\n'], own "PATH" searchPath, own "PS1" ['#', ' '],
          own "PS2" ['>', ' '], own "PS4" ['+', ' '], own "OPTIND" ['1']]
      let shared := standard.reverse.map fun v =>
        match given.find? (·.1 == v.name) with
        | some (_, w) => { v with value := some w, exported := true }
        | none => v
      let others := given.filter fun (n, _) =>
        n ≠ Word.lit "PWD" && !standard.any (·.name == n)
      shared ++ (others.map fun (n, v) => ⟨n, some v, true, false⟩) ++
        [own "PPID" (Word.ofNat parent), ⟨Word.lit "PWD", some directory, true, false⟩] }

end State

end Conformance.Machine.Shell
