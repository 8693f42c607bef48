import Conformance.Machine.Shell.Builtin.Basic
import Conformance.Machine.Tool.Order

/-!
# Variables, parameters and options

The commands of a shell that change what it knows: its variables, positional parameters, options,
other names for commands, and the options of its programs.
-/

namespace Conformance.Machine.Shell.Builtin

open Routine

/-! ## Parameters -/

/-- Drops parameters from the front. -/
def shift : Builtin := fun args s =>
  let name := args.headD []
  match (args[1]?.map smallNumber?).getD (some 1) with
  | none => reject s name (illegalNumber (args.getD 1 []))
  | some n =>
    if n ≤ s.positional.length then finish { s with positional := s.positional.drop n } 0
    else reject s name (Word.lit "can't shift that many")

/-! ## Options of the shell -/

/-- What came of reading the options of a shell. -/
structure OptionsRead where
  state : State
  operands : List Word
  /-- Whether the operands are the new parameters even if there are none. -/
  ended : Bool
  /-- Whether the options are asked for; in the form of commands if `some true`. -/
  asked : Option Bool
  fault : Option Word

/-- Turns the options of a group of letters on or off; an option that is not known is given back. -/
def setLetters (on : Bool) : Word → State → State × Option Char
  | [], s => (s, none)
  | c :: cs, s =>
    if State.optionNames.any fun (_, l) => l == some c then setLetters on cs (s.setOption on c)
    else (s, some c)

/-- Reads the options in front of operands. -/
def readOptionWords : Nat → OptionsRead → OptionsRead
  | 0, r => r
  | fuel + 1, r =>
    match r.operands with
    | ['-'] :: rest =>
      { r with operands := rest, state := (r.state.setOption false 'x').setOption false 'v' }
    | ['-', '-'] :: rest => { r with operands := rest, ended := true }
    | (sign :: c :: cs) :: rest =>
      if sign = '-' || sign = '+' then
        let on := decide (sign = '-')
        let letters := c :: cs
        let (s, bad) := setLetters on (letters.filter (· ≠ 'o')) r.state
        let illegal (w : Word) : OptionsRead :=
          { r with fault := some (Word.lit "Illegal option " ++ w) }
        match bad with
        | some b => illegal ['-', b]
        | none =>
          if letters.contains 'o' then
            match rest with
            | [] => { r with state := s, operands := [], asked := some (!on) }
            | name :: rest =>
              match State.optionNames.find? fun (n, _) => n.toList == name with
              | none => illegal (Word.lit "-o " ++ name)
              | some (_, l) =>
                let s := (l.map fun l => s.setOption on l).getD s
                readOptionWords fuel { r with state := s, operands := rest }
          else readOptionWords fuel { r with state := s, operands := rest }
      else r
    | _ => r

/-- The settings of the options, as a list or in the form of commands. -/
def optionListing (s : State) (commands : Bool) : Word :=
  let on (l : Option Char) : Bool := l.any s.has
  if commands then
    State.optionNames.flatMap fun (n, l) =>
      Word.lit "set " ++ (if on l then ['-'] else ['+']) ++ Word.lit "o " ++ n.toList ++ ['\n']
  else
    Word.lit "Current option settings\n" ++ State.optionNames.flatMap fun (n, l) =>
      n.toList ++ List.replicate (16 - n.length) ' ' ++
        Word.lit (if on l then "on" else "off") ++ ['\n']

/-! ## Listings of variables -/

/-- The variables with a property, each as a line that a shell can read. -/
def variableListing (front : String) (f : Variable → Bool) (s : State) : Word :=
  let lines := (s.bindings.filter f).map fun v =>
    (v.name, front.toList ++ v.name ++ (v.value.map fun w => '=' :: inQuotes w).getD [] ++ ['\n'])
  (lines.mergeSort fun a b => Tool.bytewiseLe a.1 b.1).flatMap (·.2)

/-- Sets options and parameters. -/
def set : Builtin := fun args s =>
  let name := args.headD []
  if args.tail.isEmpty then answer s name (variableListing "" (·.value.isSome) s) 0
  else
    let r := readOptionWords args.length ⟨s, args.tail, false, none, none⟩
    match r.fault, r.asked with
    | some m, _ => reject s name m
    | none, some commands => answer r.state name (optionListing r.state commands) 0
    | none, none =>
      let s := r.state
      finish (if r.ended || !r.operands.isEmpty then { s with positional := r.operands } else s) 0

/-! ## Variables -/

/-- Applies a change to the names among words, with the values that are given to them; a message if
that cannot be done. -/
def declareAll (f : State → Word → State) : List Word → State → State × Option Word
  | [], s => (s, none)
  | w :: rest, s =>
    let name := w.takeWhile (· ≠ '=')
    if !isName name then (s, some (badName name))
    else
      match w.drop name.length with
      | [] => declareAll f rest (f s name)
      | _ :: v =>
        if s.isFixed name then (s, some (name ++ Word.lit ": is read only"))
        else declareAll f rest (f (s.assign name v) name)

/-- Changes the variables that are named, or lists those with a property. -/
def declare (f : State → Word → State) (listed : Variable → Bool) : Builtin := fun args s =>
  let name := args.headD []
  match readLetters "p" [] args.tail with
  | .error c => reject s name (illegalOption c)
  | .ok (letters, names) =>
    if names.isEmpty || letters.contains 'p' then
      answer s name (variableListing (String.ofList (name ++ [' '])) listed s) 0
    else
      match declareAll f names s with
      | (s, some m) => reject s name m
      | (s, none) => finish s 0

/-- Marks variables for the programs that are run. -/
def publish : Builtin := declare State.publish (·.exported)

/-- Lets variables be changed no more. -/
def readonly : Builtin := declare State.fix (·.fixed)

/-- Keeps variables as they are for the end of the function. -/
def keep (s : State) (name : Word) : State :=
  match s.frames with
  | own :: rest =>
    if name = ['-'] then
      { s with frames := { own with options := some (own.options.getD s.options) } :: rest }
    else if own.hidden.any (·.1 == name) then s
    else
      let hidden := (name, s.binding? name) :: own.hidden
      { s with frames := { own with hidden } :: rest }
  | [] => s

/-- Makes variables the function's own. -/
def ownVariables : Builtin := fun args s =>
  let name := args.headD []
  if s.frames.isEmpty then reject s name (Word.lit "not in a function")
  else
    let s := args.tail.foldl (fun s w => keep s (w.takeWhile (· ≠ '='))) s
    match declareAll (fun s n => if (s.binding? n).isSome then s
        else s.setVariable ⟨n, none, false, false⟩) (args.tail.filter (· ≠ ['-'])) s with
    | (s, some m) => reject s name m
    | (s, none) => finish s 0

/-- Forgets variables; a message if that cannot be done. -/
def unsetAll : List Word → State → State × Option Word
  | [], s => (s, none)
  | n :: rest, s =>
    if !isName n then (s, some (badName n))
    else if s.isFixed n then (s, some (n ++ Word.lit ": is read only"))
    else unsetAll rest (s.unset n)

/-- Forgets variables or functions. -/
def unset : Builtin := fun args s =>
  let name := args.headD []
  match readLetters "fv" [] args.tail with
  | .error c => reject s name (illegalOption c)
  | .ok (letters, names) =>
    if letters.getLast? = some 'f' then
      finish { s with functions := s.functions.filter fun (n, _) => !names.contains n } 0
    else
      match unsetAll names s with
      | (s, some m) => reject s name m
      | (s, none) => finish s 0

/-! ## Other names for commands -/

/-- The line that describes another name for a command. -/
def aliasLine (a : Word × Word) : Word := a.1 ++ '=' :: inQuotes a.2 ++ ['\n']

/-- Goes through the operands of `alias`. -/
def aliasAll : List Word → State → Word → Nat → Routine (State × Word × Nat)
  | [], s, out, code => pure (s, out, code)
  | w :: rest, s, out, code => do
    let name := w.takeWhile (· ≠ '=')
    match w.drop name.length with
    | _ :: v =>
      let others := s.aliases.filter (·.1 != name)
      aliasAll rest { s with aliases := others ++ [(name, v)] } out code
    | [] =>
      match s.aliases.find? (·.1 == name) with
      | some a => aliasAll rest s (out ++ aliasLine a) code
      | none =>
        putLine 2 (Word.lit "alias: " ++ name ++ Word.lit " not found")
        aliasAll rest s out 1

/-- Lets names of commands stand for other texts, or lists them. -/
def aliases : Builtin := fun args s => do
  if args.tail.isEmpty then answer s (args.headD []) (s.aliases.flatMap aliasLine) 0
  else
    let (s, out, code) ← aliasAll args.tail s [] 0
    answer s (args.headD []) out code

/-- Goes through the operands of `unalias`. -/
def unaliasAll : List Word → State → Nat → Routine (State × Nat)
  | [], s, code => pure (s, code)
  | w :: rest, s, code => do
    if s.aliases.any (·.1 == w) then
      unaliasAll rest { s with aliases := s.aliases.filter (·.1 != w) } code
    else
      putLine 2 (Word.lit "unalias: " ++ w ++ Word.lit " not found")
      unaliasAll rest s 1

/-- Lets names of commands stand for themselves again. -/
def forgetAliases : Builtin := fun args s => do
  match readLetters "a" [] args.tail with
  | .error c => refuse s (args.headD []) (illegalOption c) 2
  | .ok (letters, names) =>
    if letters.isEmpty then
      let (s, code) ← unaliasAll names s 0
      finish s code
    else finish { s with aliases := [] } 0

/-! ## Options of programs -/

/-- What one call of `getopts` finds. -/
structure OptionFound where
  /-- The letter, or a sign for a fault; nothing at the end of the options. -/
  letter : Char
  argument : Option Word
  /-- The number of the next argument. -/
  next : Nat
  /-- How far the options in the argument in front of it have been read. -/
  offset : Option Nat
  ended : Bool
  complaint : Option Word

/-- Whether an option is known, and whether it takes an argument. -/
def optionKind? (c : Char) : Word → Option Bool
  | [] => none
  | d :: rest =>
    if d = c && c ≠ ':' then some (rest.head? == some ':') else optionKind? c rest

/-- Finds the next option among arguments. -/
def nextOption (known : Word) (args : List Word) (index : Nat) (offset : Option Nat) :
    OptionFound :=
  let silent := known.head? = some ':'
  let inside :=
    match offset with
    | some n =>
      if 1 < index then ((args[index - 2]?).map (·.drop n)).filter (!·.isEmpty) else none
    | none => none
  let start : Option (Word × Nat × Nat) :=
    match inside with
    | some w => some (w, index, offset.getD 0)
    | none =>
      match args[index - 1]? with
      | some ('-' :: c :: cs) => some (c :: cs, index + 1, 1)
      | _ => none
  match start with
  | none => ⟨'?', none, index, none, true, none⟩
  | some (['-'], next, _) =>
    if inside.isNone then ⟨'?', none, next, none, true, none⟩ else unknown silent '-' [] next 0
  | some ([], next, _) => ⟨'?', none, next, none, true, none⟩
  | some (c :: cs, next, place) =>
    match optionKind? c known with
    | none => unknown silent c cs next place
    | some false => ⟨c, some [], next, if cs.isEmpty then none else some (place + 1), false, none⟩
    | some true =>
      if !cs.isEmpty then ⟨c, some cs, next, none, false, none⟩
      else
        match args[next - 1]? with
        | some w => ⟨c, some w, next + 1, none, false, none⟩
        | none =>
          if silent then ⟨':', some [c], next, none, false, none⟩
          else
            ⟨'?', none, next, none, false,
              some (Word.lit "No arg for -" ++ c :: Word.lit " option")⟩
where
  /-- What is found for an option that is not known. -/
  unknown (silent : Bool) (c : Char) (cs : Word) (next place : Nat) : OptionFound :=
    let offset := if cs.isEmpty then none else some (place + 1)
    if silent then ⟨'?', some [c], next, offset, false, none⟩
    else ⟨'?', none, next, offset, false, some (illegalOption c)⟩

/-- Reads the next option of a program. -/
def getopts : Builtin := fun args s => do
  let name := args.headD []
  match args.tail with
  | known :: target :: operands =>
    let given := if operands.isEmpty then s.positional else operands
    let index := max 1 (((s.value? (Word.lit "OPTIND")).bind Word.nat?).getD 1)
    let r := nextOption known given index s.optionOffset
    match r.complaint with
    | some m => putLine 2 m
    | none => pure ()
    let s :=
      match r.argument with
      | some w => s.assign (Word.lit "OPTARG") w
      | none => if r.ended then s else s.unset (Word.lit "OPTARG")
    let s := s.assign (Word.lit "OPTIND") (Word.ofNat r.next)
    match assignVariable target [r.letter] s with
    | .error m => refuse s name m 2
    | .ok s => finish { s with optionOffset := r.offset } (if r.ended then 1 else 0)
  | _ => refuse s name (Word.lit "Usage: getopts optstring var [arg...]") 2
where
  /-- Gives a value to a name, or says why that cannot be done. -/
  assignVariable (n v : Word) (s : State) : Except Word State :=
    if !isName n then .error (badName n)
    else if s.isFixed n then .error (n ++ Word.lit ": is read only")
    else .ok (s.assign n v)

end Conformance.Machine.Shell.Builtin
