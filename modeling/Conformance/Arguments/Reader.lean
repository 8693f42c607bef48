import Conformance.Arguments.Error
import Conformance.Arguments.Value

/-!
# Reading arguments

A grammar lists the options and the operand of a command.  Arguments are read one after another.
An option that takes a value in the next argument stays open until the next option or operand
begins, and only then its value is read; so of two faults the one that shows first wins, and an
argument that no grammar knows wins over a bad value in front of it.
-/

namespace Conformance.Arguments

/-- What an option does. -/
inductive Effect
  | flag
  | valued (kind : Kind)
  | help
  | version
  deriving DecidableEq, Repr

/-- An option by its long name, with a short one if it has any. -/
structure Opt where
  long : Text
  short : Option Char
  effect : Effect
  deriving DecidableEq, Repr

/-- The place of a value: upper case, with underscores for the hyphens. -/
def Opt.placeholder (o : Opt) : Text := o.long.map fun c => if c = '-' then '_' else c.toUpper

/-- The option as it is shown in messages. -/
def Opt.label (o : Opt) : Text :=
  match o.effect with
  | .valued _ => "--".toList ++ o.long ++ " <".toList ++ o.placeholder ++ ['>']
  | _ => "--".toList ++ o.long

/-- The operand of a command: arguments that belong to no option.  All operands are paths. -/
structure Operand where
  label : Text
  many : Bool
  required : Bool
  deriving DecidableEq, Repr

/-- The grammar of a command. -/
structure Grammar where
  options : List Opt
  operand : Option Operand
  conflicts : List (Text × Text)
  deriving DecidableEq, Repr

/-- What a value belongs to. -/
inductive Slot
  | option (long : Text)
  | operand
  deriving DecidableEq, Repr

/-- How far the reading of a command's arguments has come. -/
structure Reading where
  /-- What was begun last, with the texts of its values so far. -/
  pending : Option (Slot × List Text)
  /-- What was given, in order; flags have no values. -/
  given : List (Slot × List Value)
  /-- Whether only operands may follow. -/
  trailing : Bool
  /-- The number of operands so far. -/
  operands : Nat
  deriving DecidableEq, Repr

namespace Reading

/-- Nothing read yet. -/
def start : Reading := ⟨none, [], false, 0⟩

/-- The values given for a slot, if it was given. -/
def find? (r : Reading) (slot : Slot) : Option (List Value) :=
  (r.given.find? (·.1 == slot)).map (·.2)

/-- Whether a slot was given. -/
def has (r : Reading) (slot : Slot) : Bool := r.given.any (·.1 == slot)

/-- Adds values to what was given for a slot. -/
def append (slot : Slot) (values : List Value) : List (Slot × List Value) → List (Slot × List Value)
  | [] => [(slot, values)]
  | (s, vs) :: rest =>
    if s = slot then (s, vs ++ values) :: rest else (s, vs) :: append slot values rest

end Reading

namespace Grammar

/-- The option with a long name. -/
def long? (g : Grammar) (name : Text) : Option Opt := g.options.find? (·.long == name)

/-- The option with a short name. -/
def short? (g : Grammar) (name : Char) : Option Opt := g.options.find? (·.short == some name)

/-- Reads the texts of values of a kind in order. -/
def readValues (label : Text) (kind : Kind) : List Text → Except UsageError (List Value)
  | [] => .ok []
  | t :: ts =>
    match kind.read t with
    | .error .missing => .error (.valueRequired label)
    | .error (.invalid reason) => .error (.valueInvalid t label reason)
    | .ok v => (readValues label kind ts).map (v :: ·)

/-- Notes an option with its values: an option that takes a value needs one, and none may be given
twice. -/
def accept (o : Opt) (texts : List Text) (r : Reading) : Except UsageError Reading :=
  match o.effect with
  | .help => .error .help
  | .version => .error .version
  | .flag =>
    if r.has (.option o.long) then .error (.repeated o.label)
    else .ok { r with given := r.given ++ [(.option o.long, [])] }
  | .valued kind =>
    if texts.isEmpty then .error (.valueRequired o.label)
    else if r.has (.option o.long) then .error (.repeated o.label)
    else
      (readValues o.label kind texts).map fun vs =>
        { r with given := r.given ++ [(.option o.long, vs)] }

/-- Closes what was begun last. -/
def settle (g : Grammar) (r : Reading) : Except UsageError Reading :=
  match r.pending with
  | none => .ok r
  | some (slot, texts) =>
    let r := { r with pending := none }
    match slot with
    | .option name =>
      match g.long? name with
      | none => .ok r
      | some o => accept o texts r
    | .operand =>
      match g.operand with
      | none => .ok r
      | some operand =>
        (readValues operand.label .path texts).map fun vs =>
          { r with given := Reading.append .operand vs r.given }

/-- Takes an option that is complete. -/
def take (g : Grammar) (o : Opt) (texts : List Text) (r : Reading) : Except UsageError Reading :=
  match g.settle r with
  | .error e => .error e
  | .ok r => accept o texts r

/-- Takes an operand: one more of many, or the only one. -/
def takeOperand (g : Grammar) (arg : Text) (r : Reading) : Except UsageError Reading :=
  match g.operand with
  | none => .error (.unknownArgument arg)
  | some operand =>
    match operand.many, r.pending with
    | true, some (.operand, texts) => .ok { r with pending := some (.operand, texts ++ [arg]) }
    | many, _ =>
      if many || r.operands == 0 then
        (g.settle r).map fun r =>
          { r with pending := some (.operand, [arg]), operands := r.operands + 1 }
      else .error (.unknownArgument arg)

/-- A long option: its name up to the first equals sign, and the value behind it if there is
one. -/
def takeLong (g : Grammar) (body : Text) (r : Reading) : Except UsageError Reading :=
  let name := body.takeWhile (· ≠ '=')
  let value := match body.dropWhile (· ≠ '=') with
    | [] => none
    | _ :: v => some v
  match g.long? name with
  | none => .error (.unknownArgument ("--".toList ++ name))
  | some o =>
    match o.effect, value with
    | .valued _, some v => g.take o [v] r
    | .valued _, none =>
      (g.settle r).map fun r => { r with pending := some (.option o.long, []) }
    | _, some v => .error (.valueUnexpected v o.label)
    | _, none => g.take o [] r

/-- Short options written together; none of them takes a value. -/
def takeShorts (g : Grammar) : Text → Reading → Except UsageError Reading
  | [], r => .ok r
  | c :: cs, r =>
    match g.short? c with
    | none => .error (.unknownArgument ['-', c])
    | some o =>
      match g.take o [] r with
      | .error e => .error e
      | .ok r => takeShorts g cs r

/-- Reads one argument. -/
def step (g : Grammar) (r : Reading) (arg : Text) : Except UsageError Reading :=
  if r.trailing then g.takeOperand arg r
  else
    match arg with
    | ['-', '-'] => .ok { r with trailing := true }
    | '-' :: '-' :: body => g.takeLong body r
    | '-' :: c :: cs => g.takeShorts (c :: cs) r
    | _ =>
      match r.pending with
      | some (.option name, []) => .ok { r with pending := some (.option name, [arg]) }
      | _ => g.takeOperand arg r

/-- The first pair of options, in the order in which they were given, that exclude each other. -/
def conflict? (g : Grammar) (r : Reading) : Option UsageError :=
  r.given.findSome? fun (slot, _) =>
    g.options.findSome? fun o =>
      g.options.findSome? fun p =>
        if slot = .option o.long ∧ r.has (.option p.long) ∧
            ((o.long, p.long) ∈ g.conflicts ∨ (p.long, o.long) ∈ g.conflicts) then
          some (.conflict o.label p.label)
        else none

/-- Ends the reading: nothing may exclude another, and the operand must be there if it has to. -/
def finish (g : Grammar) (r : Reading) : Except UsageError Reading :=
  match g.settle r with
  | .error e => .error e
  | .ok r =>
    match g.conflict? r with
    | some e => .error e
    | none =>
      if (g.operand.any (·.required)) && !r.has .operand then .error .missingOperand else .ok r

/-- Reads all arguments of a command. -/
def readAll (g : Grammar) (r : Reading) : List Text → Except UsageError Reading
  | [] => g.finish r
  | arg :: rest =>
    match g.step r arg with
    | .error e => .error e
    | .ok r => readAll g r rest

end Grammar

end Conformance.Arguments
