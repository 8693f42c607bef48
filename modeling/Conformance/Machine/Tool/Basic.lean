import Conformance.Machine.Script

/-!
# Writing tools

What the tools of a machine share: complaints, options, and reading an input to its end or line by
line.
-/

namespace Conformance.Machine

/-- A tool: its arguments, the first being the name under which it was started, and its
environment. -/
abbrev Tool := List Word → Environment → Routine Nat

/-- The number of rounds for which a tool reads or writes at most. -/
def rounds : Nat := 1000000000000

/-- The number of bytes that a tool reads at once. -/
def blockSize : Nat := 65536

namespace Word

/-- A word of a string of ASCII characters. -/
def lit (s : String) : Word := s.toList

/-- The decimal numeral of a number. -/
def ofNat (n : Nat) : Word := Nat.toDigits 10 n

/-- The number that decimal digits stand for. -/
def nat? (w : Word) : Option Nat :=
  if !w.isEmpty && w.all Char.isDigit then
    some (w.foldl (fun n c => n * 10 + (c.toNat - 48)) 0)
  else none

/-- A whole number with a sign if one likes. -/
def int? : Word → Option Int
  | '-' :: w => (nat? w).map fun n => -(n : Int)
  | '+' :: w => (nat? w).map Int.ofNat
  | w => (nat? w).map Int.ofNat

/-- The numeral of a whole number. -/
def ofInt (i : Int) : Word :=
  match i with
  | .ofNat n => ofNat n
  | .negSucc n => '-' :: ofNat (n + 1)

/-- The lines of a word with their line feeds; the last one may lack it. -/
def splitLines (w : Word) : List Word :=
  let rec go (done : List Word) (part : Word) : Word → List Word
    | [] => if part.isEmpty then done.reverse else (part.reverse :: done).reverse
    | '\n' :: r => go (('\n' :: part).reverse :: done) [] r
    | c :: r => go done (c :: part) r
  go [] [] w

/-- A line without its line feed, and whether it had one. -/
def chomp (w : Word) : Word × Bool :=
  if w.getLast? = some '\n' then (w.dropLast, true) else (w, false)

end Word

namespace Tool

open Routine

/-- Writes a complaint under the tool's name. -/
def complain (name : Word) (message : Word) : Routine Unit :=
  putLine 2 (name ++ [':', ' '] ++ message)

/-- Points to the help of a tool. -/
def hint (name : Word) : Routine Unit :=
  putLine 2 (Word.lit "Try '" ++ name ++ Word.lit " --help' for more information.")

/-- Refuses arguments and points to the help of the tool. -/
def refuse (name message : Word) (code : Nat) : Routine Nat := do
  complain name message
  hint name
  pure code

/-- The description of a fault. -/
def reason (e : SystemFault) : Word := Word.ofText e.reason

/-- Ends a tool whose output failed. -/
def checked (name : Word) (r : Except SystemFault Unit) : Routine Unit :=
  match r with
  | .ok () => pure ()
  | .error e => do
    complain name (Word.lit "write error: " ++ reason e)
    exit 1

/-- Writes a word to the standard output. -/
def emit (name : Word) (w : Word) : Routine Unit := do checked name (← put 1 w)

/-! ## Options -/

/-- The options that a tool knows: letters without a value, letters with one, letters whose value
stands directly behind them or is missing, and long names for letters. -/
structure Options where
  plain : String
  valued : String
  optional : String := ""
  long : List (String × Char) := []
  /-- Whether options end at the first operand. -/
  inOrder : Bool := false
  /-- The exit code when the options cannot be read. -/
  failure : Nat := 1
  /-- What is an operand although it begins with a hyphen. -/
  isOperand : Word → Bool := fun _ => false

/-- Options that were given, with their values, and the operands. -/
structure Parsed where
  given : List (Char × Word)
  operands : List Word

namespace Parsed

/-- Whether an option was given. -/
def has (p : Parsed) (c : Char) : Bool := p.given.any (·.1 == c)

/-- The value that was given last. -/
def value? (p : Parsed) (c : Char) : Option Word := (p.given.reverse.find? (·.1 == c)).map (·.2)

/-- The values that were given, in order. -/
def values (p : Parsed) (c : Char) : List Word := (p.given.filter (·.1 == c)).map (·.2)

/-- The one of some options that was given last. -/
def last? (p : Parsed) (letters : String) : Option Char :=
  (p.given.reverse.find? fun (c, _) => letters.toList.contains c).map (·.1)

end Parsed

/-- Why options are not accepted. -/
inductive OptionFault
  | unknown (c : Char)
  | unknownLong (text : Word)
  | ambiguous (text : Word) (names : List String)
  | needlessValue (name : String)
  | noValue (c : Char)
  | noLongValue (name : String)

/-- What is said about options that are not accepted. -/
def OptionFault.sentence : OptionFault → Word
  | unknown c => Word.lit "invalid option -- '" ++ [c, '\'']
  | unknownLong text => Word.lit "unrecognized option '--" ++ text ++ ['\'']
  | ambiguous text names =>
    Word.lit "option '--" ++ text ++ Word.lit "' is ambiguous; possibilities:" ++
      names.flatMap fun n => Word.lit " '--" ++ n.toList ++ ['\'']
  | needlessValue name => Word.lit "option '--" ++ name.toList ++ Word.lit "' doesn't allow an argument"
  | noValue c => Word.lit "option requires an argument -- '" ++ [c, '\'']
  | noLongValue name => Word.lit "option '--" ++ name.toList ++ Word.lit "' requires an argument"

/-- Reads letters written together. -/
def readLetters (o : Options) (given : List (Char × Word)) : Word → List Word →
    Except OptionFault (List (Char × Word) × List Word)
  | [], rest => .ok (given, rest)
  | c :: cs, rest =>
    if o.plain.toList.contains c then readLetters o (given ++ [(c, [])]) cs rest
    else if o.optional.toList.contains c then .ok (given ++ [(c, cs)], rest)
    else if o.valued.toList.contains c then
      if cs.isEmpty then
        match rest with
        | [] => .error (.noValue c)
        | v :: rest => .ok (given ++ [(c, v)], rest)
      else .ok (given ++ [(c, cs)], rest)
    else .error (.unknown c)

/-- The option of a long name, which may be cut short as long as it is the only one. -/
def longOption (o : Options) (text : Word) : Except OptionFault (String × Char) :=
  let key := text.takeWhile (· ≠ '=')
  match o.long.find? fun l => l.1.toList == key with
  | some l => .ok l
  | none =>
    match o.long.filter fun l => key.isPrefixOf l.1.toList with
    | [] => .error (.unknownLong text)
    | l :: ls =>
      if ls.all (·.2 == l.2) then .ok l else .error (.ambiguous text ((l :: ls).map (·.1)))

/-- Reads a long option; what follows it is left. -/
def readLong (o : Options) (given : List (Char × Word)) (text : Word) (rest : List Word) :
    Except OptionFault (List (Char × Word) × List Word) := do
  let (name, c) ← longOption o text
  match text.dropWhile (· ≠ '=') with
  | _ :: v =>
    if o.valued.toList.contains c || o.optional.toList.contains c then pure (given ++ [(c, v)], rest)
    else .error (.needlessValue name)
  | [] =>
    if o.valued.toList.contains c then
      match rest with
      | [] => .error (.noLongValue name)
      | v :: rest => pure (given ++ [(c, v)], rest)
    else pure (given ++ [(c, [])], rest)

/-- Reads options and operands; two hyphens end the options. -/
def readOptions (o : Options) : Nat → Parsed → List Word → Except OptionFault Parsed
  | 0, p, _ => .ok p
  | _ + 1, p, [] => .ok p
  | fuel + 1, p, arg :: rest =>
    match arg with
    | ['-', '-'] => .ok { p with operands := p.operands ++ rest }
    | '-' :: '-' :: text =>
      match readLong o p.given text rest with
      | .error e => .error e
      | .ok (given, rest) => readOptions o fuel { p with given } rest
    | '-' :: c :: cs =>
      if o.isOperand arg then
        if o.inOrder then .ok { p with operands := p.operands ++ arg :: rest }
        else readOptions o fuel { p with operands := p.operands ++ [arg] } rest
      else
        match readLetters o p.given (c :: cs) rest with
        | .error e => .error e
        | .ok (given, rest) => readOptions o fuel { p with given } rest
    | _ =>
      if o.inOrder then .ok { p with operands := p.operands ++ arg :: rest }
      else readOptions o fuel { p with operands := p.operands ++ [arg] } rest

/-- Runs the body of a tool with its options, or complains about them; `behind` follows the
complaint. -/
def withOptionsOr (behind : Word → Routine Unit) (o : Options) (args : List Word)
    (body : Word → Parsed → Routine Nat) : Routine Nat := do
  let name := args.headD []
  match readOptions o (args.length + 1) ⟨[], []⟩ args.tail with
  | .ok p => body name p
  | .error e =>
    complain name e.sentence
    behind name
    pure o.failure

/-- Runs the body of a tool with its options, or complains about them. -/
def withOptions (o : Options) (args : List Word) (body : Word → Parsed → Routine Nat) :
    Routine Nat :=
  withOptionsOr hint o args body

/-! ## Inputs -/

/-- Reads to the end. -/
def readRest (file : Nat) : Nat → List ByteArray → Routine (Except SystemFault ByteArray)
  | 0, done => pure (.ok (done.reverse.foldl (· ++ ·) .empty))
  | fuel + 1, done => do
    match ← read file blockSize with
    | .error e => pure (.error e)
    | .ok b =>
      if b.isEmpty then pure (.ok (done.reverse.foldl (· ++ ·) .empty))
      else readRest file fuel (b :: done)

/-- Opens an input by its name; a hyphen names the standard input. -/
def openInput (name : Word) : Routine (Except SystemFault Nat) :=
  if name = ['-'] then pure (.ok 0) else openFile (Word.toPath name) .read

/-- Closes an input that was opened by its name. -/
def closeInput (file : Nat) : Routine Unit := if file = 0 then pure () else close file

/-- The names of the inputs: the operands, or the standard input. -/
def inputs (operands : List Word) : List Word := if operands.isEmpty then [['-']] else operands

/-- Splits off the lines behind which more is known to come. -/
def knownLines (w : Word) : List Word × Word :=
  let ls := w.splitLines
  (ls.dropLast, ls.getLast?.getD [])

end Tool

end Conformance.Machine
