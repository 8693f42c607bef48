import Conformance.Machine.Tool.Basic

/-!
# Conditions

Comparisons of texts and of numbers, questions about files, and their combinations.  The `test` of a
shell and the tool of that name differ in how they read a condition.
-/

namespace Conformance.Machine.Condition

/-- A question about one word. -/
inductive Question
  | isEmpty
  | isNonempty
  | exists
  /-- Never holds. -/
  | never
  | file
  | directory
  | link
  | fifo
  | device
  | nonemptyFile
  | readable
  | executable
  | terminal
  deriving DecidableEq

/-- A comparison of two words. -/
inductive Relation
  | equal
  | different
  | before
  | after
  | numberEqual
  | numberDifferent
  | less
  | lessOrEqual
  | greater
  | greaterOrEqual
  deriving DecidableEq

/-- A condition. -/
inductive Expr
  | constant (b : Bool)
  | ask (q : Question) (w : Word)
  | compare (r : Relation) (a b : Word)
  /-- Whether two paths lead to one file. -/
  | same (a b : Word)
  | negated (e : Expr)
  | both (a b : Expr)
  | either (a b : Expr)

/-- The question that an operator asks. -/
def question? (w : Word) : Option Question :=
  match String.ofList w with
  | "-z" => some .isEmpty
  | "-n" => some .isNonempty
  | "-e" | "-O" | "-G" => some .exists
  | "-b" | "-S" | "-u" | "-g" | "-k" => some .never
  | "-f" => some .file
  | "-d" => some .directory
  | "-h" | "-L" => some .link
  | "-p" => some .fifo
  | "-c" => some .device
  | "-s" => some .nonemptyFile
  | "-r" | "-w" => some .readable
  | "-x" => some .executable
  | "-t" => some .terminal
  | _ => none

/-- The comparison that an operator makes. -/
def relation? (w : Word) : Option Relation :=
  match String.ofList w with
  | "=" => some .equal
  | "!=" => some .different
  | "<" => some .before
  | ">" => some .after
  | "-eq" => some .numberEqual
  | "-ne" => some .numberDifferent
  | "-lt" => some .less
  | "-le" => some .lessOrEqual
  | "-gt" => some .greater
  | "-ge" => some .greaterOrEqual
  | _ => none

/-- The condition that an operator makes of two words. -/
def comparison? (w : Word) : Option (Word → Word → Expr) :=
  match String.ofList w with
  | "-ef" => some .same
  | "-nt" | "-ot" => some fun _ _ => .constant false
  | _ => (relation? w).map .compare

/-! ## Reading a condition in a shell -/

/-- One comparison, question, group or word; then what follows it. -/
def primary (read : List Word → Except Word (Expr × List Word)) (ws : List Word) :
    Except Word (Expr × List Word) :=
  let plain (w : Word) (rest : List Word) : Except Word (Expr × List Word) :=
    .ok (.ask .isNonempty w, rest)
  match ws with
  | [] => .ok (.constant false, [])
  | [w] => plain w []
  | a :: o :: rest =>
    match comparison? o, rest with
    | some f, b :: rest => .ok (f a b, rest)
    | _, _ =>
      if a = ['('] then
        match read (o :: rest) with
        | .error e => .error e
        | .ok (e, [')'] :: rest) => .ok (e, rest)
        | .ok _ => .error (Word.lit "closing paren expected")
      else
        match question? a with
        | some q => .ok (.ask q o, rest)
        | none => plain a (o :: rest)

/-- Reads alternatives of conjunctions; `fuel` bounds the depth. -/
def read : Nat → List Word → Except Word (Expr × List Word)
  | 0, _ => .error (Word.lit "argument expected")
  | fuel + 1, ws => do
    let (a, rest) ← conjunction (read fuel) fuel ws
    match rest with
    | ['-', 'o'] :: rest =>
      let (b, rest) ← read fuel rest
      pure (.either a b, rest)
    | _ => pure (a, rest)
where
  /-- Reads negations, joined by `-a`. -/
  conjunction (inner : List Word → Except Word (Expr × List Word)) :
      Nat → List Word → Except Word (Expr × List Word)
  | 0, _ => .error (Word.lit "argument expected")
  | fuel + 1, ws => do
    let (a, rest) ← negation inner fuel ws
    match rest with
    | ['-', 'a'] :: rest =>
      let (b, rest) ← conjunction inner fuel rest
      pure (.both a b, rest)
    | _ => pure (a, rest)
  /-- Reads a primary with exclamation marks in front. -/
  negation (inner : List Word → Except Word (Expr × List Word)) :
      Nat → List Word → Except Word (Expr × List Word)
  | 0, _ => .error (Word.lit "argument expected")
  | fuel + 1, ws =>
    match ws with
    | ['!'] :: next :: rest =>
      if (comparison? next).isSome && !rest.isEmpty then primary inner ws
      else do
        let (e, rest) ← negation inner fuel (next :: rest)
        pure (.negated e, rest)
    | _ => primary inner ws

/-- Reads a whole condition; no words at all are false.  The complaint about words that are left
names the word in front of them. -/
def parse (ws : List Word) : Except Word Expr :=
  if ws.isEmpty then .ok (.constant false)
  else
    match read (ws.length + 3) ws with
    | .error e => .error e
    | .ok (e, []) => .ok e
    | .ok (_, rest) =>
      let last := (ws.take (ws.length - rest.length)).getLastD []
      .error (last ++ Word.lit ": unexpected operator")

/-! ## Deciding a condition -/

/-- The number that a word stands for, blanks around it aside. -/
def number (w : Word) : Except Word Int :=
  let blank (c : Char) : Bool := c = ' ' || c = '\t' || c = '\n'
  match Word.int? (((w.dropWhile blank).reverse.dropWhile blank).reverse) with
  | some i => .ok i
  | none => .error (Word.lit "Illegal number: " ++ w)

/-- Whether a comparison holds. -/
def holds (r : Relation) (a b : Word) : Except Word Bool :=
  let numbers (f : Int → Int → Bool) : Except Word Bool := do
    let m ← number a
    let n ← number b
    pure (f m n)
  match r with
  | .equal => .ok (a == b)
  | .different => .ok (a != b)
  | .before => .ok (String.ofList a < String.ofList b)
  | .after => .ok (String.ofList b < String.ofList a)
  | .numberEqual => numbers (· == ·)
  | .numberDifferent => numbers (· != ·)
  | .less => numbers fun m n => decide (m < n)
  | .lessOrEqual => numbers fun m n => decide (m ≤ n)
  | .greater => numbers fun m n => decide (n < m)
  | .greaterOrEqual => numbers fun m n => decide (n ≤ m)

/-- The answer to a question about a file. -/
def answer (q : Question) (n : Node) : Bool :=
  match q, n with
  | .file, .file .. | .file, .program _ => true
  | .directory, .directory .. => true
  | .link, .link _ => true
  | .fifo, .fifo => true
  | .device, .device _ => true
  | .nonemptyFile, .file content _ => content.size > 0
  | .nonemptyFile, .directory .. | .nonemptyFile, .program _ => true
  | .executable, .file _ x => x
  | .executable, .program _ => true
  | .executable, .directory access _ => access.searchable
  | .readable, .directory access _ => access.readable
  | .exists, _ | .readable, _ => true
  | _, _ => false

/-- Decides a condition. -/
def decideAll : Expr → Routine (Except Word Bool)
  | .constant b => pure (.ok b)
  | .ask .isEmpty w => pure (.ok w.isEmpty)
  | .ask .isNonempty w => pure (.ok !w.isEmpty)
  | .ask .terminal _ => pure (.ok false)
  | .ask q w => do
    match ← Routine.inspect (Word.toPath w) (q ≠ .link) with
    | .ok n => pure (.ok (answer q n))
    | .error _ => pure (.ok false)
  | .compare r a b => pure (holds r a b)
  | .same a b => do
    match ← Routine.locate (Word.toPath a) true, ← Routine.locate (Word.toPath b) true with
    | .ok (m, _), .ok (n, _) => pure (.ok (m == n))
    | _, _ => pure (.ok false)
  | .negated e => do
    match ← decideAll e with
    | .ok b => pure (.ok !b)
    | .error m => pure (.error m)
  | .both a b => do
    match ← decideAll a with
    | .ok true => decideAll b
    | r => pure r
  | .either a b => do
    match ← decideAll a with
    | .ok false => decideAll b
    | r => pure r

/-- The exit code of a condition that was read, and what there is to complain about. -/
def run (condition : Except Word Expr) : Routine (Nat × Option Word) := do
  match condition with
  | .error m => pure (2, some m)
  | .ok e =>
    match ← decideAll e with
    | .ok true => pure (0, none)
    | .ok false => pure (1, none)
    | .error m => pure (2, some m)

/-- The arguments of the form in brackets without the closing one. -/
def unbracket? (args : List Word) : Option (List Word) :=
  if args.getLast? = some [']'] then some args.dropLast else none

end Conformance.Machine.Condition
