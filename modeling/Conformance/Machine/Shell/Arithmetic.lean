import Conformance.Machine.Shell.State
import Conformance.Machine.Shell.Tokens
import Conformance.Machine.Tool.Format

/-!
# Arithmetic of shells

Expressions over whole numbers of 64 bits, with assignments to variables.
-/

namespace Conformance.Machine.Shell

/-- An arithmetic expression. -/
inductive Arith
  | number (n : Int)
  | named (name : Word)
  | unary (op : Char) (e : Arith)
  | binary (op : String) (a b : Arith)
  | select (condition yes no : Arith)
  | assign (name : Word) (op : String) (e : Arith)

namespace Arith

/-- A number brought into the range of 64 bits. -/
def wrap (i : Int) : Int :=
  let m := i % 0x10000000000000000
  if m < 0x8000000000000000 then m else m - 0x10000000000000000

/-- The binary operators by precedence, the weakest first. -/
def levels : List (List String) :=
  [["||"], ["&&"], ["|"], ["^"], ["&"], ["==", "!="], ["<=", ">=", "<", ">"], ["<<", ">>"],
    ["+", "-"], ["*", "/", "%"]]

/-- The operators of assignments. -/
def assignments : List String :=
  ["<<=", ">>=", "+=", "-=", "*=", "/=", "%=", "&=", "|=", "^=", "="]

/-- Blanks at the front taken off. -/
def skip (w : Word) : Word := w.dropWhile fun c => c = ' ' || c = '\t' || c = '\n'

/-- The operator of a level at the front; one that is the front of a longer operator is not
taken. -/
def operator? (level : List String) (w : Word) : Option (String × Word) :=
  match level.find? fun s => s.toList.isPrefixOf w with
  | none => none
  | some s =>
    let rest := w.drop s.length
    let longer :=
      match s.toList, rest.head? with
      | ['|'], some '|' | ['&'], some '&' => true
      | ['<'], some '<' | ['>'], some '>' => true
      | _, some '=' => s ≠ "==" && s ≠ "!=" && s ≠ "<=" && s ≠ ">=" && s ≠ "||" && s ≠ "&&"
      | _, _ => false
    if longer then none else some (s, rest)

/-- Why an expression has no value. -/
inductive Problem
  | expecting (what : String)
  | divisionByZero
  | illegalNumber (w : Word)
  | readOnly (name : Word)

/-- The message about an expression without a value. -/
def Problem.message (source : Word) : Problem → Word
  | expecting what =>
    Word.lit "arithmetic expression: expecting " ++ what.toList ++
      Word.lit ": \"" ++ source ++ ['"']
  | divisionByZero =>
    Word.lit "arithmetic expression: division by zero: \"" ++ source ++ ['"']
  | illegalNumber w => Word.lit "Illegal number: " ++ w
  | readOnly name => name ++ Word.lit ": is read only"

/-- The problem of an expression that lacks an operand. -/
def noOperand : Problem := .expecting "primary"

mutual

/-- Reads an expression with assignments and selections. -/
def readExpr : Nat → Word → Except Problem (Arith × Word)
  | 0, _ => .error noOperand
  | fuel + 1, w => do
    let w := skip w
    let name := w.takeWhile isNameChar
    let rest := skip (w.drop name.length)
    let assignment :=
      if name.head?.any isNameStart then
        (assignments.find? fun s => s.toList.isPrefixOf rest).filter fun s =>
          s ≠ "=" || (rest.drop 1).head? ≠ some '='
      else none
    match assignment with
    | some s =>
      let (e, rest) ← readExpr fuel (rest.drop s.length)
      pure (.assign name (s.dropEnd 1).toString e, rest)
    | none =>
      let (c, w) ← readLevel fuel levels w
      match skip w with
      | '?' :: w =>
        let (yes, w) ← readExpr fuel w
        match skip w with
        | ':' :: w =>
          let (no, w) ← readExpr fuel w
          pure (.select c yes no, w)
        | _ => .error (.expecting "':'")
      | w => pure (c, w)

/-- Reads an expression with the operators of some levels. -/
def readLevel : Nat → List (List String) → Word → Except Problem (Arith × Word)
  | 0, _, _ => .error noOperand
  | fuel + 1, [], w => readPrimary fuel (skip w)
  | fuel + 1, level :: rest, w => do
    let (a, w) ← readLevel fuel rest w
    readMore fuel level rest a (skip w)

/-- Reads further operands of a level. -/
def readMore : Nat → List String → List (List String) → Arith → Word → Except Problem (Arith × Word)
  | 0, _, _, a, w => .ok (a, w)
  | fuel + 1, level, rest, a, w =>
    match operator? level w with
    | none => .ok (a, w)
    | some (s, w) => do
      let (b, w) ← readLevel fuel rest w
      readMore fuel level rest (.binary s a b) (skip w)

/-- Reads a number, a variable, or an expression in parentheses, with signs in front. -/
def readPrimary : Nat → Word → Except Problem (Arith × Word)
  | 0, _ => .error noOperand
  | fuel + 1, w =>
    match w with
    | [] => .error noOperand
    | '(' :: w => do
      let (e, w) ← readExpr fuel w
      match skip w with
      | ')' :: w => pure (e, w)
      | _ => .error (.expecting "')'")
    | c :: rest =>
      if "-+!~".toList.contains c then do
        let (e, w) ← readPrimary fuel (skip rest)
        pure (.unary c e, w)
      else if c.isDigit then
        let (n, rest) := Format.constant w
        .ok (.number (wrap n), rest)
      else if isNameStart c then
        .ok (.named (w.takeWhile isNameChar), w.dropWhile isNameChar)
      else .error noOperand

end

/-- Reads a whole expression; an empty one is zero. -/
def parse (w : Word) : Except Problem Arith :=
  if (skip w).isEmpty then .ok (.number 0)
  else
    match readExpr (16 * w.length + 32) w with
    | .error e => .error e
    | .ok (e, rest) =>
      if (skip rest).isEmpty then .ok e else .error (.expecting "EOF")

/-- The result of an operator. -/
def apply (op : String) (a b : Int) : Except Problem Int :=
  let truth (p : Bool) : Except Problem Int := .ok (if p then 1 else 0)
  let bits (f : Nat → Nat → Nat) : Except Problem Int :=
    .ok (wrap (f (Format.unsigned a) (Format.unsigned b)))
  match op with
  | "||" => truth (a != 0 || b != 0)
  | "&&" => truth (a != 0 && b != 0)
  | "|" => bits (· ||| ·)
  | "^" => bits (· ^^^ ·)
  | "&" => bits (· &&& ·)
  | "==" => truth (a == b)
  | "!=" => truth (a != b)
  | "<" => truth (a < b)
  | ">" => truth (b < a)
  | "<=" => truth (a ≤ b)
  | ">=" => truth (b ≤ a)
  | "<<" => .ok (wrap (a * Int.pow 2 (b % 64).toNat))
  | ">>" => .ok (a / Int.pow 2 (b % 64).toNat)
  | "+" => .ok (wrap (a + b))
  | "-" => .ok (wrap (a - b))
  | "*" => .ok (wrap (a * b))
  | "/" =>
    if b = 0 then .error .divisionByZero
    else .ok (wrap (a.tdiv b))
  | "%" =>
    if b = 0 then .error .divisionByZero
    else .ok (wrap (a.tmod b))
  | _ => .ok b

/-- The number that a variable holds; zero if it has no value. -/
def variableValue (s : State) (name : Word) : Except Problem Int :=
  match s.value? name with
  | none | some [] => .ok 0
  | some v =>
    let n := Format.numeral true v
    match n.flaw with
    | none => .ok (wrap n.value)
    | some _ => .error (.illegalNumber v)

/-- The value of an expression, and the state after its assignments. -/
def eval : Arith → State → Except Problem (Int × State)
  | number n, s => .ok (n, s)
  | named name, s => do pure (← variableValue s name, s)
  | unary op e, s => do
    let (n, s) ← eval e s
    let r :=
      match op with
      | '-' => wrap (-n)
      | '!' => if n = 0 then 1 else 0
      | '~' => -n - 1
      | _ => n
    pure (r, s)
  | binary op a b, s => do
    let (m, s) ← eval a s
    if op = "||" && m ≠ 0 then pure (1, s)
    else if op = "&&" && m = 0 then pure (0, s)
    else
      let (n, s) ← eval b s
      pure (← apply op m n, s)
  | select c yes no, s => do
    let (n, s) ← eval c s
    if n ≠ 0 then eval yes s else eval no s
  | assign name op e, s => do
    let (n, s) ← eval e s
    let r ← if op.isEmpty then pure n else apply op (← variableValue s name) n
    if s.isFixed name then .error (.readOnly name)
    else pure (r, s.assign name (Word.ofInt r))

/-- The value of the expression that a text holds, or the message about it. -/
def value (source : Word) (s : State) : Except Word (Int × State) :=
  match (parse source).bind fun e => e.eval s with
  | .ok r => .ok r
  | .error e => .error (e.message source)

end Arith

end Conformance.Machine.Shell
