import Conformance.Machine.Tool.Condition
import Conformance.Machine.Tool.Quotation

/-!
# Conditions as a tool

The tool `test` reads a condition by the number of its words; from five words on, and where that
does not decide, by the precedence of its operators.
-/

namespace Conformance.Machine.Tool

open Condition

namespace Test

/-- A condition that was read, and the words behind it. -/
abbrev Reading := Except Word (Expr × List Word)

/-- The complaint that words are missing behind the last one. -/
def missing (all : List Word) : Word :=
  Word.lit "missing argument after " ++ inQuotes (all.getLastD [])

/-- Whether a word could be an operator in front of one word. -/
def isSwitch (w : Word) : Bool := w.length = 2 && w.head? = some '-'

/-- The condition that one operator makes of two words; a word that should be a number is
checked. -/
def binary? (o : Word) : Option (Word → Word → Except Word Expr) :=
  let checked (w : Word) : Except Word Unit :=
    match number w with
    | .ok _ => .ok ()
    | .error _ => .error (Word.lit "invalid integer " ++ inQuotes w)
  match String.ofList o with
  | "<" | ">" => none
  | "==" => some fun a b => .ok (.compare .equal a b)
  | "-nt" => some fun a b => .ok (.both (.ask .exists a) (.negated (.ask .exists b)))
  | "-ot" => some fun a b => .ok (.both (.ask .exists b) (.negated (.ask .exists a)))
  | "=" | "!=" | "-ef" => (comparison? o).map fun f a b => .ok (f a b)
  | _ => (comparison? o).map fun f a b => do
    checked a
    checked b
    pure (f a b)

/-- Whether a word joins two conditions. -/
def isJoint (w : Word) : Bool := w = ['-', 'a'] || w = ['-', 'o']

/-- A question about the word behind its operator. -/
def unary (all ws : List Word) : Reading :=
  match ws with
  | o :: rest =>
    let asked := if o = ['-', 'N'] then some .never else question? o
    match asked, rest with
    | none, _ => .error (inQuotes o ++ Word.lit ": unary operator expected")
    | some _, [] => .error (missing all)
    | some q, w :: rest =>
      if q = .terminal && (number w).toBool = false then
        .error (Word.lit "invalid integer " ++ inQuotes w)
      else .ok (.ask q w, rest)
  | [] => .error (missing all)

/-- A single word. -/
def single : List Word → Reading
  | [] => .ok (.constant false, [])
  | w :: rest => .ok (.ask .isNonempty w, rest)

/-- A condition turned round. -/
def turned (r : Reading) : Reading := r.map fun (e, rest) => (.negated e, rest)

/-- A condition of two words. -/
def two (all ws : List Word) : Reading :=
  match ws with
  | ['!'] :: rest => turned (single rest)
  | o :: _ => if isSwitch o then unary all ws else .error (missing all)
  | [] => .error (missing all)

/-- A condition without the closing parenthesis behind it. -/
def enclosed (r : Reading) : Reading := r.map fun (e, rest) => (e, rest.drop 1)

/-- A condition of three words; `whole` reads by precedence. -/
def three (whole : List Word → Reading) (all ws : List Word) : Reading :=
  match ws with
  | a :: o :: b :: rest =>
    match binary? o with
    | some f => (f a b).map (·, rest)
    | none =>
      if a = ['!'] then turned (two all (o :: b :: rest))
      else if a = ['('] && b = [')'] then enclosed (single (o :: b :: rest))
      else if isJoint o then whole ws
      else .error (inQuotes o ++ Word.lit ": binary operator expected")
  | _ => .error (missing all)

/-- A condition of a number of words. -/
def counted (whole : List Word → Reading) (all ws : List Word) (count : Nat) : Reading :=
  match count with
  | 1 => single ws
  | 2 => two all ws
  | 3 => three whole all ws
  | 4 =>
    if ws.head? = some ['!'] then turned (three whole all ws.tail)
    else if ws.head? = some ['('] && ws[3]? = some [')'] then enclosed (two all ws.tail)
    else whole ws
  | _ => whole ws

/-- The number of words up to a closing parenthesis, all of them if it is not near. -/
def groupSize (ws : List Word) : Nat :=
  match ((ws.drop 1).take 4).findIdx? (· = [')']) with
  | some i => i + 1
  | none => ws.length

/-- Reads by precedence: alternatives of conjunctions; `fuel` bounds the depth. -/
def whole (all : List Word) : Nat → List Word → Reading
  | 0, _ => .error (missing all)
  | fuel + 1, ws => do
    let (a, rest) ← conjunction fuel ws
    match rest with
    | ['-', 'o'] :: rest =>
      let (b, rest) ← whole all fuel rest
      pure (.either a b, rest)
    | _ => pure (a, rest)
where
  /-- Reads terms that are joined by `-a`. -/
  conjunction : Nat → List Word → Reading
  | 0, _ => .error (missing all)
  | fuel + 1, ws => do
    let (a, rest) ← term fuel ws
    match rest with
    | ['-', 'a'] :: rest =>
      let (b, rest) ← conjunction fuel rest
      pure (.both a b, rest)
    | _ => pure (a, rest)
  /-- Reads a term. -/
  term : Nat → List Word → Reading
  | 0, _ => .error (missing all)
  | fuel + 1, ws =>
    match ws with
    | [] => .error (missing all)
    | ['!'] :: rest => turned (term fuel rest)
    | ['('] :: [] => .error (missing all)
    | ['('] :: rest => do
      let (e, behind) ← counted (whole all fuel) all rest (groupSize rest)
      match behind with
      | [')'] :: behind => pure (e, behind)
      | [] => .error (Word.lit "')' expected")
      | w :: _ => .error (Word.lit "')' expected, found " ++ inQuotes w)
    | a :: o :: b :: rest =>
      match binary? o with
      | some f => (f a b).map (·, rest)
      | none => if isSwitch a then unary all ws else single ws
    | a :: _ => if isSwitch a then unary all ws else single ws

/-- Reads a whole condition. -/
def parse (ws : List Word) : Except Word Expr :=
  if ws.isEmpty then .ok (.constant false)
  else
    match counted (whole ws (4 * ws.length + 4)) ws ws ws.length with
    | .error m => .error m
    | .ok (e, []) => .ok e
    | .ok (_, w :: _) => .error (Word.lit "extra argument " ++ inQuotes w)

end Test

/-- Decides a condition. -/
def test : Tool := fun args _ => do
  let name := args.headD []
  let operands := if name.getLast? = some '[' then unbracket? args.tail else some args.tail
  let (code, complaint) ←
    match operands with
    | none => pure (2, some (Word.lit "missing ']'"))
    | some ws => Condition.run (Test.parse ws)
  match complaint with
  | some m => complain name m
  | none => pure ()
  pure code

end Conformance.Machine.Tool
