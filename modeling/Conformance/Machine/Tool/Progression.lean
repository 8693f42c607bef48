import Conformance.Machine.Tool.Format

/-!
# Progressions

Numbers from one on to another by equal steps, and one text again and again.
-/

namespace Conformance.Machine.Tool

open Routine

namespace Progression

/-! ## Operands -/

/-- A number that was named as an operand: its value, the number of characters that it takes, and
the number of its decimal places if that is known. -/
structure Operand where
  value : Real
  width : Int
  places : Option Int

/-- The operand of the number one. -/
def Operand.one : Operand := ⟨Real.ofInt 1, 1, some 0⟩

/-- The number that a whole word stands for. -/
def number? (w : Word) : Option Real :=
  match Real.read? Real.extended w with
  | some r => if r.rest.isEmpty && !r.outOfRange then some r.value else none
  | none => none

/-- The exponent behind the letter, as a number. -/
def exponentOf (w : Word) : Int :=
  let (negative, digits) :=
    match w with
    | '-' :: r => (true, r)
    | '+' :: r => (false, r)
    | r => (false, r)
  let n : Int := (Word.nat? (digits.takeWhile Char.isDigit)).getD 0
  if negative then -n else n

/-- Reads an operand. -/
def operand? (w : Word) : Option Operand := do
  let value ← number? w
  let shape := w.dropWhile fun c => c = ' ' || ('\t' ≤ c && c ≤ '\r') || c = '+'
  let front := shape.takeWhile (· ≠ '.')
  let behind := shape.drop (front.length + 1)
  let pointed := shape.contains '.'
  let plain := !(shape.contains 'x' || shape.contains 'X')
  let isExponent (c : Char) : Bool := c = 'e' || c = 'E'
  if !(plain && value.isFinite) then
    pure ⟨value, 0, if pointed || shape.contains 'p' then none else some 0⟩
  else
    let fraction : Int := (behind.takeWhile fun c => !isExponent c).length
    let places := if pointed then fraction else 0
    let width : Int := shape.length +
      (if !pointed then 0
        else if fraction = 0 then -1
        else if (front.getLast?).any Char.isDigit then 0 else 1)
    let mantissa := shape.takeWhile fun c => !isExponent c
    match shape.drop mantissa.length with
    | [] => pure ⟨value, width, some places⟩
    | _ :: tail =>
      let e := exponentOf tail
      let width := width - (tail.length + 1)
      if e < 0 then
        let undo : Int := if !pointed || fraction = 0 then 1 else 0
        pure ⟨value, width + undo - e, some (places - e)⟩
      else
        let places := places - min places e
        let width := if pointed && places = 0 && fraction ≠ 0 then width - 1 else width
        pure ⟨value, width + (e - min fraction e), some places⟩

/-! ## Formats -/

/-- How numbers are written: what stands in front of them and behind them, and the conversion. -/
structure Shape where
  front : Word
  layout : Format.Layout
  letter : Char
  behind : Word

/-- A number without what stands around it. -/
def Shape.bare (s : Shape) (x : Real) : Word := s.layout.real Format.Manner.tool s.letter x

/-- A number as it is written. -/
def Shape.write (s : Shape) (x : Real) : Word := s.front ++ s.bare x ++ s.behind

/-- A layout without anything special. -/
def plainLayout : Format.Layout := ⟨false, false, false, false, false, 0, none⟩

/-- The text up to a lone percent sign, with the doubled ones halved. -/
def upToPercent : Word → Word × Word
  | '%' :: '%' :: r =>
    let (a, b) := upToPercent r
    ('%' :: a, b)
  | '%' :: r => ([], '%' :: r)
  | c :: r =>
    let (a, b) := upToPercent r
    (c :: a, b)
  | [] => ([], [])

/-- Reads a format, or says what is wrong with it. -/
def shape (w : Word) : Except Word Shape :=
  let flaw (m : String) : Except Word Shape := .error (Word.lit "format " ++ inQuotes w ++ m.toList)
  match upToPercent w with
  | (_, []) => flaw " has no % directive"
  | (front, _ :: r) =>
    let flags := r.takeWhile "-+#0 '".toList.contains
    let (layout, _) := Format.flags plainLayout (flags.filter (· ≠ '\''))
    let r := r.drop flags.length
    let width := r.takeWhile Char.isDigit
    let r := r.drop width.length
    let (precision, r) : Option Nat × Word :=
      match r with
      | '.' :: r =>
        let digits := r.takeWhile Char.isDigit
        (some ((Word.nat? digits).getD 0), r.drop digits.length)
      | r => (none, r)
    let r := if r.head? = some 'L' then r.drop 1 else r
    match r with
    | [] => flaw " ends in %"
    | c :: r =>
      if !"efgaEFGA".toList.contains c then
        .error (Word.lit "format " ++ inQuotes w ++ Word.lit " has unknown %" ++ [c] ++
          Word.lit " directive")
      else
        match upToPercent r with
        | (behind, []) =>
          .ok ⟨front, { layout with width := (Word.nat? width).getD 0, precision }, c, behind⟩
        | _ => flaw " has too many % directives"

/-- The format for operands, all numbers as wide as the widest if they are to be. -/
def defaultShape (wide : Bool) (first step last : Operand) : Shape :=
  match first.places, step.places, last.places with
  | some p, some q, some r =>
    let places := max p q
    let firstWidth := first.width + (places - p) + if p = 0 && places ≠ 0 then 1 else 0
    let lastWidth := last.width + (places - r) +
      (if r ≠ 0 && places = 0 then -1 else if r = 0 && places ≠ 0 then 1 else 0)
    let width := (max firstWidth lastWidth).toNat
    ⟨[], { plainLayout with
      zero := wide, width := if wide then width else 0, precision := some places.toNat }, 'f', []⟩
  | _, _, _ => ⟨[], plainLayout, 'g', []⟩

/-! ## Output -/

/-- Writes whole numbers from `n` on by steps, a thousand at a time. -/
def countUp (name : Word) (last : Option Nat) (step : Nat) (separator : Word) :
    Nat → Bool → Nat → Routine Nat
  | 0, _, _ => pure 0
  | fuel + 1, first, n => do
    let left := match last with
      | some l => if n ≤ l then (l - n) / step + 1 else 0
      | none => 1000
    let count := min left 1000
    let numbers := (List.range count).map fun i => Word.ofNat (n + step * i)
    if count = 0 then
      if !first then emit name ['\n']
      pure 0
    else
      emit name ((if first then [] else separator) ++ separator.intercalate numbers)
      countUp name last step separator fuel false (n + step * count)

/-- A progression that is written. -/
structure Plan where
  first : Real
  step : Real
  last : Real
  separator : Word
  shape : Shape

/-- Whether a number lies behind the end. -/
def Plan.isBehind (p : Plan) (x : Real) : Bool :=
  if p.step.lt (Real.ofInt 0) then x.lt p.last else p.last.lt x

/-- Whether a number behind the end is written nevertheless: it reads as the end, and other than
the number in front of it. -/
def Plan.isEnd (p : Plan) (before x : Real) : Bool :=
  let text := p.shape.bare x
  (number? text).any p.last.same && text ≠ p.shape.bare before

/-- Writes the numbers behind `x`, which is the one with number `i`. -/
def Plan.writeFrom (p : Plan) (name : Word) : Nat → Nat → Real → Routine Nat
  | 0, _, _ => pure 0
  | fuel + 1, i, x => do
    emit name (p.shape.write x)
    let next := Real.add Real.extended p.first
      (Real.mul Real.extended (Real.ofInt (i + 1 : Nat)) p.step)
    compute
    if !p.isBehind next then
      emit name p.separator
      p.writeFrom name fuel (i + 1) next
    else if p.isEnd x next then
      emit name (p.separator ++ p.shape.write next ++ ['\n'])
      pure 0
    else
      emit name ['\n']
      pure 0

/-- Writes a progression. -/
def Plan.run (p : Plan) (name : Word) : Routine Nat :=
  if p.isBehind p.first then pure 0 else p.writeFrom name rounds 0 p.first

/-- The greatest step of whole numbers that are counted without a format. -/
def quickStep : Nat := 200

/-- The whole number that an operand stands for if it is written without a format. -/
def Operand.whole? (o : Operand) : Option Nat :=
  match o.places, o.value with
  | some 0, .finite false m e =>
    let (num, den) := Real.ratio m e
    if num % den = 0 then some (num / den) else none
  | _, _ => none

/-- Writes a progression of operands; `exact` are the operands as whole numbers of any size. -/
def start (name : Word) (p : Parsed) (exact : List (Option Nat)) (first step last : Operand) :
    Routine Nat := do
  let separator := (p.value? 's').getD ['\n']
  let quick (s : Nat) : Bool :=
    !p.has 'w' && !p.has 'f' && separator.length = 1 && 0 < s && s ≤ quickStep
  let stepExact := if exact.length = 3 then exact.getD 1 none else some 1
  let firstExact := if exact.length = 1 then some 1 else exact.headD none
  match firstExact, stepExact, exact.getLastD none with
  | some f, some s, some l =>
    if quick s then countUp name (some l) s separator rounds true f else general separator quick
  | _, _, _ => general separator quick
where
  /-- The same, when an operand is no whole number. -/
  general (separator : Word) (quick : Nat → Bool) : Routine Nat := do
    let endless := last.value.infinite? = some false
    match first.whole?, step.whole? with
    | some f, some s =>
      if quick s && (endless || last.whole?.isSome) then
        countUp name last.whole? s separator rounds true f
      else formatted separator
    | _, _ => formatted separator
  /-- The same, with a format. -/
  formatted (separator : Word) : Routine Nat := do
    match (p.value? 'f').map shape with
    | some (.ok s) => (Plan.mk first.value step.value last.value separator s).run name
    | _ =>
      (Plan.mk first.value step.value last.value separator
        (defaultShape (p.has 'w') first step last)).run name

/-- The operands of some words, or what is wrong with one of them; a step must not be zero. -/
def operandsOf (count : Nat) : Nat → List Word → Except Word (List Operand)
  | _, [] => .ok []
  | i, w :: rest =>
    match operand? w with
    | none => .error (Word.lit "invalid floating point argument: " ++ inQuotes w)
    | some o =>
      if o.value matches .nan then .error (Word.lit "invalid 'not-a-number' argument: " ++ inQuotes w)
      else if count = 3 && i = 1 && o.value.same (Real.ofInt 0) then
        .error (Word.lit "invalid Zero increment value: " ++ inQuotes w)
      else (operandsOf count (i + 1) rest).map (o :: ·)

end Progression

open Progression in
/-- Writes numbers from one on to another by equal steps. -/
def seq : Tool := fun args _ =>
  withOptions
    { plain := "w", valued := "fs", inOrder := true
      long := [("equal-width", 'w'), ("format", 'f'), ("separator", 's')]
      isOperand := fun w => (w[1]?).any fun c => c = '.' || c.isDigit } args fun name p => do
    let count := p.operands.length
    if count = 0 then refuse name (Word.lit "missing operand") 1
    else if 3 < count then extraOperand name (p.operands.getD 3 []) 1
    else
      match (p.value? 'f').map shape with
      | some (.error m) =>
        complain name m
        pure 1
      | _ =>
        if p.has 'f' && p.has 'w' then
          refuse name (Word.lit ("format string may not be specified" ++
            " when printing equal width strings")) 1
        else
          match operandsOf count 0 p.operands with
          | .error m => refuse name m 1
          | .ok [last] => start name p (p.operands.map Word.nat?) .one .one last
          | .ok [first, last] => start name p (p.operands.map Word.nat?) first .one last
          | .ok [first, step, last] => start name p (p.operands.map Word.nat?) first step last
          | .ok _ => pure 1

/-- Writes one block again and again. -/
def repeatBlock (name : Word) (b : ByteArray) : Nat → Routine Nat
  | 0 => pure 0
  | fuel + 1 => do
    checked name (← write 1 b)
    repeatBlock name b fuel

/-- Writes its operands again and again. -/
def yes : Tool := fun args _ =>
  withOptions { plain := "", valued := "", inOrder := true } args fun name p => do
    let line := (if p.operands.isEmpty then ['y'] else [' '].intercalate p.operands) ++ ['\n']
    let block := (List.replicate (max 1 (4096 / line.length)) line).flatten
    repeatBlock name (Word.toBytes block) rounds

end Conformance.Machine.Tool
