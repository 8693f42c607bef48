import Conformance.Machine.Tool.Basic
import Conformance.Number.Binary64

/-!
# Real numbers of tools

Binary floating point of any precision: read from decimal and hexadecimal notation, rounded to the
nearest, and written in fixed, scientific, general and hexadecimal notation.  All of it is done on
exact quotients of whole numbers.
-/

namespace Conformance.Machine

/-- A real number of a tool: not a number, an infinity, or a sign with `mantissa * 2 ^ exponent`. -/
abbrev Real := Binary64

namespace Real

/-- The precision of a kind of floating point: the bits of a mantissa, and the least exponent that
the last of them can have; the greatest is as far above zero. -/
structure Kind where
  bits : Nat
  least : Int
  greatest : Int

/-- Floating point of 64 bits. -/
def double : Kind := ⟨53, -1074, 971⟩

/-- Floating point of 80 bits. -/
def extended : Kind := ⟨64, -16445, 16320⟩

/-- The number of binary digits. -/
def bitLength (n : Nat) : Nat := if n = 0 then 0 else Nat.log2 n + 1

/-- The quotient of two numbers rounded to the nearest whole number, a half to the even one. -/
def roundHalfEven (num den : Nat) : Nat :=
  let q := num / den
  let r := 2 * (num % den)
  if r < den || (r = den && q % 2 = 0) then q else q + 1

/-- The quotient of two numbers rounded to a kind of floating point, with a sign. -/
def ofRatio (k : Kind) (negative : Bool) (num den : Nat) : Real :=
  if num = 0 then .finite negative 0 0
  else
    let guess : Int := (bitLength num : Int) - bitLength den - k.bits
    let scaledBy (e : Int) : Nat × Nat :=
      match e with
      | .ofNat n => (num, den * Nat.pow 2 n)
      | .negSucc n => (num * Nat.pow 2 (n + 1), den)
    let fits (e : Int) : Bool :=
      let (n, d) := scaledBy e
      decide (n < d * Nat.pow 2 k.bits)
    let e := max k.least (if fits guess then guess else guess + 1)
    let (n, d) := scaledBy e
    let m := roundHalfEven n d
    let (m, e) := if m = Nat.pow 2 k.bits then (m / 2, e + 1) else (m, e)
    if k.greatest < e then .infinite negative else .finite negative m e

/-- The quotient of two numbers that a finite value is. -/
def ratio (m : Nat) (e : Int) : Nat × Nat := Binary64.ratio m e

/-- A whole number. -/
def ofInt (i : Int) : Real := .finite (decide (i < 0)) i.natAbs 0

/-! ## Reckoning -/

/-- A finite number as a quotient. -/
def quotient? : Real → Option (Int × Nat)
  | .finite negative m e =>
    let (num, den) := ratio m e
    some (if negative then -(num : Int) else num, den)
  | _ => none

/-- A quotient rounded to a kind of floating point. -/
def ofQuotient (k : Kind) (num : Int) (den : Nat) : Real :=
  ofRatio k (decide (num < 0)) num.natAbs den

/-- Whether a number is the negative infinity or the positive one. -/
def infinite? : Real → Option Bool
  | .infinite negative => some negative
  | _ => none

/-- The sum of two numbers, rounded. -/
def add (k : Kind) (x y : Real) : Real :=
  match quotient? x, quotient? y with
  | some (a, b), some (c, d) => ofQuotient k (a * d + c * b) (b * d)
  | none, some _ => x
  | some _, none => y
  | none, none => if infinite? x = infinite? y then x else .nan

/-- The product of two numbers, rounded. -/
def mul (k : Kind) (x y : Real) : Real :=
  match quotient? x, quotient? y with
  | some (a, b), some (c, d) => ofQuotient k (a * c) (b * d)
  | none, none =>
    match infinite? x, infinite? y with
    | some a, some b => .infinite (a != b)
    | _, _ => .nan
  | none, some (c, _) => times x c
  | some (a, _), none => times y a
where
  /-- A number that is not finite, times a finite one that has this sign. -/
  times (x : Real) (sign : Int) : Real :=
    match infinite? x with
    | some negative => if sign = 0 then .nan else .infinite (negative != decide (sign < 0))
    | none => .nan

/-- Whether a number is less than another one. -/
def lt (x y : Real) : Bool :=
  match quotient? x, quotient? y with
  | some (a, b), some (c, d) => decide (a * d < c * b)
  | none, some _ => infinite? x = some true
  | some _, none => infinite? y = some false
  | none, none => infinite? x = some true && infinite? y = some false

/-- Whether two numbers are equal. -/
def same (x y : Real) : Bool :=
  match quotient? x, quotient? y with
  | some (a, b), some (c, d) => a * d == c * b
  | none, none => (infinite? x).isSome && infinite? x == infinite? y
  | _, _ => false

/-! ## Reading -/

/-- What was read at the front of a word: the number, what follows it, and whether it was out of
range. -/
structure Read where
  value : Real
  rest : Word
  outOfRange : Bool

/-- The value of a hexadecimal digit. -/
def hexValue? (c : Char) : Option Nat :=
  if c.isDigit then some (c.toNat - 48)
  else if 'a' ≤ c && c ≤ 'f' then some (c.toNat - 87)
  else if 'A' ≤ c && c ≤ 'F' then some (c.toNat - 55)
  else none

/-- An exponent behind one of two letters, and what follows it. -/
def exponentAt (small great : Char) (w : Word) : Int × Word :=
  match w with
  | c :: r =>
    if c = small || c = great then
      let (sign, digits) : Int × Word :=
        match r with
        | '-' :: r => (-1, r)
        | '+' :: r => (1, r)
        | r => (1, r)
      let run := digits.takeWhile Char.isDigit
      match Word.nat? run with
      | some n => (sign * min n 100000, digits.drop run.length)
      | none => (0, w)
    else (0, w)
  | [] => (0, w)

/-- Digits with a point among them: their value as a whole number, the number of digits behind the
point, and what follows; none without a digit. -/
def digitsAt (base : Nat) (value? : Char → Option Nat) (w : Word) : Option (Nat × Nat × Word) :=
  let take (w : Word) : Word := w.takeWhile fun c => (value? c).isSome
  let fold (n : Nat) (w : Word) : Nat := w.foldl (fun n c => n * base + (value? c).getD 0) n
  let whole := take w
  let behind := w.drop whole.length
  match behind with
  | '.' :: r =>
    let part := take r
    if whole.isEmpty && part.isEmpty then none
    else some (fold (fold 0 whole) part, part.length, r.drop part.length)
  | _ => if whole.isEmpty then none else some (fold 0 whole, 0, behind)

/-- The quotient `n * base ^ e` as a numerator and a denominator. -/
def scale (n base : Nat) : Int → Nat × Nat
  | .ofNat k => (n * Nat.pow base k, 1)
  | .negSucc k => (n, Nat.pow base (k + 1))

/-- A number of a kind with a sign from a quotient; whether it is out of range. -/
def Read.of (k : Kind) (negative : Bool) (q : Nat × Nat) (rest : Word) : Read :=
  let v := ofRatio k negative q.1 q.2
  let out :=
    match v with
    | .infinite _ => true
    | .finite _ m _ => decide (q.1 ≠ 0 ∧ bitLength m < k.bits)
    | .nan => false
  ⟨v, rest, out⟩

/-- Whether a word begins with letters, in capitals or not. -/
def beginsWith (s : String) (w : Word) : Bool :=
  s.toList.isPrefixOf ((w.take s.length).map Char.toLower)

/-- Reads the number at the front of a word, behind blanks and a sign if there are any. -/
def read? (k : Kind) (w : Word) : Option Read :=
  let w := w.dropWhile fun c => c = ' ' || ('\t' ≤ c && c ≤ '\r')
  let (negative, w) :=
    match w with
    | '-' :: r => (true, r)
    | '+' :: r => (false, r)
    | r => (false, r)
  if beginsWith "infinity" w then some ⟨.infinite negative, w.drop 8, false⟩
  else if beginsWith "inf" w then some ⟨.infinite negative, w.drop 3, false⟩
  else if beginsWith "nan" w then some ⟨.nan, w.drop 3, false⟩
  else
    let hex :=
      if beginsWith "0x" w then digitsAt 16 hexValue? (w.drop 2) else none
    match hex with
    | some (n, places, rest) =>
      let (e, rest) := exponentAt 'p' 'P' rest
      some (.of k negative (scale n 2 (e - 4 * places)) rest)
    | none =>
      match digitsAt 10 (fun c => if c.isDigit then some (c.toNat - 48) else none) w with
      | none => none
      | some (n, places, rest) =>
        let (e, rest) := exponentAt 'e' 'E' rest
        some (.of k negative (scale n 10 (e - places)) rest)

/-! ## Writing -/

/-- A numeral with zeros in front up to a width. -/
def padded (width n : Nat) : Word :=
  let digits := Word.ofNat n
  List.replicate (width - digits.length) '0' ++ digits

/-- A quotient with a fixed number of decimal places. -/
def fixed (num den places : Nat) (point : Bool) : Word :=
  let scaled := roundHalfEven (num * Nat.pow 10 places) den
  Word.ofNat (scaled / Nat.pow 10 places) ++
    (if places = 0 then if point then ['.'] else []
      else '.' :: padded places (scaled % Nat.pow 10 places))

/-- The exponent of ten of a quotient that is not zero. -/
def decimalExponent (num den : Nat) : Int :=
  let guess : Int := (Word.ofNat num).length - (Word.ofNat den).length
  let (n, d) := scale 1 10 guess
  if num * d < den * n then guess - 1 else guess

/-- The digits of a quotient as a whole number of `digits` digits, and its exponent of ten. -/
def significant (num den digits : Nat) : Nat × Int :=
  if num = 0 then (0, 0)
  else
    let e := decimalExponent num den
    let (n, d) := scale 1 10 (digits - 1 - e)
    let m := roundHalfEven (num * n) (den * d)
    if m = Nat.pow 10 digits then (m / 10, e + 1) else (m, e)

/-- The exponent in scientific notation. -/
def exponentText (e : Int) : Word :=
  ['e', if e < 0 then '-' else '+'] ++ padded 2 e.natAbs

/-- A quotient in scientific notation with some places behind the point. -/
def scientific (num den places : Nat) (point : Bool) : Word :=
  let (m, e) := significant num den (places + 1)
  let digits := padded (places + 1) m
  digits.take 1 ++ (if places = 0 then if point then ['.'] else [] else '.' :: digits.drop 1) ++
    exponentText e

/-- A numeral without the zeros, and the point, at its end. -/
def trimZeros (w : Word) : Word :=
  if w.contains '.' then
    let r := w.reverse.dropWhile (· = '0')
    (if r.head? = some '.' then r.drop 1 else r).reverse
  else w

/-- A quotient with some significant digits, in fixed or in scientific notation. -/
def general (num den digits : Nat) (alternate : Bool) : Word :=
  let digits := max digits 1
  let (_, e) := significant num den digits
  if -4 ≤ e && e < digits then
    let w := fixed num den (digits - 1 - e).toNat alternate
    if alternate then w else trimZeros w
  else
    let w := scientific num den (digits - 1) alternate
    let front := w.takeWhile (· ≠ 'e')
    (if alternate then front else trimZeros front) ++ w.drop front.length

/-- A number in hexadecimal notation; `lead` is the number of bits in front of the point. -/
def hexadecimal (lead bits : Nat) (m : Nat) (e : Int) (places : Option Nat) (point : Bool) : Word :=
  let zero := m = 0
  let shift := bits - bitLength m
  let m := m * Nat.pow 2 shift
  let e := e - shift
  let below := bits - lead
  let whole := (below + 3) / 4
  let m := m * Nat.pow 2 (4 * whole - below)
  let (m, whole) :=
    match places with
    | some n =>
      if n < whole then (roundHalfEven m (Nat.pow 16 (whole - n)), n)
      else (m * Nat.pow 16 (n - whole), n)
    | none => (m, whole)
  let part := m % Nat.pow 16 whole
  let digits := Nat.toDigits 16 part
  let digits := List.replicate (whole - digits.length) '0' ++ digits
  let digits := if places.isSome then digits else (digits.reverse.dropWhile (· = '0')).reverse
  let digits := if whole = 0 then [] else digits
  let e := if zero then 0 else e + below
  Word.lit "0x" ++ Nat.toDigits 16 (m / Nat.pow 16 whole) ++
    (if digits.isEmpty && !point then [] else '.' :: digits) ++
    ['p', if e < 0 then '-' else '+'] ++ Word.ofNat e.natAbs

/-- How a number is written: the letter of the conversion, the precision if one is given, and
whether the alternate form is asked for. -/
structure Style where
  letter : Char
  precision : Option Nat
  alternate : Bool

/-- The sign and the digits of a number; `lead` and `bits` are those of the hexadecimal form. -/
def write (lead bits : Nat) (style : Style) (x : Real) : Bool × Word :=
  let up (w : Word) : Word := if style.letter.isUpper then w.map Char.toUpper else w
  match x with
  | .nan => (false, up (Word.lit "nan"))
  | .infinite negative => (negative, up (Word.lit "inf"))
  | .finite negative m e =>
    let (num, den) := ratio m e
    let places := style.precision.getD 6
    (negative, up (match style.letter.toLower with
      | 'f' => fixed num den places style.alternate
      | 'e' => scientific num den places style.alternate
      | 'g' => general num den places style.alternate
      | _ => hexadecimal lead bits m e style.precision style.alternate))

/-- Whether a value is neither infinite nor missing. -/
def isFinite : Real → Bool
  | .finite .. => true
  | _ => false

end Real

end Conformance.Machine
