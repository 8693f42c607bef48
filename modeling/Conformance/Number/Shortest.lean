import Conformance.Number.Binary64

/-!
# Shortest decimal text

The text of a float in positional notation with the fewest significant digits that read back as
the same float, and of those the digits nearest to its exact value.

A finite float `m * 2 ^ e` stands for all reals between the midpoints to its two neighbours; the
midpoints belong to it when `m` is even.  For one, two, up to seventeen digits the two points of
the decimal grid around the value are tried, and the first grid with a point in that range wins.
-/

namespace Conformance.Shortest

/-- The reals that round to a float, over a common denominator. -/
structure Range where
  low : Nat
  value : Nat
  high : Nat
  den : Nat
  closed : Bool

/-- The range of `m * 2 ^ e`; below a power of two the lower neighbour is half as far. -/
def Range.of (m : Nat) (e : Int) : Range :=
  let (num, den) := Binary64.ratio 1 (e - 2)
  let below := if m = 0x10000000000000 ∧ e ≠ -1074 then 1 else 2
  ⟨(4 * m - below) * num, 4 * m * num, (4 * m + 2) * num, den, m % 2 == 0⟩

/-- Whether the decimal `digits / 10 ^ places` lies in the range. -/
def Range.holds (r : Range) (digits places : Nat) : Bool :=
  let point := digits * r.den
  let low := r.low * Nat.pow 10 places
  let high := r.high * Nat.pow 10 places
  if r.closed then decide (low ≤ point ∧ point ≤ high) else decide (low < point ∧ point < high)

/-- The point in the range on the grid of multiples of `10 ^ zeros / 10 ^ places` that is nearest
to the value, the upper one of two equally near; as a multiple of `1 / 10 ^ places`. -/
def Range.nearest? (r : Range) (zeros places : Nat) : Option Nat :=
  let unit := Nat.pow 10 zeros
  let value := r.value * Nat.pow 10 places
  let lower := value / (r.den * unit) * unit
  let upper := lower + unit
  match r.holds lower places, r.holds upper places with
  | true, true =>
    if value - lower * r.den < upper * r.den - value then some lower else some upper
  | true, false => some lower
  | false, true => some upper
  | false, false => none

/-- The number of decimal digits of the whole part of the value. -/
def Range.wholeDigits (r : Range) : Nat :=
  if r.value < r.den then 0 else (Text.ofNat (r.value / r.den)).length

/-- The number of zeros between the point and the first digit of a value below one, up to `fuel`. -/
def Range.leadingZeros (r : Range) : Nat → Nat
  | 0 => 0
  | fuel + 1 =>
    if r.den ≤ r.value * 10 then 0 else Range.leadingZeros { r with value := r.value * 10 } fuel + 1

/-- The first hit on the grids of `used`, `used + 1`, … significant digits, with the number of
decimal places of its grid. -/
def Range.search (r : Range) (whole lead : Nat) : Nat → Nat → Nat × Nat
  | 0, _ => (r.value / r.den, 0)
  | fuel + 1, used =>
    let zeros := whole - used
    let places := if whole = 0 then lead + used else used - whole
    match r.nearest? zeros places with
    | some digits => (digits, places)
    | none => r.search whole lead fuel (used + 1)

/-- A decimal `digits / 10 ^ places` in positional notation, without trailing zeros behind the
point. -/
def positional (digits places : Nat) : Text :=
  let numeral := Text.ofNat digits
  let padded := List.replicate (places + 1 - numeral.length) '0' ++ numeral
  let cut := padded.length - places
  let fraction := ((padded.drop cut).reverse.dropWhile (· == '0')).reverse
  padded.take cut ++ (if fraction.isEmpty then [] else '.' :: fraction)

/-- The shortest text that reads back as the float. -/
def text (x : Float) : Text :=
  match Binary64.ofFloat x with
  | .nan => "NaN".toList
  | .infinite negative => (if negative then ['-'] else []) ++ "inf".toList
  | .finite negative m e =>
    (if negative then ['-'] else []) ++
      if m = 0 then ['0']
      else
        let r := Range.of m e
        let (digits, places) := r.search r.wholeDigits (r.leadingZeros 400) 17 1
        positional digits places

end Conformance.Shortest
