import Conformance.Number.Binary64

/-!
# Fixed places

The text of a float with a fixed number of decimal places: its exact value rounded to the nearest
multiple, a half going to the even neighbour.
-/

namespace Conformance.Places

/-- The quotient of two numbers rounded to the nearest whole number, a half to the even one. -/
def roundHalfEven (num den : Nat) : Nat :=
  let q := num / den
  let r := num % den
  if 2 * r < den then q
  else if den < 2 * r then q + 1
  else if q % 2 = 0 then q else q + 1

/-- A numeral with zeros in front up to a width. -/
def padded (width n : Nat) : Text :=
  let digits := Text.ofNat n
  List.replicate (width - digits.length) '0' ++ digits

/-- The text of a float with `places` decimal places; a negative sign stays on a zero. -/
def text (places : Nat) (x : Float) : Text :=
  match Binary64.ofFloat x with
  | .nan => "NaN".toList
  | .infinite negative => (if negative then ['-'] else []) ++ "inf".toList
  | .finite negative m e =>
    let (num, den) := Binary64.ratio m e
    let scaled := roundHalfEven (num * Nat.pow 10 places) den
    let whole := scaled / Nat.pow 10 places
    let part := scaled % Nat.pow 10 places
    (if negative then ['-'] else []) ++ Text.ofNat whole ++
      (if places = 0 then [] else '.' :: padded places part)

end Conformance.Places
