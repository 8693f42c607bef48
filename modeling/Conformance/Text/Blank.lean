import Conformance.Text.Basic

/-!
# Blanks and words

The characters with the Unicode property `White_Space`, and the words of a text: its maximal runs
of other characters.
-/

namespace Conformance

/-- The Unicode property `White_Space`. -/
def isBlank (c : Char) : Bool :=
  let n := c.toNat
  (9 ≤ n && n ≤ 13) || n == 0x20 || n == 0x85 || n == 0xA0 || n == 0x1680 ||
    (0x2000 ≤ n && n ≤ 0x200A) || n == 0x2028 || n == 0x2029 || n == 0x202F || n == 0x205F ||
    n == 0x3000

/-- The ranges of the property end where they should. -/
example :
    ([9, 13, 0x20, 0x85, 0xA0, 0x1680, 0x2000, 0x200A, 0x2028, 0x2029, 0x202F, 0x205F,
      0x3000].all fun n => isBlank (Char.ofNat n)) &&
    ([8, 14, 0x1F, 0x21, 0x84, 0x86, 0x9F, 0xA1, 0x167F, 0x1681, 0x180E, 0x1FFF, 0x200B, 0x2027,
      0x202A, 0x202E, 0x2030, 0x205E, 0x2060, 0x2FFF, 0x3001, 0xFEFF].all fun n =>
        !isBlank (Char.ofNat n)) := by decide

namespace Text

/-- The words of a text, where `part` is the reversed start of the word being read and `done` the
words already read, last first. -/
def collectWords (done : List Text) (part : Text) : Text → List Text
  | [] => if part.isEmpty then done.reverse else (part.reverse :: done).reverse
  | c :: r =>
    if isBlank c then
      collectWords (if part.isEmpty then done else part.reverse :: done) [] r
    else collectWords done (c :: part) r

/-- The maximal runs of characters that are not blank, in order. -/
def words (t : Text) : List Text := collectWords [] [] t

end Text

end Conformance
