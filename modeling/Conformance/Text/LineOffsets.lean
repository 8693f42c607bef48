import Conformance.Text.Lines
import Conformance.Text.Utf8

/-!
# Lines by byte offsets

A second reading of the lines of a text, which walks over its UTF-8 encoding by byte offsets.
Every cut is checked: an offset past the end of the rest, or inside a character, gives `none`,
and so does a round that leaves the rest as long as it was.
-/

namespace Conformance.Utf8

/-- Whether a byte goes on with a character that another byte has begun. -/
def isContinuation (b : UInt8) : Bool := 0x80 ≤ b.toNat && b.toNat < 0xC0

/-- Whether bytes may be cut at an offset: at their start, at their end, and in between where no
character goes on. -/
def isBoundary (bytes : List UInt8) (offset : Nat) : Bool :=
  if offset = 0 then true
  else
    match bytes[offset]? with
    | none => offset == bytes.length
    | some b => !isContinuation b

/-- The bytes in front of an offset and those from it on; `none` if they may not be cut there. -/
def cut? (bytes : List UInt8) (offset : Nat) : Option (List UInt8 × List UInt8) :=
  if isBoundary bytes offset then some (bytes.take offset, bytes.drop offset) else none

/-- The character that bytes begin with; none takes more than four. -/
def firstChar? (bytes : List UInt8) : Option Char := (bytes.take 4).toByteArray.utf8DecodeChar? 0

theorem ne_nil_of_firstChar? {bytes : List UInt8} {c : Char} (h : firstChar? bytes = some c) :
    bytes ≠ [] := by
  rintro rfl
  have hlt := ByteArray.lt_size_of_isSome_utf8DecodeChar? (Option.isSome_of_eq_some h)
  exact absurd hlt (Nat.lt_irrefl 0)

/-- The offset of the first break character. -/
def breakOffset? (bytes : List UInt8) : Option Nat :=
  match _h : firstChar? bytes with
  | none => none
  | some c =>
    if isBreak c then some 0
    else (breakOffset? (bytes.drop c.utf8Size)).map (c.utf8Size + ·)
  termination_by bytes.length
  decreasing_by
    have hlength := List.length_pos_iff.mpr (ne_nil_of_firstChar? ‹firstChar? bytes = some c›)
    have hsize := c.utf8Size_pos
    rw [List.length_drop]
    omega

/-- The number of bytes of the break unit that bytes begin with, taking their first character for
one. -/
def breakWidth? (bytes : List UInt8) : Option Nat :=
  if (encode ['\r', '\n']).isPrefixOf bytes then some 2 else (firstChar? bytes).map Char.utf8Size

/-- The first line and the rest behind its break unit.  Where a break is found but no character
stands at its offset, the width of the unit is taken to be one byte. -/
def nextLine? (bytes : List UInt8) : Option (List UInt8 × List UInt8) :=
  match breakOffset? bytes with
  | none => some (bytes, [])
  | some offset =>
    match cut? bytes offset with
    | none => none
    | some (line, tail) =>
      match cut? tail ((breakWidth? tail).getD 1) with
      | none => none
      | some (_, rest) => some (line, rest)

/-- The lines of a text, found by byte offsets. -/
def linesByOffset? (bytes : List UInt8) : Option (List (List UInt8)) :=
  if bytes.isEmpty then some []
  else
    match nextLine? bytes with
    | none => none
    | some (line, rest) =>
      if rest.length < bytes.length then (linesByOffset? rest).map (line :: ·) else none
  termination_by bytes.length

end Conformance.Utf8
