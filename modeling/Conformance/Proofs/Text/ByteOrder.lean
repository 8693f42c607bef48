import Conformance.Proofs.Text.Order
import Conformance.Proofs.Text.Utf8

/-!
# The order of encoded texts

The bytes of texts are in the same lexicographic order as their scalar values
(`encode_lt_encode`).  Two different characters part at one of their bytes, and there the byte
of the lesser character is the lesser one (`units_append_lt`): the first bytes grow with the length
of the encoding, and within a length the bytes are the digits of the scalar value.
-/

namespace Conformance.Utf8

/-- The lesser of two scalar values has the lesser bytes, whatever follows them. -/
theorem units_append_lt {v w : Nat} (h : v < w) (r s : List Nat) :
    units v ++ r < units w ++ s := by
  unfold units
  split_ifs <;>
    simp only [List.cons_append, List.nil_append, List.cons_lt_cons_iff] <;>
    omega

/-- Bytes are compared as the numbers that they are. -/
theorem map_toNat_lt_map_toNat_iff {a b : List UInt8} :
    a.map UInt8.toNat < b.map UInt8.toNat ↔ a < b := by
  induction a generalizing b with
  | nil => cases b <;> simp
  | cons x r ih =>
    cases b with
    | nil => simp
    | cons y s =>
      rw [List.map_cons, List.map_cons, List.cons_lt_cons_iff, List.cons_lt_cons_iff, ih,
        UInt8.toNat_inj, UInt8.lt_iff_toNat_lt]

/-- The lesser of two characters has the lesser bytes, whatever follows them. -/
theorem utf8EncodeChar_append_lt {c d : Char} (h : c < d) (r s : List UInt8) :
    String.utf8EncodeChar c ++ r < String.utf8EncodeChar d ++ s := by
  rw [← map_toNat_lt_map_toNat_iff, List.map_append, List.map_append, map_toNat_utf8EncodeChar,
    map_toNat_utf8EncodeChar]
  exact units_append_lt h _ _

/-- **Order.** The lesser of two texts has the lesser bytes. -/
theorem encode_lt_encode {a b : Text} (h : a < b) : encode a < encode b := by
  induction a generalizing b with
  | nil =>
    cases b with
    | nil => exact absurd h (lt_irrefl _)
    | cons d s =>
      obtain ⟨byte, bytes, hd⟩ := List.exists_cons_of_ne_nil (String.utf8EncodeChar_ne_nil (c := d))
      rw [encode_cons, hd]
      exact List.nil_lt_cons _ _
  | cons c r ih =>
    cases b with
    | nil => exact absurd h (List.not_lt_nil _)
    | cons d s =>
      rw [encode_cons, encode_cons]
      rcases List.cons_lt_cons_iff.mp h with hlt | ⟨rfl, hlt⟩
      · exact utf8EncodeChar_append_lt hlt _ _
      · exact List.append_left_lt (ih hlt)

end Conformance.Utf8
