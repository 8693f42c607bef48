import Mathlib.Data.Char
import Mathlib.Data.List.Lex
import Mathlib.Data.Prod.Lex
import Conformance.Text.Basic

/-!
# The order of texts

Texts are ordered by their scalar values, which is the lexicographic order of their characters.
-/

namespace Conformance

namespace Text

theorem order_eq_lt_iff {a b : Text} : order a b = .lt ↔ a < b := by
  induction a generalizing b with
  | nil => cases b <;> simp [order]
  | cons c r ih =>
    cases b with
    | nil => simp [order]
    | cons d s =>
      rw [order, Ordering.then_eq_lt, Nat.compare_eq_lt, Nat.compare_eq_eq, ih,
        List.cons_lt_cons_iff, Char.toNat_inj]
      rfl

theorem order_eq_eq_iff {a b : Text} : order a b = .eq ↔ a = b := by
  induction a generalizing b with
  | nil => cases b <;> simp [order]
  | cons c r ih =>
    cases b with
    | nil => simp [order]
    | cons d s =>
      rw [order, Ordering.then_eq_eq, Nat.compare_eq_eq, ih, List.cons.injEq, Char.toNat_inj]

theorem order_eq_gt_iff {a b : Text} : order a b = .gt ↔ b < a := by
  have hlt : order a b = .lt ↔ a < b := order_eq_lt_iff
  have heq : order a b = .eq ↔ a = b := order_eq_eq_iff
  cases ho : order a b with
  | lt => exact iff_of_false (fun h => nomatch h) (hlt.mp ho).asymm
  | eq => exact iff_of_false (fun h => nomatch h) (heq.mp ho ▸ lt_irrefl a)
  | gt =>
    rw [ho] at hlt heq
    refine iff_of_true rfl (lt_of_le_of_ne (not_lt.mp fun h => ?_) fun h => ?_)
    · exact nomatch hlt.mpr h
    · exact nomatch heq.mpr h.symm

end Text

end Conformance
