import Mathlib.Data.List.TakeWhile
import Conformance.Text.Basic

/-!
# Cutting at a sign

A text, or the bytes of a path, are cut at the first occurrence of a sign by `takeWhile` and
`dropWhile`, and at every occurrence by `splitAt`, which reads back what `join` writes if no piece
holds the sign (`splitAt_join`).
-/

namespace Conformance.Text

/-! ## At the first occurrence -/

variable {α : Type} [DecidableEq α] {c : α} {t : List α}

theorem takeWhile_of_not_mem (h : c ∉ t) : t.takeWhile (· ≠ c) = t := by
  apply List.takeWhile_eq_self_iff.mpr
  intro d hd
  apply decide_eq_true
  rintro rfl
  exact h hd

theorem dropWhile_of_not_mem (h : c ∉ t) : t.dropWhile (· ≠ c) = [] := by
  apply List.dropWhile_eq_nil_iff.mpr
  intro d hd
  apply decide_eq_true
  rintro rfl
  exact h hd

theorem takeWhile_append_cons (h : c ∉ t) (r : List α) :
    (t ++ c :: r).takeWhile (· ≠ c) = t := by
  rw [List.takeWhile_append, takeWhile_of_not_mem h]
  simp

theorem dropWhile_append_cons (h : c ∉ t) (r : List α) :
    (t ++ c :: r).dropWhile (· ≠ c) = c :: r := by
  rw [List.dropWhile_append, dropWhile_of_not_mem h]
  simp

/-! ## At every occurrence -/

theorem splitAt_append_cons (c : α) (a b : List α) :
    splitAt c (a ++ c :: b) = splitAt c a ++ splitAt c b := by
  induction a with
  | nil => simp [splitAt]
  | cons d r ih =>
    by_cases h : d = c
    · simp [splitAt, h, ih]
    · rw [List.cons_append, splitAt, if_neg h, ih, splitAt, if_neg h]
      cases hr : splitAt c r with
      | nil => exact absurd hr (splitAt_ne_nil c r)
      | cons p ps => rfl

theorem splitAt_of_not_mem (h : c ∉ t) : splitAt c t = [t] := by
  induction t with
  | nil => rfl
  | cons d r ih =>
    rw [List.mem_cons, not_or] at h
    rw [splitAt, if_neg (Ne.symm h.1), ih h.2]

/-- No piece holds the sign. -/
theorem not_mem_of_mem_splitAt {piece : List α} (h : piece ∈ splitAt c t) : c ∉ piece := by
  induction t generalizing piece with
  | nil =>
    obtain rfl := List.mem_singleton.mp h
    exact List.not_mem_nil
  | cons d r ih =>
    by_cases hd : d = c
    · rw [splitAt, if_pos hd] at h
      rcases List.mem_cons.mp h with rfl | h
      · exact List.not_mem_nil
      · exact ih h
    · rw [splitAt, if_neg hd] at h
      cases hr : splitAt c r with
      | nil => exact absurd hr (splitAt_ne_nil c r)
      | cons p ps =>
        rw [hr] at h ih
        rcases List.mem_cons.mp h with rfl | h
        · rw [List.mem_cons, not_or]
          exact ⟨Ne.symm hd, ih List.mem_cons_self⟩
        · exact ih (List.mem_cons_of_mem _ h)

/-- Only what is empty is cut into one empty piece. -/
theorem splitAt_eq_singleton_nil (h : splitAt c t = [[]]) : t = [] := by
  rw [← join_splitAt c t, h, join_singleton]

/-- Pieces that do not hold the sign are read back from what joins them. -/
theorem splitAt_join {ts : List (List α)} (hne : ts ≠ []) (h : ∀ t ∈ ts, c ∉ t) :
    splitAt c (join [c] ts) = ts := by
  induction ts with
  | nil => exact absurd rfl hne
  | cons t rest ih =>
    obtain ⟨ht, hrest⟩ := List.forall_mem_cons.mp h
    cases rest with
    | nil => rw [join_singleton, splitAt_of_not_mem ht]
    | cons next rest =>
      rw [join_cons_cons, List.append_assoc, List.singleton_append, splitAt_append_cons,
        splitAt_of_not_mem ht, ih (List.cons_ne_nil _ _) hrest, List.singleton_append]

omit [DecidableEq α] in
theorem mem_join_iff {sep : α} (h : c ≠ sep) {ts : List (List α)} :
    c ∈ join [sep] ts ↔ ∃ t ∈ ts, c ∈ t := by
  cases ts with
  | nil => simp
  | cons t rest => simp [join, h]

end Conformance.Text
