/-!
# Text

A text is a list of Unicode scalar values.  This module holds the few operations on texts that
the rest of the library shares: decimal numerals, joining, splitting at one character and
searching for a piece.
-/

namespace Conformance

/-- A text: its Unicode scalar values in order. -/
abbrev Text := List Char

namespace Text

/-- The decimal numeral of a natural number. -/
def ofNat (n : Nat) : Text := Nat.toDigits 10 n

/-- The decimal numeral of an integer, with a minus sign in front of a negative one. -/
def ofInt : Int → Text
  | .ofNat n => ofNat n
  | .negSucc n => '-' :: ofNat (n + 1)

/-! Joining and splitting are the same for texts and for the bytes of paths. -/

section Cuts

variable {α : Type}

/-- The sequences of a list, with `sep` between neighbours. -/
def join (sep : List α) : List (List α) → List α
  | [] => []
  | t :: ts => t ++ ts.flatMap (sep ++ ·)

@[simp] theorem join_nil (sep : List α) : join sep [] = [] := rfl

@[simp] theorem join_singleton (sep t : List α) : join sep [t] = t := by simp [join]

theorem join_cons_cons (sep t u : List α) (ts : List (List α)) :
    join sep (t :: u :: ts) = t ++ sep ++ join sep (u :: ts) := by simp [join]

variable [DecidableEq α]

/-- The pieces of a sequence between the occurrences of `c`; there is always at least one. -/
def splitAt (c : α) : List α → List (List α)
  | [] => [[]]
  | d :: r =>
    if d = c then [] :: splitAt c r
    else
      match splitAt c r with
      | [] => [[d]]
      | piece :: rest => (d :: piece) :: rest

theorem splitAt_ne_nil (c : α) (t : List α) : splitAt c t ≠ [] := by
  cases t with
  | nil => simp [splitAt]
  | cons d r =>
    simp only [splitAt]
    split
    · simp
    · split <;> simp

/-- Joining the pieces again gives the sequence back. -/
theorem join_splitAt (c : α) (t : List α) : join [c] (splitAt c t) = t := by
  induction t with
  | nil => rfl
  | cons d r ih =>
    simp only [splitAt]
    split
    · next h =>
      subst h
      cases hs : splitAt d r with
      | nil => exact absurd hs (splitAt_ne_nil d r)
      | cons p ps => rw [hs] at ih; simp [join_cons_cons, ih]
    · cases hs : splitAt c r with
      | nil => exact absurd hs (splitAt_ne_nil c r)
      | cons p ps =>
        rw [hs] at ih
        cases ps with
        | nil => simpa [join] using ih
        | cons q qs => simpa [join] using ih

end Cuts

/-- Whether `piece` occurs in the text as consecutive characters. -/
def contains (piece : Text) : Text → Bool
  | [] => piece.isEmpty
  | t@(_ :: r) => piece.isPrefixOf t || contains piece r

theorem contains_iff {piece t : Text} : contains piece t = true ↔ piece <:+: t := by
  induction t with
  | nil => simp [contains, List.isEmpty_iff]
  | cons c r ih =>
    rw [contains, Bool.or_eq_true, ih, List.isPrefixOf_iff_prefix, List.infix_cons_iff]

/-- Whether the text starts with an ASCII digit. -/
def startsWithDigit : Text → Bool
  | [] => false
  | c :: _ => c.isDigit

/-- The order of texts by their scalar values. -/
def order : Text → Text → Ordering
  | [], [] => .eq
  | [], _ :: _ => .lt
  | _ :: _, [] => .gt
  | c :: r, d :: s => (compare c.toNat d.toNat).then (order r s)

end Text

end Conformance
