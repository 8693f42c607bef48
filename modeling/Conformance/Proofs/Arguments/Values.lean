import Conformance.Arguments.Value
import Conformance.Proofs.Toolchain.Invocation

/-!
# Values are read back from their texts

A value is written as a text and its kind reads the text as the value (`read_display`): numerals by
their digits from left to right (`readDigits_eq_ok`), invocations by their words
(`Invocation.parse?_display`).
-/

namespace Conformance

namespace Arguments

/-- Digits are read as their number, unless that is too large. -/
theorem readDigits_eq_ok {t : Text} (ht : ∀ c ∈ t, c.isDigit = true) {sofar : Nat}
    (hlimit : Nat.ofDigitChars 10 t sofar ≤ secondsLimit) :
    readDigits sofar t = .ok (Nat.ofDigitChars 10 t sofar) := by
  induction t generalizing sofar with
  | nil => rw [readDigits, Nat.ofDigitChars_nil]
  | cons c r ih =>
    obtain ⟨hc, hr⟩ := List.forall_mem_cons.mp ht
    rw [Nat.ofDigitChars_cons, Nat.mul_comm] at hlimit ⊢
    have hle : sofar * 10 + (c.toNat - '0'.toNat) ≤ secondsLimit := by
      rw [Nat.ofDigitChars_eq_ofDigitChars_zero] at hlimit
      refine Nat.le_trans ?_ (Nat.le_trans (Nat.le_add_right _ _) hlimit)
      exact Nat.le_mul_of_pos_left _ (Nat.pow_pos (by decide))
    rw [readDigits, if_pos hc, if_neg (Nat.not_lt.mpr hle), ih hr hlimit]

theorem readSeconds_ofNat {n : Nat} (h : n ≤ secondsLimit) : readSeconds (Text.ofNat n) = .ok n := by
  have hdigits : ∀ c ∈ Text.ofNat n, c.isDigit = true :=
    fun c hc => Nat.isDigit_of_mem_toDigits (by decide) (by decide) hc
  have hvalue : Nat.ofDigitChars 10 (Text.ofNat n) 0 = n := Nat.ofDigitChars_ten_toDigits
  have hread : readDigits 0 (Text.ofNat n) = .ok n := by
    rw [readDigits_eq_ok hdigits (hvalue.symm ▸ h), hvalue]
  -- a numeral is not empty and has no sign in front
  unfold readSeconds
  split
  · next hnil => exact absurd hnil Nat.toDigits_ne_nil
  · next c r hplus => exact absurd (hdigits '+' (hplus ▸ List.mem_cons_self)) (by decide)
  · exact hread

namespace Value

/-- The kind of a value. -/
def kind : Value → Kind
  | text _ => .text
  | path _ => .path
  | seconds _ => .seconds
  | command _ => .command

/-- A value as it is written. -/
def display : Value → Text
  | text t => t
  | path p => p.shown
  | seconds n => Text.ofNat n
  | command i => i.display

/-- The value can be written: a path is a text that is not empty, a number is not too large, and an
invocation is made of words. -/
def Writable : Value → Prop
  | text _ => True
  | path p => p.IsText ∧ p.shown ≠ []
  | seconds n => n ≤ secondsLimit
  | command i => i.Writable

instance : (v : Value) → Decidable v.Writable
  | text _ => isTrue trivial
  | path p => inferInstanceAs (Decidable (p.IsText ∧ p.shown ≠ []))
  | seconds n => Nat.decLe n secondsLimit
  | command i => inferInstanceAs (Decidable i.Writable)

/-- **Reading back.** -/
theorem read_display {v : Value} (h : v.Writable) : v.kind.read v.display = .ok v := by
  cases v with
  | text t => rfl
  | path p =>
    obtain ⟨htext, hnil⟩ := h
    have hne : ¬ p.shown.isEmpty = true := fun hempty => hnil (List.isEmpty_iff.mp hempty)
    rw [kind, display, Kind.read, if_neg hne, htext]
  | seconds n => rw [kind, display, Kind.read, readSeconds_ofNat h]
  | command i => rw [kind, display, Kind.read, Invocation.parse?_display h]

end Value

end Arguments

end Conformance
