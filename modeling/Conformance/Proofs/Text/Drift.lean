import Mathlib.Logic.Relation
import Conformance.Proofs.Text.Pieces

/-!
# What masking hides

Two lines drift if one becomes the other by writing the placeholder for single markers, and
markers for placeholders: `Drift` is the least equivalence that lets one whole marker and the
placeholder stand for each other.  Masking makes two lines equal exactly if they drift
(`mask_eq_mask_iff_drift`): no step can be seen in the mask (`Unmarked.mask_eq`), and every line
drifts to its own mask, marker by marker from the left (`drift_append_mask`).
-/

namespace Conformance.Text

/-- The second text is the first with the placeholder for one marker, whose digits are all taken. -/
inductive Unmarked : Text → Text → Prop
  | marker (u d v : Text) (hd : IsNumber d) (hv : startsWithDigit v = false) :
      Unmarked (u ++ '#' :: (d ++ v)) (u ++ (placeholder ++ v))

/-- The least equivalence under which a marker and the placeholder may stand for each other. -/
abbrev Drift : Text → Text → Prop := Relation.EqvGen Unmarked

/-- The placeholder is no marker, and none begins in it. -/
theorem mask_placeholder_append (v : Text) : mask (placeholder ++ v) = placeholder ++ mask v := by
  have hrest : ∀ c ∈ ['L', 'I', 'N', 'E'], c ≠ '#' := by simp
  calc mask ('#' :: (['L', 'I', 'N', 'E'] ++ v))
      = '#' :: mask (['L', 'I', 'N', 'E'] ++ v) := mask_cons rfl
    _ = '#' :: (['L', 'I', 'N', 'E'] ++ mask v) := by rw [mask_append_of_no_hash hrest]

/-- A marker cannot be told from the placeholder in the mask. -/
theorem Unmarked.mask_eq {a b : Text} (h : Unmarked a b) : mask a = mask b := by
  obtain ⟨u, d, v, hd, hv⟩ := h
  rw [mask_append rfl u, mask_append rfl u, mask_marker hd hv, mask_placeholder_append]

theorem Drift.mask_eq {a b : Text} (h : Drift a b) : mask a = mask b := by
  induction h with
  | rel a b h => exact h.mask_eq
  | refl a => rfl
  | symm a b _ ih => exact ih.symm
  | trans a b c _ _ ihab ihbc => exact ihab.trans ihbc

/-- The markers of a text can be replaced from left to right, behind anything. -/
theorem drift_append_mask (t u : Text) : Drift (u ++ t) (u ++ mask t) := by
  -- what stands in front grows by the placeholder or by one character, so it is generalized
  induction t using markerInduction generalizing u with
  | nil => exact .refl _
  | marker d v hd hv ih =>
    have hstep : Drift (u ++ '#' :: (d ++ v)) (u ++ (placeholder ++ v)) :=
      .rel _ _ (.marker u d v hd hv)
    have hrest := ih (u ++ placeholder)
    rw [List.append_assoc, List.append_assoc] at hrest
    rw [mask_marker hd hv]
    exact .trans _ _ _ hstep hrest
  | other c r hc ih =>
    have hrest := ih (u ++ [c])
    rw [List.append_assoc, List.append_assoc] at hrest
    rw [mask_cons hc]
    exact hrest

/-- Texts without the placeholder have equal masks exactly if their pieces are equal. -/
theorem Pieces.mask_text_eq_iff {p q : Pieces} (hp : ¬ placeholder <:+: p.text)
    (hq : ¬ placeholder <:+: q.text) : mask p.text = mask q.text ↔ p.gaps = q.gaps := by
  rw [mask_text, mask_text]
  constructor
  · have hpieces : ∀ {p : Pieces}, ¬ placeholder <:+: p.text →
        ∀ g ∈ p.gaps, ¬ placeholder <:+: g :=
      fun hp g hg h => hp (h.trans (infix_text_of_mem_gaps hg))
    exact join_placeholder_inj (hpieces hp) (hpieces hq)
  · exact congrArg _

/-- **What masking hides.** Two lines have equal masks exactly if they drift.  Let neither hold the
placeholder: then their masks are equal exactly if they have equally many maximal markers and,
piece by piece, the same text between them, however they are cut, and both can be cut. -/
theorem mask_eq_mask_iff_drift (a b : Text) :
    (mask a = mask b ↔ Drift a b) ∧
    (∃ p q : Pieces, p.text = a ∧ q.text = b) ∧
    ∀ p q : Pieces, p.text = a → q.text = b → ¬ placeholder <:+: a → ¬ placeholder <:+: b →
      (mask a = mask b ↔ p.markers.length = q.markers.length ∧ p.gaps = q.gaps) := by
  refine ⟨⟨fun h => ?_, Drift.mask_eq⟩, ?_, ?_⟩
  · have ha : Drift a (mask a) := drift_append_mask a []
    have hb : Drift b (mask b) := drift_append_mask b []
    rw [h] at ha
    exact .trans _ _ _ ha (.symm _ _ hb)
  · obtain ⟨p, hp⟩ := Pieces.exists_text_eq a
    obtain ⟨q, hq⟩ := Pieces.exists_text_eq b
    exact ⟨p, q, hp, hq⟩
  · rintro p q rfl rfl hp hq
    rw [Pieces.mask_text_eq_iff hp hq]
    refine ⟨fun h => ⟨?_, h⟩, And.right⟩
    have hlen := congrArg List.length h
    simpa [Pieces.gaps] using hlen

/-- An error message with two numbers in it. -/
def errorMessage (m n : Text) (hm : IsNumber m) (hn : IsNumber n) : Pieces where
  front := "Error ".toList
  markers := [⟨m, ": bad ".toList, hm, rfl, rfl⟩, ⟨n, [], hn, rfl, rfl⟩]
  plain := rfl

/-- Messages that differ in their numbers only have the same mask, and drift. -/
theorem mask_eq_mask_iff_drift_two_numbers :
    let p := errorMessage ['1', '2'] ['3'] ⟨by simp, by simp⟩ ⟨by simp, by simp⟩
    let q := errorMessage ['7'] ['4', '0'] ⟨by simp, by simp⟩ ⟨by simp, by simp⟩
    p.text = "Error #12: bad #3".toList ∧ q.text = "Error #7: bad #40".toList ∧
      ¬ placeholder <:+: p.text ∧ ¬ placeholder <:+: q.text ∧ p.gaps = q.gaps ∧
      mask p.text = mask q.text ∧ Drift p.text q.text := by
  intro p q
  have hp : ¬ placeholder <:+: p.text := by rw [← contains_iff]; decide
  have hq : ¬ placeholder <:+: q.text := by rw [← contains_iff]; decide
  obtain ⟨hdrift, -, hpieces⟩ := mask_eq_mask_iff_drift p.text q.text
  have hmask : mask p.text = mask q.text := (hpieces p q rfl rfl hp hq).mpr ⟨rfl, rfl⟩
  exact ⟨by decide, by decide, hp, hq, rfl, hmask, hdrift.mp hmask⟩

end Conformance.Text
