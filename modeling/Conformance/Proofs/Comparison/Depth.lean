import Conformance.Proofs.Comparison.CommonPrefix

/-!
# How deep runs agree

The number of matching lines says how deep two runs agree.  Comparing them the other way round
exchanges the two sides of the divergence and nothing else (`compareRuns_exchanged`).  Two lists
that agree with a third up to some depth agree with each other up to it
(`min_length_commonPrefix_le`), and the same holds of runs, though the comparisons of three runs may
end in different outputs (`min_matched_le`).
-/

namespace Conformance

/-! ## The other way round -/

/-- The divergence with the reference and the candidate exchanged. -/
def Divergence.exchanged : Divergence → Divergence
  | line channel index reference candidate => line channel index candidate reference
  | length channel reference candidate => length channel candidate reference

/-- The comparison with the reference and the candidate exchanged. -/
def Comparison.exchanged (c : Comparison) : Comparison :=
  { c with divergence := c.divergence.map Divergence.exchanged }

theorem Parts.exchanged {channel : Channel} {common rs cs : List Text} {d : Divergence}
    (h : Parts channel common rs cs d) : Parts channel common cs rs d.exchanged := by
  cases h with
  | line rs cs hne => exact .line cs rs hne.symm
  | candidateLonger c cs => exact .referenceLonger c cs
  | referenceLonger r rs => exact .candidateLonger r rs

theorem compareChannel_exchanged (channel : Channel) (rs cs : List Text) :
    compareChannel channel cs rs = (compareChannel channel rs cs).exchanged := by
  by_cases h : rs = cs
  · subst h
    rw [compareChannel_self]
    rfl
  · obtain ⟨common, d, hparts⟩ := exists_parts channel h
    rw [hparts.compareChannel_eq, hparts.exchanged.compareChannel_eq]
    rfl

theorem compareRuns_exchanged (a b : CapturedRun) :
    compareRuns b a = (compareRuns a b).exchanged := by
  by_cases hout : a.stdout = b.stdout
  · rw [compareRuns_of_stdout_eq hout, compareRuns_of_stdout_eq hout.symm,
      compareChannel_exchanged .stderr a.stderr, hout]
    rfl
  · obtain ⟨common, d, hparts⟩ := exists_parts .stdout hout
    rw [hparts.compareRuns_stdout, hparts.exchanged.compareRuns_stdout]
    rfl

/-! ## Three runs -/

/-- Two lists agree with each other as far as both agree with a third. -/
theorem min_length_commonPrefix_le {α : Type} [DecidableEq α] (xs ys zs : List α) :
    min (commonPrefix xs ys).length (commonPrefix ys zs).length ≤ (commonPrefix xs zs).length := by
  -- both common prefixes are beginnings of `ys`, so the shorter one is a beginning of the other
  rcases List.prefix_or_prefix_of_prefix (commonPrefix_prefix_right xs ys)
    (commonPrefix_prefix_left ys zs) with h | h
  · have hboth : commonPrefix xs ys <+: commonPrefix xs zs :=
      prefix_commonPrefix_iff.mpr
        ⟨commonPrefix_prefix_left xs ys, h.trans (commonPrefix_prefix_right ys zs)⟩
    exact Nat.le_trans (Nat.min_le_left ..) hboth.length_le
  · have hboth : commonPrefix ys zs <+: commonPrefix xs zs :=
      prefix_commonPrefix_iff.mpr
        ⟨h.trans (commonPrefix_prefix_left xs ys), commonPrefix_prefix_right ys zs⟩
    exact Nat.le_trans (Nat.min_le_right ..) hboth.length_le

/-- Two runs agree with each other as deep as both agree with a third. -/
theorem min_matched_le (a b c : CapturedRun) :
    min (compareRuns a b).matched (compareRuns b c).matched ≤ (compareRuns a c).matched := by
  rw [compareRuns_matched, compareRuns_matched, compareRuns_matched]
  by_cases hab : a.stdout = b.stdout
  · by_cases hbc : b.stdout = c.stdout
    · have herr := min_length_commonPrefix_le a.stderr b.stderr c.stderr
      rw [if_pos hab, if_pos hbc, if_pos (hab.trans hbc), ← hab]
      omega
    · -- `a` has the standard output of `b`, so it parts from `c` where `b` does
      rw [if_pos hab, if_neg hbc, if_neg (hab ▸ hbc), hab]
      exact Nat.min_le_right ..
  · have hle : (commonPrefix a.stdout b.stdout).length ≤ a.stdout.length :=
      (commonPrefix_prefix_left ..).length_le
    by_cases hbc : b.stdout = c.stdout
    · rw [if_neg hab, if_pos hbc, if_neg (hbc ▸ hab), ← hbc]
      exact Nat.min_le_left ..
    · rw [if_neg hab, if_neg hbc]
      by_cases hac : a.stdout = c.stdout
      · -- the standard output is matched as a whole, and `b` parts from it before its end
        rw [if_pos hac]
        omega
      · rw [if_neg hac]
        exact min_length_commonPrefix_le ..

theorem isMatch_iff {a b : CapturedRun} :
    (compareRuns a b).isMatch = true ↔ ∀ channel, a.lines channel = b.lines channel := by
  rw [Comparison.isMatch, Option.isNone_iff_eq_none, compareRuns_divergence_eq_none_iff]

theorem compareRuns_self (a : CapturedRun) :
    compareRuns a a = ⟨a.stdout.length + a.stderr.length, none⟩ := by
  rw [compareRuns_of_stdout_eq rfl, compareChannel_self]

/-- **How deep runs agree.** Exchanging two runs exchanges the sides of their divergence and keeps
how deep they agree.  A run agrees with itself in all its lines.  Of three runs, the first and the
last agree as deep at least as the less deep of the two comparisons with the one between, and they
match if both of these do. -/
theorem compareRuns_ultrametric (a b c : CapturedRun) :
    compareRuns b a = (compareRuns a b).exchanged ∧
    compareRuns a a = ⟨a.stdout.length + a.stderr.length, none⟩ ∧
    min (compareRuns a b).matched (compareRuns b c).matched ≤ (compareRuns a c).matched ∧
    ((compareRuns a b).isMatch = true → (compareRuns b c).isMatch = true →
      (compareRuns a c).isMatch = true) := by
  refine ⟨compareRuns_exchanged a b, compareRuns_self a, min_matched_le a b c, fun hab hbc => ?_⟩
  exact isMatch_iff.mpr fun channel =>
    (isMatch_iff.mp hab channel).trans (isMatch_iff.mp hbc channel)

end Conformance
