import Conformance.Proofs.Comparison.FirstDivergence

/-!
# How far two runs agree

The lines that two outputs have in common are their longest common prefix: `commonPrefix` computes
it, and `prefix_commonPrefix_iff` says that it is the greatest list that both begin with.  Where
two outputs part, they part behind it (`Parts.commonPrefix_eq`), so the comparison of two runs is
determined by the common prefixes of their outputs (`compareRuns_eq_at_commonPrefix`).
-/

namespace Conformance

/-! ## The longest common prefix -/

section CommonPrefix

variable {α : Type} [DecidableEq α]

/-- The longest list that two lists both begin with. -/
def commonPrefix : List α → List α → List α
  | x :: xs, y :: ys => if x = y then x :: commonPrefix xs ys else []
  | _, _ => []

@[simp] theorem commonPrefix_nil_left (ys : List α) : commonPrefix [] ys = [] := rfl

@[simp] theorem commonPrefix_nil_right (xs : List α) : commonPrefix xs [] = [] := by
  cases xs <;> rfl

theorem commonPrefix_cons_self (x : α) (xs ys : List α) :
    commonPrefix (x :: xs) (x :: ys) = x :: commonPrefix xs ys := if_pos rfl

theorem commonPrefix_cons_of_ne {x y : α} (h : x ≠ y) (xs ys : List α) :
    commonPrefix (x :: xs) (y :: ys) = [] := if_neg h

/-- What both lists begin with is exactly what their longest common prefix begins with. -/
theorem prefix_commonPrefix_iff {l xs ys : List α} :
    l <+: commonPrefix xs ys ↔ l <+: xs ∧ l <+: ys := by
  induction xs generalizing l ys with
  | nil =>
    rw [commonPrefix_nil_left]
    refine ⟨fun h => ⟨h, h.trans List.nil_prefix⟩, And.left⟩
  | cons x xs ih =>
    cases ys with
    | nil =>
      rw [commonPrefix_nil_right]
      exact ⟨fun h => ⟨h.trans List.nil_prefix, h⟩, And.right⟩
    | cons y ys =>
      cases l with
      | nil => simp
      | cons a l =>
        by_cases hxy : x = y
        · subst hxy
          rw [commonPrefix_cons_self, List.cons_prefix_cons, List.cons_prefix_cons,
            List.cons_prefix_cons, ih]
          exact ⟨fun ⟨ha, hx, hy⟩ => ⟨⟨ha, hx⟩, ha, hy⟩, fun ⟨⟨ha, hx⟩, _, hy⟩ => ⟨ha, hx, hy⟩⟩
        · rw [commonPrefix_cons_of_ne hxy, List.cons_prefix_cons, List.cons_prefix_cons]
          constructor
          · intro h
            exact absurd (List.prefix_nil.mp h) (List.cons_ne_nil a l)
          · rintro ⟨⟨hx, -⟩, hy, -⟩
            exact absurd (hx.symm.trans hy) hxy

theorem commonPrefix_prefix_left (xs ys : List α) : commonPrefix xs ys <+: xs :=
  (prefix_commonPrefix_iff.mp (List.prefix_refl _)).1

theorem commonPrefix_prefix_right (xs ys : List α) : commonPrefix xs ys <+: ys :=
  (prefix_commonPrefix_iff.mp (List.prefix_refl _)).2

/-- A common beginning is a beginning of the common prefix. -/
theorem commonPrefix_append (l xs ys : List α) :
    commonPrefix (l ++ xs) (l ++ ys) = l ++ commonPrefix xs ys := by
  induction l with
  | nil => rfl
  | cons x l ih =>
    rw [List.cons_append, List.cons_append, commonPrefix_cons_self, ih, List.cons_append]

theorem commonPrefix_self (xs : List α) : commonPrefix xs xs = xs := by
  have h := commonPrefix_append xs [] []
  rwa [List.append_nil, commonPrefix_nil_left, List.append_nil] at h

end CommonPrefix

/-! ## One output -/

section Parts

variable {channel : Channel} {common rs cs : List Text} {d : Divergence}

/-- Two outputs part behind their longest common prefix. -/
theorem Parts.commonPrefix_eq (h : Parts channel common rs cs d) : commonPrefix rs cs = common := by
  cases h with
  | line rs cs h => rw [commonPrefix_append, commonPrefix_cons_of_ne h, List.append_nil]
  | candidateLonger c cs =>
    have h := commonPrefix_append common [] (c :: cs)
    rwa [List.append_nil, commonPrefix_nil_left, List.append_nil] at h
  | referenceLonger r rs =>
    have h := commonPrefix_append common (r :: rs) []
    rwa [List.append_nil, commonPrefix_nil_right, List.append_nil] at h

theorem Parts.channel_eq (h : Parts channel common rs cs d) : d.channel = channel := by
  cases h <;> rfl

theorem Parts.ne (h : Parts channel common rs cs d) : rs ≠ cs := by
  cases h with
  | line rs cs h => simpa using fun e => absurd e h
  | candidateLonger c cs => simp
  | referenceLonger r rs => simp

/-- Outputs that both go on behind the common prefix part at the next line of each. -/
theorem Parts.eq_line (h : Parts channel common rs cs d) (hr : common.length < rs.length)
    (hc : common.length < cs.length) :
    d = .line channel (common.length + 1) rs[common.length] cs[common.length] := by
  cases h with
  | line rs cs h => simp
  | candidateLonger c cs => exact absurd hr (Nat.lt_irrefl _)
  | referenceLonger r rs => exact absurd hc (Nat.lt_irrefl _)

/-- Outputs of which one begins with the other part where the shorter one ends. -/
theorem Parts.eq_length (h : Parts channel common rs cs d) (hp : rs <+: cs ∨ cs <+: rs) :
    d = .length channel rs.length cs.length := by
  cases h with
  | line rs cs h =>
    simp only [List.prefix_append_right_inj, List.cons_prefix_cons] at hp
    rcases hp with ⟨e, -⟩ | ⟨e, -⟩
    · exact absurd e h
    · exact absurd e.symm h
  | candidateLonger c cs => rfl
  | referenceLonger r rs => rfl

end Parts

/-- The comparison of two outputs counts the lines of their common prefix. -/
theorem compareChannel_matched (channel : Channel) (rs cs : List Text) :
    (compareChannel channel rs cs).matched = (commonPrefix rs cs).length := by
  by_cases h : rs = cs
  · rw [h, compareChannel_self, commonPrefix_self]
  · obtain ⟨common, d, hp⟩ := exists_parts channel h
    rw [hp.compareChannel_eq, hp.commonPrefix_eq]

/-! ## Both outputs -/

/-- The lines of the error outputs are counted only where the standard outputs agree. -/
theorem compareRuns_matched (a b : CapturedRun) :
    (compareRuns a b).matched =
      if a.stdout = b.stdout then a.stdout.length + (commonPrefix a.stderr b.stderr).length
      else (commonPrefix a.stdout b.stdout).length := by
  by_cases h : a.stdout = b.stdout
  · rw [if_pos h, compareRuns_of_stdout_eq h]
    exact congrArg _ (compareChannel_matched ..)
  · obtain ⟨common, d, hparts⟩ := exists_parts .stdout h
    rw [if_neg h, hparts.compareRuns_stdout, hparts.commonPrefix_eq]

/-- The first divergence of two runs lies in one output, behind its common prefix, and in the error
output only if the standard outputs agree. -/
theorem FirstDivergence.parts {reference candidate : Outputs} {d : Divergence}
    (h : FirstDivergence reference candidate d) :
    (d.channel = .stderr → reference .stdout = candidate .stdout) ∧
      Parts d.channel (commonPrefix (reference d.channel) (candidate d.channel))
        (reference d.channel) (candidate d.channel) d := by
  rcases h with ⟨common, hp⟩ | ⟨heq, common, hp⟩
  · rw [hp.channel_eq, hp.commonPrefix_eq]
    exact ⟨fun h => Channel.noConfusion h, hp⟩
  · rw [hp.channel_eq, hp.commonPrefix_eq]
    exact ⟨fun _ => heq, hp⟩

/-- **Comparing two runs.** Two runs agree exactly if both outputs do.  Any other two diverge in the
standard output if it differs, and else in the error output.  With `p` the length of the longest
common prefix of the output in which they diverge, they diverge at line `p + 1` if both go on
behind it, and by their lengths if one of them ends there.  The lines that match are those of the
common prefix of the standard outputs, and of the error outputs where the standard outputs agree. -/
theorem compareRuns_eq_at_commonPrefix (a b : CapturedRun) :
    let found := compareRuns a b
    let common := fun channel => commonPrefix (a.lines channel) (b.lines channel)
    (∀ channel l, l <+: common channel ↔ l <+: a.lines channel ∧ l <+: b.lines channel) ∧
    (found.divergence = none ↔ a.stdout = b.stdout ∧ a.stderr = b.stderr) ∧
    (∀ d, found.divergence = some d →
      let rs := a.lines d.channel
      let cs := b.lines d.channel
      let p := (common d.channel).length
      (d.channel = .stdout ↔ a.stdout ≠ b.stdout) ∧
      (d.channel = .stderr → a.stdout = b.stdout) ∧
      (∀ (hr : p < rs.length) (hc : p < cs.length), d = .line d.channel (p + 1) rs[p] cs[p]) ∧
      (rs <+: cs ∨ cs <+: rs → d = .length d.channel rs.length cs.length)) ∧
    found.matched =
      if a.stdout = b.stdout then a.stdout.length + (common .stderr).length
      else (common .stdout).length := by
  intro found common
  refine ⟨fun channel l => prefix_commonPrefix_iff, ?_, fun d hd => ?_, compareRuns_matched a b⟩
  · refine compareRuns_divergence_eq_none_iff.trans ⟨fun h => ⟨h .stdout, h .stderr⟩, ?_⟩
    rintro ⟨hout, herr⟩ (_ | _)
    · exact hout
    · exact herr
  · intro rs cs p
    obtain ⟨hstderr, hparts⟩ := (compareRuns_divergence_eq_some_iff.mp hd).parts
    refine ⟨⟨fun h => ?_, fun h => ?_⟩, hstderr, hparts.eq_line, hparts.eq_length⟩
    · have hne := hparts.ne
      rwa [h] at hne
    · cases hc : d.channel with
      | stdout => rfl
      | stderr => exact absurd (hstderr hc) h

end Conformance
