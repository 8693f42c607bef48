import Conformance.Proofs.Comparison.CommonPrefix
import Conformance.Proofs.Text.Marker

/-!
# Comparing masked runs

Masking is done line by line.  It keeps the number of lines, and it makes no two equal lines
different, so the common prefix of two outputs can only grow (`length_commonPrefix_le_map`).  A
comparison that does not end at two different lines is therefore the comparison of the masked runs
(`compareRuns_normalized`), and one that does ends no earlier when the runs are masked
(`masking_postpones_divergence`).
-/

namespace Conformance

/-! ## One output, line by line -/

/-- Lists that begin with the same elements begin with the same images. -/
theorem length_commonPrefix_le_map {α β : Type} [DecidableEq α] [DecidableEq β] (f : α → β)
    (xs ys : List α) :
    (commonPrefix xs ys).length ≤ (commonPrefix (xs.map f) (ys.map f)).length := by
  have hmap : (commonPrefix xs ys).map f <+: commonPrefix (xs.map f) (ys.map f) :=
    prefix_commonPrefix_iff.mpr
      ⟨(commonPrefix_prefix_left xs ys).map f, (commonPrefix_prefix_right xs ys).map f⟩
  simpa using hmap.length_le

section Parts

variable {channel : Channel} {common rs cs : List Text} {d : Divergence}

/-- Two outputs part at a line, or one ends before the other; where one ends stays the same when
the lines are changed one by one. -/
theorem Parts.map (h : Parts channel common rs cs d) (f : Text → Text) :
    (∃ i r c, d = .line channel i r c) ∨
      Parts channel (common.map f) (rs.map f) (cs.map f) d := by
  cases h with
  | line rs cs hne => exact .inl ⟨_, _, _, rfl⟩
  | candidateLonger c cs =>
    have hparts : Parts channel (common.map f) (common.map f) (common.map f ++ f c :: cs.map f) _ :=
      .candidateLonger (f c) (cs.map f)
    exact .inr (by simpa using hparts)
  | referenceLonger r rs =>
    have hparts : Parts channel (common.map f) (common.map f ++ f r :: rs.map f) (common.map f) _ :=
      .referenceLonger (f r) (rs.map f)
    exact .inr (by simpa using hparts)

theorem Parts.index_eq {c' : Channel} {i : Nat} {r c : Text}
    (h : Parts channel common rs cs (.line c' i r c)) : i = common.length + 1 := by
  cases h
  rfl

end Parts

/-- A comparison of two outputs that does not end at a line is that of the changed outputs. -/
theorem compareChannel_map {channel : Channel} {rs cs : List Text} (f : Text → Text)
    (h : ∀ i r c, (compareChannel channel rs cs).divergence ≠ some (.line channel i r c)) :
    compareChannel channel (rs.map f) (cs.map f) = compareChannel channel rs cs := by
  by_cases heq : rs = cs
  · subst heq
    rw [compareChannel_self, compareChannel_self, List.length_map]
  · obtain ⟨common, d, hparts⟩ := exists_parts channel heq
    rw [hparts.compareChannel_eq] at h ⊢
    rcases hparts.map f with ⟨i, r, c, rfl⟩ | hmap
    · exact absurd rfl (h i r c)
    · rw [hmap.compareChannel_eq, List.length_map]

/-! ## Masked runs -/

namespace CapturedRun

theorem normalized_stdout (run : CapturedRun) : run.normalized.stdout = run.stdout.map Text.mask :=
  run.normalized_lines .stdout

theorem normalized_stderr (run : CapturedRun) : run.normalized.stderr = run.stderr.map Text.mask :=
  run.normalized_lines .stderr

/-- Masking keeps the number of lines and everything that is not a line. -/
theorem normalized_keeps (run : CapturedRun) :
    (∀ channel, (run.normalized.lines channel).length = (run.lines channel).length) ∧
      run.normalized.status = run.status ∧ run.normalized.lexerStatus = run.lexerStatus ∧
      run.normalized.elapsed = run.elapsed ∧ run.normalized.isClean = run.isClean := by
  refine ⟨fun channel => ?_, rfl, rfl, rfl, ?_⟩
  · rw [normalized_lines, List.length_map]
  · have hempty : run.normalized.stderr.isEmpty = run.stderr.isEmpty := by
      rw [normalized_stderr, List.isEmpty_map]
    exact congrArg (run.status.success && ·) hempty

end CapturedRun

/-! ## Both outputs -/

section Runs

open CapturedRun

variable {a b : CapturedRun}

/-- Runs that do not diverge at a line are compared as their masks are. -/
theorem compareRuns_normalized
    (h : ∀ channel i r c, (compareRuns a b).divergence ≠ some (.line channel i r c)) :
    compareRuns a.normalized b.normalized = compareRuns a b := by
  have hout : compareChannel .stdout a.normalized.stdout b.normalized.stdout =
      compareChannel .stdout a.stdout b.stdout := by
    rw [normalized_stdout, normalized_stdout]
    refine compareChannel_map Text.mask fun i r c hline => h .stdout i r c ?_
    rw [compareRuns_of_stdout hline, hline]
  cases hd : (compareChannel .stdout a.stdout b.stdout).divergence with
  | some d =>
    have hd' := hd
    rw [← hout] at hd'
    rw [compareRuns_of_stdout hd, compareRuns_of_stdout hd', hout]
  | none =>
    have hd' := hd
    rw [← hout] at hd'
    rw [compareRuns_of_stdout_agrees hd] at h
    have herr : compareChannel .stderr a.normalized.stderr b.normalized.stderr =
        compareChannel .stderr a.stderr b.stderr := by
      rw [normalized_stderr, normalized_stderr]
      exact compareChannel_map Text.mask (h .stderr)
    rw [compareRuns_of_stdout_agrees hd, compareRuns_of_stdout_agrees hd', hout, herr]

/-- Masked runs agree on as many lines at least. -/
theorem compareRuns_matched_le :
    (compareRuns a b).matched ≤ (compareRuns a.normalized b.normalized).matched := by
  rw [compareRuns_matched, compareRuns_matched, normalized_stdout, normalized_stdout,
    normalized_stderr, normalized_stderr]
  have hout := length_commonPrefix_le_map Text.mask a.stdout b.stdout
  have herr := length_commonPrefix_le_map Text.mask a.stderr b.stderr
  by_cases hraw : a.stdout = b.stdout
  · rw [if_pos hraw, if_pos (congrArg _ hraw), List.length_map]
    omega
  · rw [if_neg hraw]
    by_cases hmasked : a.stdout.map Text.mask = b.stdout.map Text.mask
    · rw [← hmasked, commonPrefix_self] at hout
      rw [if_pos hmasked]
      omega
    · rw [if_neg hmasked]
      exact hout

/-- Masked runs do not diverge in an earlier output. -/
theorem channel_of_normalized {d d' : Divergence} (h : (compareRuns a b).divergence = some d)
    (h' : (compareRuns a.normalized b.normalized).divergence = some d') :
    d.channel = d'.channel ∨ (d.channel = .stdout ∧ d'.channel = .stderr) := by
  cases hc : d.channel with
  | stdout =>
    cases hc' : d'.channel with
    | stdout => exact .inl rfl
    | stderr => exact .inr ⟨rfl, rfl⟩
  | stderr =>
    -- the standard outputs are equal, so they are when they are masked
    have hraw : a.stdout = b.stdout := (compareRuns_divergence_eq_some_iff.mp h).parts.1 hc
    cases hc' : d'.channel with
    | stderr => exact .inl rfl
    | stdout =>
      have hne := (compareRuns_divergence_eq_some_iff.mp h').parts.2.ne
      rw [hc'] at hne
      refine absurd ?_ hne
      show a.normalized.stdout = b.normalized.stdout
      rw [normalized_stdout, normalized_stdout, hraw]

/-- Two runs diverge at the line behind the common prefix of one output. -/
theorem index_of_line {channel : Channel} {i : Nat} {r c : Text}
    (h : (compareRuns a b).divergence = some (.line channel i r c)) :
    i = (commonPrefix (a.lines channel) (b.lines channel)).length + 1 :=
  (compareRuns_divergence_eq_some_iff.mp h).parts.2.index_eq

/-- A comparison ends at a line, or masking leaves it as it is. -/
theorem line_or_normalized_eq (a b : CapturedRun) :
    (∃ channel i r c, (compareRuns a b).divergence = some (.line channel i r c)) ∨
      compareRuns a.normalized b.normalized = compareRuns a b := by
  refine Classical.or_iff_not_imp_left.mpr fun hline => compareRuns_normalized ?_
  exact fun channel i r c h => hline ⟨channel, i, r, c, h⟩

/-- Where masked runs diverge at a line, the runs do at a line of the same output that is no later,
or in the standard output before it. -/
theorem line_of_normalized {channel : Channel} {i : Nat} {r c : Text}
    (h : (compareRuns a.normalized b.normalized).divergence = some (.line channel i r c)) :
    (∃ j r' c', j ≤ i ∧ (compareRuns a b).divergence = some (.line channel j r' c')) ∨
      (channel = .stderr ∧
        ∃ j r' c', (compareRuns a b).divergence = some (.line .stdout j r' c')) := by
  rcases line_or_normalized_eq a b with ⟨channel', j, r', c', hraw⟩ | heq
  · rcases channel_of_normalized hraw h with hsame | ⟨hstdout, hstderr⟩
    · obtain rfl : channel' = channel := hsame
      refine .inl ⟨j, r', c', ?_, hraw⟩
      rw [index_of_line hraw, index_of_line h, normalized_lines, normalized_lines]
      exact Nat.succ_le_succ (length_commonPrefix_le_map Text.mask _ _)
    · obtain rfl : channel' = .stdout := hstdout
      exact .inr ⟨hstderr, j, r', c', hraw⟩
  · rw [heq] at h
    exact .inl ⟨i, r, c, Nat.le_refl i, h⟩

/-- Where masked runs diverge by their lengths, the runs do so too, or they diverge at a line of the
same output or of the one before it. -/
theorem length_of_normalized {channel : Channel} {m n : Nat}
    (h : (compareRuns a.normalized b.normalized).divergence = some (.length channel m n)) :
    (compareRuns a b).divergence = some (.length channel m n) ∨
      ∃ earlier j r c, (compareRuns a b).divergence = some (.line earlier j r c) ∧
        (earlier = channel ∨ (earlier = .stdout ∧ channel = .stderr)) := by
  rcases line_or_normalized_eq a b with ⟨earlier, j, r, c, hraw⟩ | heq
  · exact .inr ⟨earlier, j, r, c, hraw, channel_of_normalized hraw h⟩
  · rw [heq] at h
    exact .inl h

end Runs

/-- **Masking postpones a divergence, or removes it.** Masked runs agree on as many lines at least.
A comparison that finds no divergence, or two lengths, is the comparison of the masked runs.  Where
masked runs diverge at a line, so do the runs as they are, in the same output and no later, or
already in the standard output; where masked runs diverge by their lengths, so do the runs, or at
a line of the same output or of an earlier one.  Masking keeps how many lines there are and
everything that is not a line. -/
theorem masking_postpones_divergence (a b : CapturedRun) :
    let raw := compareRuns a b
    let masked := compareRuns a.normalized b.normalized
    raw.matched ≤ masked.matched ∧
    (raw.divergence = none → masked = raw) ∧
    (∀ channel m n, raw.divergence = some (.length channel m n) → masked = raw) ∧
    (∀ channel i r c, masked.divergence = some (.line channel i r c) →
      (∃ j r' c', j ≤ i ∧ raw.divergence = some (.line channel j r' c')) ∨
      (channel = .stderr ∧ ∃ j r' c', raw.divergence = some (.line .stdout j r' c'))) ∧
    (∀ channel m n, masked.divergence = some (.length channel m n) →
      raw.divergence = some (.length channel m n) ∨
      ∃ earlier j r c, raw.divergence = some (.line earlier j r c) ∧
        (earlier = channel ∨ (earlier = .stdout ∧ channel = .stderr))) ∧
    (∀ run : CapturedRun,
      (∀ channel, (run.normalized.lines channel).length = (run.lines channel).length) ∧
      run.normalized.status = run.status ∧ run.normalized.lexerStatus = run.lexerStatus ∧
      run.normalized.elapsed = run.elapsed ∧ run.normalized.isClean = run.isClean) := by
  intro raw masked
  refine ⟨compareRuns_matched_le, fun hnone => ?_, fun channel m n hlength => ?_,
    fun channel i r c => line_of_normalized, fun channel m n => length_of_normalized,
    CapturedRun.normalized_keeps⟩
  · refine compareRuns_normalized fun channel i r c h => ?_
    exact absurd (hnone.symm.trans h) (Option.some_ne_none _).symm
  · refine compareRuns_normalized fun channel' i r c h => ?_
    exact Divergence.noConfusion (Option.some.inj (hlength.symm.trans h))

end Conformance
