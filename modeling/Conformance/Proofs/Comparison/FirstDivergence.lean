import Conformance.Comparison

/-!
# Where two runs part

`Parts channel common reference candidate d` says that two outputs begin with the lines `common`
and that `d` is the difference behind these: two different lines, or the end of one output only.
Every two different outputs part in exactly one way, and `compareChannel` finds it
(`compareChannel_divergence_eq_some_iff`).  `FirstDivergence` puts the standard output in front of
the error output, and `compareRuns` finds that (`compareRuns_divergence_eq_some_iff`).
-/

namespace Conformance

/-- The lines of both outputs of a run. -/
abbrev Outputs := Channel → List Text

/-- Two outputs that agree on `common` and differ directly behind it, as `d` reports. -/
inductive Parts (channel : Channel) (common : List Text) :
    List Text → List Text → Divergence → Prop
  | line {r c : Text} (rs cs : List Text) (h : r ≠ c) :
      Parts channel common (common ++ r :: rs) (common ++ c :: cs)
        (.line channel (common.length + 1) r c)
  | candidateLonger (c : Text) (cs : List Text) :
      Parts channel common common (common ++ c :: cs)
        (.length channel common.length (common ++ c :: cs).length)
  | referenceLonger (r : Text) (rs : List Text) :
      Parts channel common (common ++ r :: rs) common
        (.length channel (common ++ r :: rs).length common.length)

/-- The first difference between two runs: the standard outputs part, or they are equal and the
error outputs part. -/
def FirstDivergence (reference candidate : Outputs) (d : Divergence) : Prop :=
  (∃ common, Parts .stdout common (reference .stdout) (candidate .stdout) d) ∨
    (reference .stdout = candidate .stdout ∧
      ∃ common, Parts .stderr common (reference .stderr) (candidate .stderr) d)

/-! ## One output -/

/-- Equal lines at the front are counted and passed over. -/
theorem compareFrom_append (channel : Channel) (matched : Nat) (common rs cs : List Text) :
    compareFrom channel matched (common ++ rs) (common ++ cs) =
      compareFrom channel (matched + common.length) rs cs := by
  induction common generalizing matched with
  | nil => rfl
  | cons l ls ih =>
    rw [List.cons_append, List.cons_append, compareFrom, if_pos rfl, ih, List.length_cons,
      Nat.add_right_comm, Nat.add_assoc]

theorem compareChannel_self (channel : Channel) (ls : List Text) :
    compareChannel channel ls ls = ⟨ls.length, none⟩ := by
  have h := compareFrom_append channel 0 ls [] []
  rw [List.append_nil, Nat.zero_add] at h
  exact h

/-- The comparison reports where two outputs part and counts the lines in front of it. -/
theorem Parts.compareChannel_eq {channel : Channel} {common rs cs : List Text} {d : Divergence}
    (h : Parts channel common rs cs d) :
    compareChannel channel rs cs = ⟨common.length, some d⟩ := by
  unfold compareChannel
  cases h with
  | line rs cs h =>
    rw [compareFrom_append, compareFrom, if_neg h, Nat.zero_add]
  | candidateLonger c cs =>
    have h := compareFrom_append channel 0 common [] (c :: cs)
    rw [List.append_nil] at h
    rw [h, Nat.zero_add, List.length_append]
    rfl
  | referenceLonger r rs =>
    have h := compareFrom_append channel 0 common (r :: rs) []
    rw [List.append_nil] at h
    rw [h, Nat.zero_add, List.length_append]
    rfl

theorem Parts.cons {channel : Channel} {common rs cs : List Text} {d : Divergence} (l : Text)
    (h : Parts channel common rs cs d) :
    ∃ d', Parts channel (l :: common) (l :: rs) (l :: cs) d' := by
  cases h with
  | line rs cs h => exact ⟨_, .line rs cs h⟩
  | candidateLonger c cs => exact ⟨_, .candidateLonger c cs⟩
  | referenceLonger r rs => exact ⟨_, .referenceLonger r rs⟩

/-- Two different outputs part somewhere. -/
theorem exists_parts (channel : Channel) {rs cs : List Text} (h : rs ≠ cs) :
    ∃ common d, Parts channel common rs cs d := by
  induction rs generalizing cs with
  | nil =>
    cases cs with
    | nil => exact absurd rfl h
    | cons c cs => exact ⟨[], _, .candidateLonger c cs⟩
  | cons r rs ih =>
    cases cs with
    | nil => exact ⟨[], _, .referenceLonger r rs⟩
    | cons c cs =>
      by_cases hrc : r = c
      · subst hrc
        obtain ⟨common, d, hd⟩ := ih (fun e => h (congrArg _ e))
        obtain ⟨d', hd'⟩ := hd.cons r
        exact ⟨_, d', hd'⟩
      · exact ⟨[], _, .line rs cs hrc⟩

theorem compareChannel_divergence_eq_none_iff {channel : Channel} {rs cs : List Text} :
    (compareChannel channel rs cs).divergence = none ↔ rs = cs := by
  constructor
  · intro h
    refine Decidable.byContradiction fun hne => ?_
    obtain ⟨common, d, hp⟩ := exists_parts channel hne
    rw [hp.compareChannel_eq] at h
    exact Option.some_ne_none d h
  · rintro rfl
    rw [compareChannel_self]

/-- **One output.** What a comparison reports is where the outputs part. -/
theorem compareChannel_divergence_eq_some_iff {channel : Channel} {rs cs : List Text}
    {d : Divergence} :
    (compareChannel channel rs cs).divergence = some d ↔
      ∃ common, Parts channel common rs cs d := by
  constructor
  · intro h
    have hne : rs ≠ cs := by
      rintro rfl
      rw [compareChannel_self] at h
      exact Option.some_ne_none d h.symm
    obtain ⟨common, d', hp⟩ := exists_parts channel hne
    rw [hp.compareChannel_eq] at h
    obtain rfl : d' = d := Option.some.inj h
    exact ⟨common, hp⟩
  · rintro ⟨common, hp⟩
    rw [hp.compareChannel_eq]

/-! ## Both outputs -/

/-- Standard outputs that differ decide the comparison. -/
theorem compareRuns_of_stdout {a b : CapturedRun} {d : Divergence}
    (h : (compareChannel .stdout a.stdout b.stdout).divergence = some d) :
    compareRuns a b = compareChannel .stdout a.stdout b.stdout := by
  simp only [compareRuns, h]

/-- Behind standard outputs that agree, the error outputs are compared. -/
theorem compareRuns_of_stdout_agrees {a b : CapturedRun}
    (h : (compareChannel .stdout a.stdout b.stdout).divergence = none) :
    compareRuns a b =
      ⟨(compareChannel .stdout a.stdout b.stdout).matched +
        (compareChannel .stderr a.stderr b.stderr).matched,
      (compareChannel .stderr a.stderr b.stderr).divergence⟩ := by
  simp only [compareRuns, h]

theorem compareRuns_of_stdout_eq {a b : CapturedRun} (h : a.stdout = b.stdout) :
    compareRuns a b =
      ⟨a.stdout.length + (compareChannel .stderr a.stderr b.stderr).matched,
      (compareChannel .stderr a.stderr b.stderr).divergence⟩ := by
  have hagrees : (compareChannel .stdout a.stdout b.stdout).divergence = none :=
    compareChannel_divergence_eq_none_iff.mpr h
  rw [compareRuns_of_stdout_agrees hagrees, ← h, compareChannel_self]

/-- The comparison of two runs ends where the standard outputs part. -/
theorem Parts.compareRuns_stdout {a b : CapturedRun} {common : List Text} {d : Divergence}
    (h : Parts .stdout common a.stdout b.stdout d) : compareRuns a b = ⟨common.length, some d⟩ := by
  have hd : (compareChannel .stdout a.stdout b.stdout).divergence = some d := by
    rw [h.compareChannel_eq]
  rw [compareRuns_of_stdout hd, h.compareChannel_eq]

/-- Behind equal standard outputs, the comparison of two runs ends where the error outputs part. -/
theorem Parts.compareRuns_stderr {a b : CapturedRun} {common : List Text} {d : Divergence}
    (h : Parts .stderr common a.stderr b.stderr d) (hout : a.stdout = b.stdout) :
    compareRuns a b = ⟨a.stdout.length + common.length, some d⟩ := by
  rw [compareRuns_of_stdout_eq hout, h.compareChannel_eq]

/-- The error outputs are compared only where the standard outputs agree. -/
theorem compareRuns_divergence (a b : CapturedRun) :
    (compareRuns a b).divergence =
      (compareChannel .stdout a.stdout b.stdout).divergence.or
        (compareChannel .stderr a.stderr b.stderr).divergence := by
  unfold compareRuns
  cases h : (compareChannel .stdout a.stdout b.stdout).divergence with
  | none => simp [h]
  | some d => simp [h]

/-- Two runs agree exactly if their outputs are equal. -/
theorem compareRuns_divergence_eq_none_iff {a b : CapturedRun} :
    (compareRuns a b).divergence = none ↔ ∀ channel, a.lines channel = b.lines channel := by
  rw [compareRuns_divergence, Option.or_eq_none_iff, compareChannel_divergence_eq_none_iff,
    compareChannel_divergence_eq_none_iff]
  constructor
  · rintro ⟨hout, herr⟩ (_ | _)
    · exact hout
    · exact herr
  · intro h
    exact ⟨h .stdout, h .stderr⟩

/-- **Both outputs.** What a comparison of two runs reports is their first divergence. -/
theorem compareRuns_divergence_eq_some_iff {a b : CapturedRun} {d : Divergence} :
    (compareRuns a b).divergence = some d ↔ FirstDivergence a.lines b.lines d := by
  rw [compareRuns_divergence, Option.or_eq_some_iff, compareChannel_divergence_eq_none_iff,
    compareChannel_divergence_eq_some_iff, compareChannel_divergence_eq_some_iff]
  rfl

end Conformance
