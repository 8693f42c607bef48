import Conformance.Proofs.Comparison.CommonPrefix

/-!
# What a comparison does not read

A comparison reads two runs up to their first divergence.  Where they part at a line, the lines
behind it may be replaced in either run, and all error lines if the line is one of the standard
output (`Parts.of_take`); where the standard outputs differ in length only, the error lines may be
(`compareRuns_of_parts_stdout`).  The line at which the runs part is read: runs that agree on it
are compared otherwise (`Parts.take_ne`).
-/

namespace Conformance

/-- The common lines of two outputs, and the first line behind them. -/
theorem take_behind_common (common : List Text) (l : Text) (ls : List Text) :
    (common ++ l :: ls).take (common.length + 1) = common ++ [l] := by
  rw [List.take_length_add_append, List.take_succ_cons, List.take_zero]

section Parts

variable {channel : Channel} {common rs cs rs' cs' : List Text} {c' : Channel} {i : Nat}
  {r c : Text}

/-- Outputs that part at a line part there whatever stands behind it. -/
theorem Parts.of_take (h : Parts channel common rs cs (.line c' i r c)) (hr : rs.take i <+: rs')
    (hc : cs.take i <+: cs') : Parts channel common rs' cs' (.line c' i r c) := by
  cases h with
  | line rs cs hne =>
    rw [take_behind_common] at hr hc
    obtain ⟨rs', rfl⟩ := hr
    obtain ⟨cs', rfl⟩ := hc
    rw [List.append_assoc, List.append_assoc]
    exact .line rs' cs' hne

/-- Outputs that part at a line do not agree up to it. -/
theorem Parts.take_ne (h : Parts channel common rs cs (.line c' i r c)) : rs.take i ≠ cs.take i := by
  cases h with
  | line rs cs hne =>
    rw [take_behind_common, take_behind_common]
    intro htake
    exact hne (List.singleton_inj.mp (List.append_cancel_left htake))

end Parts

/-- The second run has all lines of the first that come no later than line `n` of an output: these
lines, and the whole standard output in front of an error output. -/
structure AgreesUpTo (channel : Channel) (n : Nat) (run other : CapturedRun) : Prop where
  lines : (run.lines channel).take n <+: other.lines channel
  earlier : channel = .stderr → other.stdout = run.stdout

/-- A comparison that ends at a line is that of all runs that agree up to this line. -/
theorem compareRuns_of_agreesUpTo {a b a' b' : CapturedRun} {channel : Channel} {i : Nat}
    {r c : Text} (h : (compareRuns a b).divergence = some (.line channel i r c))
    (ha : AgreesUpTo channel i a a') (hb : AgreesUpTo channel i b b') :
    compareRuns a' b' = compareRuns a b := by
  obtain ⟨hearlier, hparts⟩ := (compareRuns_divergence_eq_some_iff.mp h).parts
  have hparts' := hparts.of_take ha.lines hb.lines
  cases channel with
  | stdout => rw [hparts.compareRuns_stdout, hparts'.compareRuns_stdout]
  | stderr =>
    have hout : a.stdout = b.stdout := hearlier rfl
    have hout' : a'.stdout = b'.stdout := by rw [ha.earlier rfl, hb.earlier rfl, hout]
    rw [hparts.compareRuns_stderr hout, hparts'.compareRuns_stderr hout', ha.earlier rfl]

/-- Standard outputs that part decide the comparison, whatever the error outputs are. -/
theorem compareRuns_of_parts_stdout {a b a' b' : CapturedRun} {d : Divergence}
    (h : (compareRuns a b).divergence = some d) (hd : d.channel = .stdout)
    (ha : a'.stdout = a.stdout) (hb : b'.stdout = b.stdout) : compareRuns a' b' = compareRuns a b := by
  have hparts := (compareRuns_divergence_eq_some_iff.mp h).parts.2
  rw [hd] at hparts
  have hparts' : Parts .stdout (commonPrefix (a.lines .stdout) (b.lines .stdout)) a'.stdout b'.stdout
      d := by rw [ha, hb]; exact hparts
  rw [hparts.compareRuns_stdout, hparts'.compareRuns_stdout]

/-- **What a comparison does not read.** Let two runs diverge at a line.  In either of them the
lines behind it may be replaced by any others, and so may all error lines if it is a line of the
standard output: the comparison stays the same.  It does not if the runs are made to agree up to
that line.  Where two runs diverge by the lengths of their standard outputs, the error lines may be
replaced. -/
theorem compareRuns_ignores_unread (a b : CapturedRun) :
    (∀ channel i r c, (compareRuns a b).divergence = some (.line channel i r c) →
      ∀ a' b',
        (AgreesUpTo channel i a a' → AgreesUpTo channel i b b' →
          compareRuns a' b' = compareRuns a b) ∧
        ((a'.lines channel).take i = (b'.lines channel).take i →
          compareRuns a' b' ≠ compareRuns a b)) ∧
    (∀ m n, (compareRuns a b).divergence = some (.length .stdout m n) →
      ∀ a' b', a'.stdout = a.stdout → b'.stdout = b.stdout →
        compareRuns a' b' = compareRuns a b) := by
  refine ⟨fun channel i r c h a' b' => ⟨compareRuns_of_agreesUpTo h, fun htake heq => ?_⟩,
    fun m n h a' b' => compareRuns_of_parts_stdout h rfl⟩
  have h' : (compareRuns a' b').divergence = some (.line channel i r c) := by rw [heq, h]
  exact (compareRuns_divergence_eq_some_iff.mp h').parts.2.take_ne htake

/-- One run loses the lines behind the divergence and its error lines, the other gets more of
both. -/
theorem compareRuns_ignores_unread_other_lengths :
    let a := CapturedRun.ofLines [['x'], ['1'], ['y']] [['e']]
    let b := CapturedRun.ofLines [['x'], ['2']] []
    let a' := CapturedRun.ofLines [['x'], ['1']] []
    let b' := CapturedRun.ofLines [['x'], ['2'], ['z'], ['z']] [['e'], ['f']]
    (compareRuns a b).divergence = some (.line .stdout 2 ['1'] ['2']) ∧
      AgreesUpTo .stdout 2 a a' ∧ AgreesUpTo .stdout 2 b b' ∧
      compareRuns a' b' = compareRuns a b := by
  intro a b a' b'
  have h : (compareRuns a b).divergence = some (.line .stdout 2 ['1'] ['2']) := by decide
  have ha : AgreesUpTo .stdout 2 a a' := ⟨by decide, nofun⟩
  have hb : AgreesUpTo .stdout 2 b b' := ⟨by decide, nofun⟩
  exact ⟨h, ha, hb, ((compareRuns_ignores_unread a b).1 .stdout 2 ['1'] ['2'] h a' b').1 ha hb⟩

end Conformance
