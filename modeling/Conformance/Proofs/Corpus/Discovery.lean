import Conformance.Proofs.Corpus.Listed

/-!
# A corpus that is found holds files

A directory or a tree without source files is an error, and a list of files is found completely or
not at all.  So whatever a policy finds is not empty, unless it names no file in the first place.
-/

namespace Conformance

namespace Corpus

theorem sortedOrNone_eq_ok_iff {dir : Path} {found files : List Path} :
    sortedOrNone dir found = .ok files ↔ found ≠ [] ∧ files = Path.sort found := by
  unfold sortedOrNone
  by_cases h : found = []
  · simp [h]
  · rw [if_neg (by simpa using h), Except.ok.injEq, eq_comm]
    simp [h]

theorem sort_ne_nil {files : List Path} (h : files ≠ []) : Path.sort files ≠ [] := by
  intro hsort
  have hlen : (Path.sort files).length = files.length := List.length_mergeSort files
  rw [hsort] at hlen
  exact h (List.length_eq_zero_iff.mp hlen.symm)

theorem sortedOrNone_ne_nil {dir : Path} {found files : List Path}
    (h : sortedOrNone dir found = .ok files) : files ≠ [] := by
  obtain ⟨hne, rfl⟩ := sortedOrNone_eq_ok_iff.mp h
  exact sort_ne_nil hne

theorem discoverDirectory_ne_nil {fs : FileSystem} {dir : Path} {filter : Option Text}
    {files : List Path} (h : discoverDirectory fs dir filter = .ok files) : files ≠ [] := by
  unfold discoverDirectory at h
  split at h
  · split at h
    · exact nomatch h
    · exact sortedOrNone_ne_nil h
  · exact nomatch h

end Corpus

/-- **No empty corpus.** What a policy finds is not empty, unless it is an empty list of files. -/
theorem CorpusPolicy.discover_ne_nil {policy : CorpusPolicy} {fs : FileSystem}
    {filter : Option Text} {found : List Path} (hp : ∀ base, policy ≠ .files base [])
    (h : policy.discover fs filter = .ok found) : found ≠ [] := by
  cases policy with
  | directory dir => exact Corpus.discoverDirectory_ne_nil h
  | tree dir =>
    change Corpus.discoverTree fs dir filter = .ok found at h
    unfold Corpus.discoverTree at h
    split at h
    · exact Corpus.sortedOrNone_ne_nil h
    · simp at h
  | files base listed =>
    intro hnil
    have hlen := Corpus.length_resolveFiles h
    rw [hnil, List.length_nil] at hlen
    exact hp base (by rw [List.length_eq_zero_iff.mp hlen.symm])

end Conformance
