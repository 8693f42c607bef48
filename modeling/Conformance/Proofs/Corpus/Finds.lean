import Conformance.Proofs.Corpus.Discovery
import Conformance.Proofs.Files.Lookup
import Conformance.Proofs.Path.Order

/-!
# Finding what is selected

What is no directory cannot be searched (`missing?`), and a directory alone cannot be searched
either if it cannot be listed (`unlisted?`).  A directory and a tree are searched for different
files, but what is made of them is the same: the files that are selected, in increasing order, or an
error (`Finds`).  So what is found is determined by what is selected and by what keeps a search from
starting (`Finds.unique`).
-/

namespace Conformance

open FileSystem

namespace Corpus

variable {fs : FileSystem} {dir : Path} {failure failure' : Option CorpusError}
  {Selected Selected' : Path → Prop} {result result' : Except CorpusError (List Path)}
  {found : List Path} {e : CorpusError} {filter : Option Text} {es : Entries}

theorem isDirectory_iff :
    fs.isDirectory dir = true ↔ ∃ access es, fs.node? dir = some (.directory access es) := by
  rw [FileSystem.isDirectory, Option.any_eq_true]
  constructor
  · rintro ⟨n, hn, hdir⟩
    cases n with
    | directory access es => exact ⟨access, es, hn⟩
    | _ => exact nomatch hdir
  · rintro ⟨access, es, hes⟩
    exact ⟨_, hes, rfl⟩

/-! ## What keeps a search from starting -/

/-- The error for what is no directory. -/
def missing? (fs : FileSystem) (dir : Path) : Option CorpusError :=
  if fs.isDirectory dir then none else some (.directoryNotFound dir)

theorem missing?_eq_none_iff : missing? fs dir = none ↔ fs.isDirectory dir = true := by
  simp [missing?]

theorem missing?_eq_some_iff :
    missing? fs dir = some e ↔ fs.isDirectory dir = false ∧ e = .directoryNotFound dir := by
  cases hdir : fs.isDirectory dir <;> simp [missing?, hdir, eq_comm]

/-- The error for what is no directory, or for a directory that cannot be listed. -/
def unlisted? (fs : FileSystem) (dir : Path) : Option CorpusError :=
  if fs.isDirectory dir then
    match fs.entries dir with
    | .error cause => some (.unreadable dir cause)
    | .ok _ => none
  else some (.directoryNotFound dir)

theorem unlisted?_eq_none_iff : unlisted? fs dir = none ↔ ∃ es, fs.entries dir = .ok es := by
  constructor
  · intro h
    unfold unlisted? at h
    by_cases hdir : fs.isDirectory dir = true
    · rw [if_pos hdir] at h
      cases hes : fs.entries dir with
      | error cause =>
        rw [hes] at h
        exact nomatch h
      | ok es => exact ⟨es, rfl⟩
    · rw [if_neg hdir] at h
      exact nomatch h
  · rintro ⟨es, hes⟩
    obtain ⟨access, hdir, -⟩ := entries_eq_ok_iff.mp hes
    rw [unlisted?, if_pos (isDirectory_iff.mpr ⟨access, es, hdir⟩), hes]

/-- A directory that cannot be listed is one that may not be read. -/
theorem unlisted?_eq_some_iff :
    unlisted? fs dir = some e ↔
      fs.isDirectory dir = false ∧ e = .directoryNotFound dir ∨
      (∃ access es, fs.node? dir = some (.directory access es) ∧ access.readable = false) ∧
        e = .unreadable dir .noPermission := by
  unfold unlisted?
  cases hdir : fs.isDirectory dir with
  | false =>
    have hnone : ¬∃ access es, fs.node? dir = some (.directory access es) ∧
        access.readable = false := by
      rintro ⟨access, es, hes, -⟩
      rw [isDirectory_iff.mpr ⟨access, es, hes⟩] at hdir
      exact nomatch hdir
    rw [if_neg (by simp), Option.some.injEq, or_iff_left fun h => hnone h.1, eq_comm]
    simp
  | true =>
    obtain ⟨access, es, hes⟩ := isDirectory_iff.mp hdir
    have hunread : (∃ access es, fs.node? dir = some (.directory access es) ∧
        access.readable = false) ↔ access.readable = false := by
      rw [hes]
      simp
    rw [if_pos rfl, entries_of_directory hes, hunread, or_iff_right (by simp)]
    cases hread : access.readable with
    | false => simp only [Bool.false_eq_true, if_false, Option.some.injEq, true_and, eq_comm]
    | true => simp

theorem discoverDirectory_of_unlisted (h : unlisted? fs dir = some e) :
    discoverDirectory fs dir filter = .error e := by
  unfold unlisted? at h
  unfold discoverDirectory
  by_cases hdir : fs.isDirectory dir = true
  · rw [if_pos hdir] at h ⊢
    cases hes : fs.entries dir with
    | error cause =>
      rw [hes] at h
      cases h
      rfl
    | ok es =>
      rw [hes] at h
      exact nomatch h
  · rw [if_neg hdir] at h ⊢
    cases h
    rfl

/-! ## What is made of the files -/

/-- Files in increasing order, or the error for a directory that has none. -/
def foundOrNone (dir : Path) (found : List Path) : Except CorpusError (List Path) :=
  if found = [] then .error (.noSourceFiles dir) else .ok found

theorem foundOrNone_eq_ok_iff {files : List Path} :
    foundOrNone dir found = .ok files ↔ found ≠ [] ∧ files = found := by
  unfold foundOrNone
  by_cases h : found = []
  · simp [h]
  · rw [if_neg h, Except.ok.injEq, eq_comm, and_iff_right h]

theorem foundOrNone_eq_error_iff :
    foundOrNone dir found = .error e ↔ found = [] ∧ e = .noSourceFiles dir := by
  unfold foundOrNone
  by_cases h : found = []
  · simp [h, eq_comm]
  · simp [h]

theorem sortedOrNone_eq (dir : Path) (found : List Path) :
    sortedOrNone dir found = foundOrNone dir (Path.sort found) := by
  unfold sortedOrNone foundOrNone
  by_cases h : found = []
  · rw [h, Path.sort_nil]
    rfl
  · rw [if_neg (by simpa using h), if_neg (sort_ne_nil h)]

theorem discoverDirectory_of_entries (h : fs.entries dir = .ok es) :
    discoverDirectory fs dir filter =
      sortedOrNone dir ((es.names.map fun name => dir.join ⟨name⟩).filter fun p =>
        fs.isFile p && eligible filter p) := by
  obtain ⟨access, hdir, -⟩ := entries_eq_ok_iff.mp h
  rw [discoverDirectory, if_pos (isDirectory_iff.mpr ⟨access, es, hdir⟩), h]

/-- **A directory that may not be read** is an error, whatever the filter is. -/
theorem discoverDirectory_eq_unreadable_iff {path : Path} {cause : SystemFault} :
    discoverDirectory fs dir filter = .error (.unreadable path cause) ↔
      (∃ access es, fs.node? dir = some (.directory access es) ∧ access.readable = false) ∧
        path = dir ∧ cause = .noPermission := by
  cases hunlisted : unlisted? fs dir with
  | some e =>
    rw [discoverDirectory_of_unlisted hunlisted, Except.error.injEq]
    constructor
    · rintro rfl
      obtain ⟨-, heq⟩ | ⟨hdir, heq⟩ := unlisted?_eq_some_iff.mp hunlisted
      · exact nomatch heq
      · exact ⟨hdir, CorpusError.unreadable.inj heq⟩
    · rintro ⟨hdir, rfl, rfl⟩
      exact Option.some.inj (hunlisted.symm.trans (unlisted?_eq_some_iff.mpr (.inr ⟨hdir, rfl⟩)))
  | none =>
    obtain ⟨es, hes⟩ := unlisted?_eq_none_iff.mp hunlisted
    refine iff_of_false (fun heq => ?_) fun ⟨hdir, _⟩ => ?_
    · rw [discoverDirectory_of_entries hes, sortedOrNone_eq, foundOrNone_eq_error_iff] at heq
      exact nomatch heq.2
    · rw [unlisted?_eq_some_iff.mpr (.inr ⟨hdir, rfl⟩)] at hunlisted
      exact nomatch hunlisted

/-- The result of a search: what keeps it from starting if there is anything, and else the files
that are selected, in increasing order, or the error for a directory that has none. -/
structure Finds (dir : Path) (failure : Option CorpusError) (Selected : Path → Prop)
    (result : Except CorpusError (List Path)) : Prop where
  started : ∀ p, Selected p → failure = none
  failed : ∀ e, failure = some e → result = .error e
  sorted : failure = none → ∃ found, Path.Increasing found ∧
    (∀ p, p ∈ found ↔ Selected p) ∧ result = foundOrNone dir found

namespace Finds

/-- **The files that are found** are those that are selected, in increasing order. -/
theorem eq_ok_iff (h : Finds dir failure Selected result) :
    result = .ok found ↔
      found ≠ [] ∧ Path.Increasing found ∧ ∀ p, p ∈ found ↔ Selected p := by
  cases hfailure : failure with
  | some e =>
    rw [h.failed e hfailure]
    refine iff_of_false (fun heq => nomatch heq) ?_
    rintro ⟨hne, -, hmem⟩
    obtain ⟨p, hp⟩ := List.exists_mem_of_ne_nil found hne
    rw [h.started p ((hmem p).mp hp)] at hfailure
    exact nomatch hfailure
  | none =>
    obtain ⟨files, hincreasing, hmem, rfl⟩ := h.sorted hfailure
    rw [foundOrNone_eq_ok_iff]
    constructor
    · rintro ⟨hne, rfl⟩
      exact ⟨hne, hincreasing, hmem⟩
    · rintro ⟨hne, hincreasing', hmem'⟩
      have heq := hincreasing'.eq_of_mem_iff hincreasing fun p => (hmem' p).trans (hmem p).symm
      exact ⟨heq ▸ hne, heq⟩

/-- Files are found where some are selected. -/
theorem exists_ok_iff (h : Finds dir failure Selected result) :
    (∃ found, result = .ok found) ↔ ∃ p, Selected p := by
  constructor
  · rintro ⟨found, hfound⟩
    obtain ⟨hne, -, hmem⟩ := h.eq_ok_iff.mp hfound
    obtain ⟨p, hp⟩ := List.exists_mem_of_ne_nil found hne
    exact ⟨p, (hmem p).mp hp⟩
  · rintro ⟨p, hp⟩
    obtain ⟨found, -, hmem, heq⟩ := h.sorted (h.started p hp)
    exact ⟨found, heq.trans
      (foundOrNone_eq_ok_iff.mpr ⟨List.ne_nil_of_mem ((hmem p).mpr hp), rfl⟩)⟩

/-- **The errors** are what keeps the search from starting, and else that nothing is selected. -/
theorem eq_error_iff (h : Finds dir failure Selected result) :
    result = .error e ↔
      failure = some e ∨ failure = none ∧ (¬∃ p, Selected p) ∧ e = .noSourceFiles dir := by
  cases hfailure : failure with
  | some e' =>
    rw [h.failed e' hfailure, Except.error.injEq, Option.some.injEq]
    simp
  | none =>
    obtain ⟨found, -, hmem, rfl⟩ := h.sorted hfailure
    have hnil : found = [] ↔ ¬∃ p, Selected p := by
      rw [List.eq_nil_iff_forall_not_mem, not_exists]
      exact forall_congr' fun p => not_congr (hmem p)
    rw [foundOrNone_eq_error_iff, hnil]
    simp

/-- **Uniqueness.** What is found depends on nothing but what is selected and what keeps the search
from starting. -/
theorem unique (h : Finds dir failure Selected result) (h' : Finds dir failure' Selected' result')
    (hfailure : failure = failure') (hsame : ∀ p, Selected p ↔ Selected' p) :
    result = result' := by
  cases hfailure' : failure' with
  | some e => rw [h.failed e (hfailure.trans hfailure'), h'.failed e hfailure']
  | none =>
    obtain ⟨found, hincreasing, hmem, rfl⟩ := h.sorted (hfailure.trans hfailure')
    obtain ⟨found', hincreasing', hmem', rfl⟩ := h'.sorted hfailure'
    rw [hincreasing.eq_of_mem_iff hincreasing' fun p =>
      (hmem p).trans ((hsame p).trans (hmem' p).symm)]

end Finds

end Corpus

end Conformance
