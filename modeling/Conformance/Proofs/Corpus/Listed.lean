import Conformance.Corpus.Discovery

/-!
# Files that are listed by name

A listed file is taken as it is given if there is such a file, and else from the base directory.  A
list is found completely (`resolveFiles_of_present`), or its first file that is in neither place is
the error (`resolveFiles_of_missing`); every list is of one of the two kinds
(`present_or_first_missing`).  What was found is found again, whatever the base directory is.
-/

namespace Conformance.Corpus

variable {fs : FileSystem} {base file : Path} {listed : List Path}

/-! ## One file -/

/-- A listed file can be found: as it is given, or behind the base directory. -/
def Present (fs : FileSystem) (base file : Path) : Prop :=
  fs.isFile file = true ∨ fs.isFile (base.join file) = true

/-- Where a listed file is taken from: the path as it is given comes before the one behind the base
directory. -/
def place (fs : FileSystem) (base file : Path) : Path :=
  if fs.isFile file then file else base.join file

theorem place_of_isFile (h : fs.isFile file = true) (base : Path) : place fs base file = file := by
  unfold place
  rw [if_pos h]

theorem isFile_place (h : Present fs base file) : fs.isFile (place fs base file) = true := by
  unfold place
  by_cases hfile : fs.isFile file = true
  · rw [if_pos hfile]
    exact hfile
  · rw [if_neg hfile]
    exact h.resolve_left hfile

theorem resolveFile_of_present (h : Present fs base file) :
    resolveFile fs base file = .ok (place fs base file) := by
  unfold resolveFile place
  by_cases hfile : fs.isFile file = true
  · simp [hfile]
  · have hjoined : fs.isFile (base.join file) = true := h.resolve_left hfile
    simp [hfile, hjoined]

theorem resolveFile_of_missing (h : ¬Present fs base file) :
    resolveFile fs base file = .error (.sourceNotFound file) := by
  obtain ⟨hfile, hjoined⟩ := not_or.mp h
  unfold resolveFile
  rw [if_neg hfile, if_neg hjoined]

/-! ## All files -/

theorem resolveFiles_of_present (h : ∀ file ∈ listed, Present fs base file) :
    resolveFiles fs base listed = .ok (listed.map (place fs base)) := by
  induction listed with
  | nil => rfl
  | cons file rest ih =>
    have hfile : Present fs base file := h file List.mem_cons_self
    have hrest := ih fun p hp => h p (List.mem_cons_of_mem file hp)
    rw [resolveFiles, resolveFile_of_present hfile, hrest]
    rfl

/-- The first file that is missing decides; what is listed behind it is not looked at. -/
theorem resolveFiles_of_missing {before : List Path} (hbefore : ∀ p ∈ before, Present fs base p)
    (hfile : ¬Present fs base file) (after : List Path) :
    resolveFiles fs base (before ++ file :: after) = .error (.sourceNotFound file) := by
  induction before with
  | nil =>
    show resolveFiles fs base (file :: after) = _
    rw [resolveFiles, resolveFile_of_missing hfile]
  | cons first rest ih =>
    have hfirst : Present fs base first := hbefore first List.mem_cons_self
    have hrest := ih fun p hp => hbefore p (List.mem_cons_of_mem first hp)
    rw [List.cons_append, resolveFiles, resolveFile_of_present hfirst, hrest]
    rfl

/-- All files of a list can be found, or there is a first one that cannot. -/
theorem present_or_first_missing (fs : FileSystem) (base : Path) (listed : List Path) :
    (∀ file ∈ listed, Present fs base file) ∨
      ∃ before file after, listed = before ++ file :: after ∧
        (∀ p ∈ before, Present fs base p) ∧ ¬Present fs base file := by
  induction listed with
  | nil => exact .inl (by simp)
  | cons first rest ih =>
    by_cases hfirst : Present fs base first
    · obtain hall | ⟨before, file, after, rfl, hbefore, hfile⟩ := ih
      · exact .inl (List.forall_mem_cons.mpr ⟨hfirst, hall⟩)
      · exact .inr ⟨first :: before, file, after, rfl,
          List.forall_mem_cons.mpr ⟨hfirst, hbefore⟩, hfile⟩
    · exact .inr ⟨[], first, rest, rfl, by simp, hfirst⟩

theorem resolveFiles_eq_ok_iff {found : List Path} :
    resolveFiles fs base listed = .ok found ↔
      (∀ file ∈ listed, Present fs base file) ∧ found = listed.map (place fs base) := by
  obtain hall | ⟨before, file, after, rfl, hbefore, hfile⟩ :=
    present_or_first_missing fs base listed
  · rw [resolveFiles_of_present hall, Except.ok.injEq, eq_comm, and_iff_right hall]
  · rw [resolveFiles_of_missing hbefore hfile]
    have hnot : ¬∀ p ∈ before ++ file :: after, Present fs base p := fun hall =>
      hfile (hall file (by simp))
    exact iff_of_false (fun h => nomatch h) fun h => hnot h.1

theorem resolveFiles_eq_error_iff {e : CorpusError} :
    resolveFiles fs base listed = .error e ↔
      ∃ before file after, listed = before ++ file :: after ∧
        (∀ p ∈ before, Present fs base p) ∧ ¬Present fs base file ∧ e = .sourceNotFound file := by
  constructor
  · intro h
    obtain hall | ⟨before, file, after, rfl, hbefore, hfile⟩ :=
      present_or_first_missing fs base listed
    · rw [resolveFiles_of_present hall] at h
      exact nomatch h
    · rw [resolveFiles_of_missing hbefore hfile] at h
      exact ⟨before, file, after, rfl, hbefore, hfile, (Except.error.inj h).symm⟩
  · rintro ⟨before, file, after, rfl, hbefore, hfile, rfl⟩
    exact resolveFiles_of_missing hbefore hfile after

/-- As many files are found as are listed. -/
theorem length_resolveFiles {found : List Path} (h : resolveFiles fs base listed = .ok found) :
    found.length = listed.length := by
  obtain ⟨-, rfl⟩ := resolveFiles_eq_ok_iff.mp h
  exact List.length_map _

/-- Files that are there are taken as they are, whatever the base directory is. -/
theorem resolveFiles_of_files {files : List Path} (h : ∀ p ∈ files, fs.isFile p = true)
    (base : Path) : resolveFiles fs base files = .ok files := by
  refine resolveFiles_eq_ok_iff.mpr ⟨fun p hp => .inl (h p hp), ?_⟩
  have hplace : files.map (place fs base) = files.map id :=
    List.map_congr_left fun p hp => place_of_isFile (h p hp) base
  rw [hplace, List.map_id]

theorem join_of_isAbsolute {p : Path} (h : p.isAbsolute = true) (base : Path) :
    base.join p = p := by
  unfold Path.join
  rw [if_pos h]

/-- **All or nothing.** A list of files is found exactly if each of them is a file as it is given or
behind the base directory.  Then each is found at its position in the list, unchanged if it is a
file as given and behind the base directory if not (where an absolute path stays what it is); all
that is found are files, and they are found again from any base directory.  If not all are found,
the error is the first file in the list that is in neither place, as it is given. -/
theorem resolveFiles_all_or_first_missing (fs : FileSystem) (base : Path) (listed : List Path) :
    ((∃ found, resolveFiles fs base listed = .ok found) ↔
      ∀ file ∈ listed, fs.isFile file = true ∨ fs.isFile (base.join file) = true) ∧
    (∀ found : List Path, resolveFiles fs base listed = .ok found →
      found.length = listed.length ∧
      (∀ (i : Nat) file, listed[i]? = some file →
        found[i]? = some (if fs.isFile file then file else base.join file)) ∧
      (∀ p ∈ found, fs.isFile p = true) ∧
      ∀ base', resolveFiles fs base' found = .ok found) ∧
    (∀ e, resolveFiles fs base listed = .error e ↔
      ∃ before file after, listed = before ++ file :: after ∧
        (∀ p ∈ before, fs.isFile p = true ∨ fs.isFile (base.join p) = true) ∧
        ¬(fs.isFile file = true ∨ fs.isFile (base.join file) = true) ∧
        e = .sourceNotFound file) ∧
    ∀ file : Path, file.isAbsolute = true → base.join file = file := by
  refine ⟨⟨?_, ?_⟩, ?_, fun e => resolveFiles_eq_error_iff,
    fun file hfile => join_of_isAbsolute hfile base⟩
  · rintro ⟨found, hfound⟩
    exact (resolveFiles_eq_ok_iff.mp hfound).1
  · intro hall
    exact ⟨_, resolveFiles_of_present hall⟩
  · intro found hfound
    obtain ⟨hall, rfl⟩ := resolveFiles_eq_ok_iff.mp hfound
    have hfiles : ∀ p ∈ listed.map (place fs base), fs.isFile p = true := by
      intro p hp
      obtain ⟨file, hfile, rfl⟩ := List.mem_map.mp hp
      exact isFile_place (hall file hfile)
    refine ⟨length_resolveFiles hfound, ?_, hfiles, resolveFiles_of_files hfiles⟩
    intro i file hfile
    rw [List.getElem?_map, hfile]
    rfl

end Conformance.Corpus
