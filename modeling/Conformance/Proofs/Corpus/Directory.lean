import Mathlib.Data.List.Sort
import Conformance.Proofs.Corpus.Tree
import Conformance.Proofs.Text.Decoding

/-!
# The files of one directory

Which entries of a directory are selected is said of the directory and not of the way it is searched
(`Chosen`).  What is found is the files under their names in increasing order
(`discoverDirectory_eq`), and the names are determined by what is selected: neither the order in
which the directory is enumerated nor what else it holds can matter.
-/

namespace Conformance

open FileSystem

variable {fs : FileSystem} {dir : Path} {filter : Option Text} {access : Access} {es : Entries}
  {name : Name} {node : Node} {names : List Name} {found : List Path}

/-- Files in one directory come in the order of their names. -/
theorem Path.order_join {other : Name} (hname : name.Plain) (hother : other.Plain) (dir : Path) :
    (dir.join ⟨name⟩).order (dir.join ⟨other⟩) = Name.order name other := by
  rw [Path.order, components_join hname, components_join hother, Component.orderLists_append]
  show (Name.order name other).then .eq = Name.order name other
  exact Ordering.then_eq

namespace Corpus

/-! ## The entries that are selected -/

/-- A name is a source file's if it is a text that ends as one does and contains the filter. -/
def IsSourceName (filter : Option Text) (name : Name) : Prop :=
  ∃ t, name = Utf8.encode t ∧ sourceSuffix <:+ t ∧ ∀ f ∈ filter, f <:+: t

/-- An entry of a directory that may be read is selected by what it is and by its name.  It is a
regular file, in a directory that may be searched and under a path that is not too long, or a link
that leads to a regular file when it is looked up under its path. -/
def Chosen (fs : FileSystem) (dir : Path) (filter : Option Text) (name : Name) : Prop :=
  ∃ access es node, fs.node? dir = some (.directory access es) ∧ access.readable = true ∧
    es.find? name = some node ∧
    (node.isFile = true ∧ access.searchable = true ∧
        (dir.join ⟨name⟩).bytes.length ≤ pathLimit ∨
      node.isLink = true ∧ fs.isFile (dir.join ⟨name⟩) = true) ∧
    IsSourceName filter name

theorem Chosen.exists_entries (h : Chosen fs dir filter name) : ∃ es, fs.entries dir = .ok es := by
  obtain ⟨access, es, -, hdir, hread, -⟩ := h
  exact ⟨es, entries_eq_ok_iff.mpr ⟨access, hdir, hread⟩⟩

theorem eligible_join (hname : name.Plain) (dir : Path) :
    eligible filter (dir.join ⟨name⟩) = true ↔ IsSourceName filter name := by
  unfold eligible IsSourceName
  rw [Path.fileName?_join hname]
  dsimp only
  cases hdecode : Utf8.decode? name with
  | error fault =>
    refine iff_of_false (by simp) ?_
    rintro ⟨t, hname, -⟩
    rw [Utf8.decode?_eq_ok_iff.mpr hname.symm] at hdecode
    exact nomatch hdecode
  | ok t =>
    have hencode := Utf8.decode?_eq_ok_iff.mp hdecode
    have heligible : (sourceSuffix.isSuffixOf t && filter.all (Text.contains · t)) = true ↔
        sourceSuffix <:+ t ∧ ∀ f ∈ filter, f <:+: t := by
      cases filter with
      | none => simp
      | some f => simp [Text.contains_iff]
    rw [heligible]
    constructor
    · exact fun h => ⟨t, hencode.symm, h⟩
    · rintro ⟨u, hname, h⟩
      rwa [← Utf8.encode_injective (hencode.trans hname)] at h

theorem isEntryName_of_mem (hroot : fs.root.Proper)
    (hdir : fs.node? dir = some (.directory access es)) (hname : name ∈ es.names) :
    name.IsEntryName := by
  obtain ⟨⟨name, node⟩, hmem, rfl⟩ := List.mem_map.mp hname
  exact ((node?_proper hroot hdir).2.of_mem hmem).1

/-- An entry is a file under its path if it is one itself that can be looked up, or if it is a link
to one. -/
theorem isFile_entry_iff (hroot : fs.root.Proper)
    (hdir : fs.node? dir = some (.directory access es)) (hfind : es.find? name = some node) :
    fs.isFile (dir.join ⟨name⟩) = true ↔
      node.isFile = true ∧ access.searchable = true ∧
          (dir.join ⟨name⟩).bytes.length ≤ pathLimit ∨
        node.isLink = true ∧ fs.isFile (dir.join ⟨name⟩) = true := by
  cases hlink : node.isLink with
  | true =>
    have hfile : node.isFile = false := by
      cases node <;> first | rfl | exact nomatch hlink
    simp [hfile]
  | false =>
    rw [isFile_join_iff hdir (isEntryName_of_find? hroot hdir hfind) hfind hlink]
    simp

theorem chosen_iff (hroot : fs.root.Proper) (hes : fs.entries dir = .ok es) :
    Chosen fs dir filter name ↔
      name ∈ es.names ∧ fs.isFile (dir.join ⟨name⟩) = true ∧
        eligible filter (dir.join ⟨name⟩) = true := by
  obtain ⟨access, hdir, hread⟩ := entries_eq_ok_iff.mp hes
  constructor
  · rintro ⟨access', es', node, hdir', -, hfind, hfile, hname⟩
    rw [hdir, Option.some.injEq] at hdir'
    cases hdir'
    exact ⟨Entries.mem_names_of_find? hfind,
      (isFile_entry_iff hroot hdir hfind).mpr hfile,
      (eligible_join (isEntryName_of_find? hroot hdir hfind).toPlain dir).mpr hname⟩
  · rintro ⟨hmem, hfile, heligible⟩
    obtain ⟨⟨_, node⟩, hentry, rfl⟩ := List.mem_map.mp hmem
    have hfind := Entries.find?_of_mem_toList (node?_proper hroot hdir).1 hentry
    exact ⟨access, es, node, hdir, hread, hfind, (isFile_entry_iff hroot hdir hfind).mp hfile,
      (eligible_join (isEntryName_of_find? hroot hdir hfind).toPlain dir).mp heligible⟩

/-! ## What is found -/

/-- Names in increasing order. -/
def sortNames (names : List Name) : List Name := names.mergeSort fun n m => (n.order m).isLE

theorem sortNames_increasing (hnodup : names.Nodup) :
    (sortNames names).Pairwise fun n m => n.order m = .lt := by
  have hle : (sortNames names).Pairwise fun n m => (n.order m).isLE = true :=
    List.pairwise_mergeSort (fun _ _ _ => Std.TransCmp.isLE_trans)
      (total_of_oriented Name.order) names
  have hdistinct : (sortNames names).Nodup := (List.mergeSort_perm _ _).nodup_iff.mpr hnodup
  refine (hle.and hdistinct).imp fun {n m} ⟨hle, hne⟩ => ?_
  cases ho : n.order m with
  | lt => rfl
  | eq => exact absurd (Std.LawfulEqCmp.eq_of_compare ho) hne
  | gt => simp [ho] at hle

theorem map_join_increasing (hnames : ∀ name ∈ names, name.Plain)
    (hsorted : names.Pairwise fun n m => n.order m = .lt) (dir : Path) :
    Path.Increasing (names.map fun name => dir.join ⟨name⟩) := by
  refine List.pairwise_map.mpr (hsorted.imp_of_mem fun {n m} hn hm hlt => ?_)
  rwa [Path.order_join (hnames n hn) (hnames m hm)]

/-- The names of the entries that are selected, in increasing order. -/
def chosenNames (fs : FileSystem) (dir : Path) (filter : Option Text) (es : Entries) : List Name :=
  sortNames (es.names.filter fun name =>
    fs.isFile (dir.join ⟨name⟩) && eligible filter (dir.join ⟨name⟩))

theorem mem_chosenNames (hroot : fs.root.Proper) (hes : fs.entries dir = .ok es) :
    name ∈ chosenNames fs dir filter es ↔ Chosen fs dir filter name := by
  rw [chosen_iff hroot hes, chosenNames, sortNames, List.mem_mergeSort, List.mem_filter,
    Bool.and_eq_true]

/-- Sorting the files of a directory is sorting their names. -/
theorem sort_map_join (hnames : ∀ name ∈ names, name.Plain) :
    Path.sort (names.map fun name => dir.join ⟨name⟩) =
      (sortNames names).map fun name => dir.join ⟨name⟩ := by
  symm
  refine List.map_mergeSort fun n hn m hm => ?_
  rw [Path.order_join (hnames n hn) (hnames m hm)]

/-- **What is found in a directory** is the files under the names of the selected entries. -/
theorem discoverDirectory_eq (hroot : fs.root.Proper) (hes : fs.entries dir = .ok es) :
    discoverDirectory fs dir filter =
      foundOrNone dir ((chosenNames fs dir filter es).map fun name => dir.join ⟨name⟩) := by
  obtain ⟨access, hdir, -⟩ := entries_eq_ok_iff.mp hes
  have hplain : ∀ name ∈ es.names.filter fun name =>
      fs.isFile (dir.join ⟨name⟩) && eligible filter (dir.join ⟨name⟩), Name.Plain name :=
    fun name hname => (isEntryName_of_mem hroot hdir (List.mem_of_mem_filter hname)).toPlain
  rw [discoverDirectory_of_entries hes, List.filter_map, sortedOrNone_eq]
  exact congrArg (foundOrNone dir) (sort_map_join hplain)

/-- The names of the selected entries in increasing order, and what is found by them. -/
theorem exists_chosenNames (hroot : fs.root.Proper) (filter : Option Text)
    (hes : fs.entries dir = .ok es) :
    ∃ names : List Name, (names.Pairwise fun n m => n.order m = .lt) ∧
      (∀ name, name ∈ names ↔ Chosen fs dir filter name) ∧
      discoverDirectory fs dir filter =
        foundOrNone dir (names.map fun name => dir.join ⟨name⟩) := by
  obtain ⟨access, hdir, -⟩ := entries_eq_ok_iff.mp hes
  exact ⟨chosenNames fs dir filter es,
    sortNames_increasing ((node?_proper hroot hdir).1.filter _),
    fun name => mem_chosenNames hroot hes, discoverDirectory_eq hroot hes⟩

theorem Chosen.isSourceName (h : Chosen fs dir filter name) : IsSourceName filter name := by
  obtain ⟨-, -, -, -, -, -, -, hname⟩ := h
  exact hname

theorem Chosen.plain (hroot : fs.root.Proper) (h : Chosen fs dir filter name) : name.Plain := by
  obtain ⟨access, es, node, hdir, -, hfind, -⟩ := h
  exact (isEntryName_of_find? hroot hdir hfind).toPlain

/-- A file under the name of an entry that is selected. -/
def IsChosen (fs : FileSystem) (dir : Path) (filter : Option Text) (p : Path) : Prop :=
  ∃ name, Chosen fs dir filter name ∧ p = dir.join ⟨name⟩

theorem exists_isChosen_iff :
    (∃ p, IsChosen fs dir filter p) ↔ ∃ name, Chosen fs dir filter name := by
  constructor
  · rintro ⟨-, name, hname, -⟩
    exact ⟨name, hname⟩
  · rintro ⟨name, hname⟩
    exact ⟨dir.join ⟨name⟩, name, hname, rfl⟩

/-- **The files that are found in a directory** are those of the selected entries. -/
theorem discoverDirectory_finds (hroot : fs.root.Proper) (dir : Path) (filter : Option Text) :
    Finds dir (unlisted? fs dir) (IsChosen fs dir filter) (discoverDirectory fs dir filter) where
  started := by
    rintro p ⟨name, hname, -⟩
    exact unlisted?_eq_none_iff.mpr hname.exists_entries
  failed _ := discoverDirectory_of_unlisted
  sorted hlisted := by
    obtain ⟨es, hes⟩ := unlisted?_eq_none_iff.mp hlisted
    obtain ⟨names, hsorted, hmem, hfound⟩ := exists_chosenNames hroot filter hes
    refine ⟨names.map fun name => dir.join ⟨name⟩, ?_, fun p => ?_, hfound⟩
    · exact map_join_increasing (fun name hname => ((hmem name).mp hname).plain hroot) hsorted dir
    · simp only [IsChosen, List.mem_map, hmem, eq_comm]

/-! ## What does not matter -/

theorem isFile_agrees {fs' : FileSystem} (hroot : fs.root.Agrees fs'.root)
    (hplace : fs'.workingDirectory = fs.workingDirectory) {p : Path} (h : fs.isFile p = true) :
    fs'.isFile p = true := by
  obtain ⟨n, hn, hfile⟩ := (Option.any_eq_true _ _).mp h
  obtain ⟨n', hn', hagrees⟩ := node?_agrees hroot hplace hn
  rw [FileSystem.isFile, hn', Option.any_some, ← hagrees.isFile_eq, hfile]

/-- What is selected does not depend on the order in which directories are enumerated. -/
theorem Chosen.agrees {fs' : FileSystem} (hroot : fs.root.Proper) (hroot' : fs'.root.Proper)
    (hagrees : fs.root.Agrees fs'.root) (hplace : fs'.workingDirectory = fs.workingDirectory)
    (h : Chosen fs dir filter name) : Chosen fs' dir filter name := by
  obtain ⟨access, es, node, hdir, hread, hfind, -, -⟩ := id h
  have hes := entries_eq_ok_iff.mpr ⟨access, hdir, hread⟩
  obtain ⟨-, hfile, heligible⟩ := (chosen_iff hroot hes).mp h
  obtain ⟨n', hdir', hn⟩ := node?_agrees hagrees hplace hdir
  obtain ⟨es', rfl⟩ := hn.directory
  obtain ⟨node', hfind', -⟩ := hn.find? hfind
  exact (chosen_iff hroot' (entries_eq_ok_iff.mpr ⟨access, hdir', hread⟩)).mpr
    ⟨Entries.mem_names_of_find? hfind', isFile_agrees hagrees hplace hfile, heligible⟩

theorem unlisted?_of_agrees {fs' : FileSystem} {e : CorpusError} (hagrees : fs.root.Agrees fs'.root)
    (hplace : fs'.workingDirectory = fs.workingDirectory) (h : unlisted? fs dir = some e) :
    unlisted? fs' dir = some e := by
  rw [unlisted?_eq_some_iff] at h ⊢
  obtain ⟨hdir, rfl⟩ | ⟨⟨access, es, hdir, hread⟩, rfl⟩ := h
  · exact .inl ⟨(isDirectory_agrees hagrees hplace).symm.trans hdir, rfl⟩
  · obtain ⟨n', hdir', hn⟩ := node?_agrees hagrees hplace hdir
    obtain ⟨es', rfl⟩ := hn.directory
    exact .inr ⟨⟨access, es', hdir', hread⟩, rfl⟩

/-- **Enumeration.** What is found in a directory does not depend on the order in which it is
enumerated. -/
theorem discoverDirectory_agrees {fs' : FileSystem} (hroot : fs.root.Proper)
    (hroot' : fs'.root.Proper) (hagrees : fs.root.Agrees fs'.root)
    (hplace : fs'.workingDirectory = fs.workingDirectory) :
    discoverDirectory fs' dir filter = discoverDirectory fs dir filter := by
  have hunlisted : unlisted? fs' dir = unlisted? fs dir := Option.ext fun _ =>
    ⟨unlisted?_of_agrees hagrees.symm hplace.symm, unlisted?_of_agrees hagrees hplace⟩
  have hchosen : ∀ name, Chosen fs' dir filter name ↔ Chosen fs dir filter name := fun name =>
    ⟨Chosen.agrees hroot' hroot hagrees.symm hplace.symm, Chosen.agrees hroot hroot' hagrees hplace⟩
  refine (discoverDirectory_finds hroot' dir filter).unique
    (discoverDirectory_finds hroot dir filter) hunlisted fun p => ?_
  simp only [IsChosen, hchosen]

/-- **Nothing else matters.** Two directories with the same selected names give the same files,
each under its own path. -/
theorem discoverDirectory_of_chosen_iff {fs' : FileSystem} {dir' : Path} {es' : Entries}
    (hroot : fs.root.Proper) (hroot' : fs'.root.Proper) (hes : fs.entries dir = .ok es)
    (hes' : fs'.entries dir' = .ok es')
    (hsame : ∀ name, Chosen fs' dir' filter name ↔ Chosen fs dir filter name) :
    ∃ names : List Name,
      discoverDirectory fs dir filter = foundOrNone dir (names.map fun name => dir.join ⟨name⟩) ∧
      discoverDirectory fs' dir' filter =
        foundOrNone dir' (names.map fun name => dir'.join ⟨name⟩) := by
  obtain ⟨names, hsorted, hmem, hfound⟩ := exists_chosenNames hroot filter hes
  have hfinds := discoverDirectory_finds hroot' dir' filter
  obtain ⟨found', hincreasing, hmem', hfound'⟩ :=
    hfinds.sorted (unlisted?_eq_none_iff.mpr ⟨es', hes'⟩)
  have hplain : ∀ name ∈ names, name.Plain := fun name hname => ((hmem name).mp hname).plain hroot
  -- sorted under one path, the names are sorted under the other
  have heq : found' = names.map fun name => dir'.join ⟨name⟩ :=
    hincreasing.eq_of_mem_iff (map_join_increasing hplain hsorted dir') fun p => by
      simp only [hmem', IsChosen, List.mem_map, hmem, hsame, eq_comm]
  exact ⟨names, hfound, heq ▸ hfound'⟩

/-- **A directory gives its source files.** What is found in a directory is the entries that are
regular files, as far as their paths can be looked up, or links to such files, and whose names are
texts that end as a source file's does and contain the filter; each is found once, in increasing
order of paths.  A directory without any is an error, a directory that may not be read is another,
and anything else is a third.  The order in which directories are enumerated does not matter, and
neither does what else a directory holds. -/
theorem discoverDirectory_chosen (hroot : fs.root.Proper) :
    (discoverDirectory fs dir filter = .error (.directoryNotFound dir) ↔
      fs.isDirectory dir = false) ∧
    (∀ path cause, discoverDirectory fs dir filter = .error (.unreadable path cause) ↔
      (∃ access es, fs.node? dir = some (.directory access es) ∧ access.readable = false) ∧
        path = dir ∧ cause = .noPermission) ∧
    (discoverDirectory fs dir filter = .error (.noSourceFiles dir) ↔
      (∃ es, fs.entries dir = .ok es) ∧ ¬∃ name, Chosen fs dir filter name) ∧
    ((∃ found, discoverDirectory fs dir filter = .ok found) ↔
      ∃ name, Chosen fs dir filter name) ∧
    (∀ found, discoverDirectory fs dir filter = .ok found →
      found.Nodup ∧ Path.Increasing found ∧
        ∀ p, p ∈ found ↔ ∃ name, Chosen fs dir filter name ∧ p = dir.join ⟨name⟩) ∧
    (∀ fs' : FileSystem, fs'.root.Proper → fs.root.Agrees fs'.root →
      fs'.workingDirectory = fs.workingDirectory →
      discoverDirectory fs' dir filter = discoverDirectory fs dir filter) ∧
    ∀ (fs' : FileSystem) (dir' : Path), fs'.root.Proper →
      (∃ es, fs.entries dir = .ok es) → (∃ es, fs'.entries dir' = .ok es) →
      (∀ name, Chosen fs' dir' filter name ↔ Chosen fs dir filter name) →
      ∃ names : List Name,
        discoverDirectory fs dir filter =
          foundOrNone dir (names.map fun name => dir.join ⟨name⟩) ∧
        discoverDirectory fs' dir' filter =
          foundOrNone dir' (names.map fun name => dir'.join ⟨name⟩) := by
  have hfinds := discoverDirectory_finds hroot dir filter
  refine ⟨?_, fun path cause => ?_, ?_, ?_, ?_, ?_, ?_⟩
  · rw [hfinds.eq_error_iff, unlisted?_eq_some_iff]
    simp
  · exact discoverDirectory_eq_unreadable_iff
  · rw [hfinds.eq_error_iff, unlisted?_eq_some_iff, unlisted?_eq_none_iff, exists_isChosen_iff]
    simp
  · rw [hfinds.exists_ok_iff, exists_isChosen_iff]
  · intro found hfound
    obtain ⟨-, hincreasing, hmem⟩ := hfinds.eq_ok_iff.mp hfound
    exact ⟨hincreasing.nodup, hincreasing, hmem⟩
  · intro fs' hroot' hagrees hplace
    exact discoverDirectory_agrees hroot hroot' hagrees hplace
  · rintro fs' dir' hroot' ⟨es, hes⟩ ⟨es', hes'⟩ hsame
    exact discoverDirectory_of_chosen_iff hroot hroot' hes hes' hsame

/-- The entries of a directory: a file without a stem, a link to a file and the file, and others
that have the names of source files: a directory, a pipe and a link that leads nowhere.  The name of
the last file is no text. -/
def mixedEntries : Entries :=
  let file : Node := .file .empty false
  let name (t : String) : Name := Utf8.encode t.toList
  .cons (name ".cl") file (.cons (name "a.cl") (.link ⟨name "b.cl"⟩)
    (.cons (name "b.cl") file (.cons (name "d.cl") (.directory .full .nil)
      (.cons (name "p.cl") .fifo (.cons (name "x.cl") (.link ⟨name "nowhere"⟩)
        (.cons (0xFF :: name ".cl") file .nil))))))

def mixed : FileSystem := ⟨.directory .full mixedEntries, []⟩

theorem mixed_proper : mixed.root.Proper :=
  ⟨by decide, by decide, trivial, by decide, trivial, by decide, trivial, by decide,
    ⟨by decide, trivial⟩, by decide, trivial, by decide, trivial, by decide, trivial, trivial⟩

theorem mixed_link : mixed.isFile (.ofText "./a.cl".toList) = true := by
  have hsteps : steps (.ofText "./a.cl".toList) = [Name.current, Utf8.encode "a.cl".toList] := by
    decide
  have hnode : mixed.node? (.ofText "./a.cl".toList) = some (.file .empty false) := by
    refine node?_eq_some_iff.mpr
      ⟨[Utf8.encode "b.cl".toList], resolve_eq_ok_iff.mpr ⟨by decide, by decide, ?_⟩⟩
    rw [hsteps]
    exact (follow_cons ..).trans <| (follow_cons ..).trans <| (follow_cons ..).trans (follow_nil ..)
  rw [FileSystem.isFile, hnode]
  rfl

theorem mixed_dangling : mixed.isFile (.ofText "./x.cl".toList) = false := by
  have hsteps : steps (.ofText "./x.cl".toList) = [Name.current, Utf8.encode "x.cl".toList] := by
    decide
  have hfollow : follow mixed.root true linkLimit []
      [Name.current, Utf8.encode "x.cl".toList] = .error .noSuchFile :=
    (follow_cons ..).trans <| (follow_cons ..).trans <| follow_cons ..
  have hresolve : mixed.resolve (.ofText "./x.cl".toList) true = .error .noSuchFile := by
    rw [resolve, if_neg (by decide), if_neg (by decide), if_neg (by decide), hsteps]
    exact hfollow
  rw [FileSystem.isFile, node?, hresolve]
  rfl

/-- Of a mixed directory the files and the link to one are found. -/
theorem discoverDirectory_chosen_mixed :
    let dir : Path := ⟨Name.current⟩
    let found : List Path := [.ofText "./.cl".toList, .ofText "./a.cl".toList,
      .ofText "./b.cl".toList]
    mixed.root.Proper ∧ discoverDirectory mixed dir none = .ok found ∧
      found.Nodup ∧ Path.Increasing found ∧
      ∀ p, p ∈ found ↔ ∃ name, Chosen mixed dir none name ∧ p = dir.join ⟨name⟩ := by
  intro dir found
  have hdir : mixed.node? dir = some mixed.root := node?_current (k := 0) (by decide) rfl rfl
  have hplain : ∀ name node, mixedEntries.find? name = some node → node.isLink = false →
      (dir.join ⟨name⟩).bytes.length ≤ pathLimit →
      mixed.isFile (dir.join ⟨name⟩) = node.isFile := by
    intro name node hfind hlink hshort
    rw [Bool.eq_iff_iff, isFile_entry_iff mixed_proper hdir hfind]
    simp [hlink, hshort, Access.full]
  have hstem : mixed.isFile (.ofText "./.cl".toList) = true :=
    hplain (Utf8.encode ".cl".toList) _ rfl rfl (by decide)
  have hfile : mixed.isFile (.ofText "./b.cl".toList) = true :=
    hplain (Utf8.encode "b.cl".toList) _ rfl rfl (by decide)
  have hinner : mixed.isFile (.ofText "./d.cl".toList) = false :=
    hplain (Utf8.encode "d.cl".toList) _ rfl rfl (by decide)
  have hpipe : mixed.isFile (.ofText "./p.cl".toList) = false :=
    hplain (Utf8.encode "p.cl".toList) _ rfl rfl (by decide)
  have hfound : discoverDirectory mixed dir none = .ok found := by
    rw [discoverDirectory_of_entries (entries_eq_ok_iff.mpr ⟨.full, hdir, rfl⟩)]
    let odd : Path := ⟨Utf8.encode "./".toList ++ 0xFF :: Utf8.encode ".cl".toList⟩
    have hodd : eligible none odd = false := by decide
    show sortedOrNone _ (List.filter _ [.ofText "./.cl".toList, .ofText "./a.cl".toList,
      .ofText "./b.cl".toList, .ofText "./d.cl".toList, .ofText "./p.cl".toList,
      .ofText "./x.cl".toList, odd]) = _
    simp only [List.filter_cons, List.filter_nil, hstem, mixed_link, hfile, hinner, hpipe,
      mixed_dangling, hodd, Bool.and_false]
    exact sortedOrNone_eq_ok_iff.mpr
      ⟨by decide, (List.mergeSort_of_pairwise (by decide)).symm⟩
  exact ⟨mixed_proper, hfound, (discoverDirectory_chosen mixed_proper).2.2.2.2.1 found hfound⟩

/-- A regular file with a source file's name is not found if its own path is too long. -/
theorem discoverDirectory_beyond_paths :
    let name : Name := Utf8.encode ['x', '.', 'c', 'l']
    let es : Entries := .cons name (.file .empty false) .nil
    let fs : FileSystem := ⟨.directory .full es, []⟩
    let dir : Path := currentPath 4094
    fs.root.Proper ∧ fs.node? dir = some (.directory .full es) ∧ IsSourceName none name ∧
      (es.find? name).any Node.isFile = true ∧
      discoverDirectory fs dir none = .error (.noSourceFiles dir) := by
  intro name es fs dir
  have hname : name.IsEntryName := by decide
  have hroot : fs.root.Proper := ⟨by decide, hname, trivial, trivial⟩
  have hn : fs.node? dir = some fs.root := node?_current (by decide) rfl rfl
  refine ⟨hroot, hn, ⟨_, rfl, by decide, by simp⟩, by decide, ?_⟩
  have hes : fs.entries dir = .ok es := entries_eq_ok_iff.mpr ⟨.full, hn, rfl⟩
  refine (discoverDirectory_finds hroot dir none).eq_error_iff.mpr
    (.inr ⟨unlisted?_eq_none_iff.mpr ⟨es, hes⟩, ?_, rfl⟩)
  rintro ⟨-, name', hchosen, -⟩
  obtain ⟨hmem, hfile, -⟩ := (chosen_iff hroot hes).mp hchosen
  obtain rfl := List.mem_singleton.mp hmem
  obtain ⟨-, -, hshort⟩ := (isFile_join_iff hn hname (n := .file .empty false) rfl rfl).mp hfile
  have hlong := length_add_le_join hname.toPlain dir
  rw [length_currentPath] at hlong
  exact absurd (Nat.le_trans hlong hshort) (by decide)

end Corpus

end Conformance
