import Conformance.Proofs.Corpus.Finds
import Conformance.Proofs.Files.Lookup

/-!
# The files of a tree and the files of its directories

What holds of a node and is handed on to the entries of each directory that is listed holds of every
file of a tree (`visited_of_mem_filesAt`).  So the files of a tree are the regular files of the
directories that are reached (`mem_filesAt_iff`), no file is found twice (`filesAt_nodup`), and
trees that agree have the same files (`mem_filesAt_of_agrees`).

A directory is reached under its path, so both ways of finding files select the same of its entries
that are no links.  They differ for a regular file whose own path cannot be looked up, because it is
too long or because the directory may not be searched: the tree knows what the entry is from the
directory that holds it.
-/

namespace Conformance

open FileSystem

namespace Corpus

variable {searchable : Bool} {p q dir d : Path} {n node : Node} {access : Access} {es : Entries}
  {name : Name}

/-! ## The files at or below a node -/

theorem filesAt_directory (searchable : Bool) (p : Path) (access : Access) (es : Entries) :
    filesAt searchable p (.directory access es) =
      if searchable = true ∧ access.readable = true ∧ p.bytes.length ≤ pathLimit then
        filesBelow access.searchable p es
      else [] := by
  simp only [filesAt, Bool.and_eq_true, decide_eq_true_eq, and_assoc]

theorem filesAt_of_isFile (hn : n.isFile = true) : filesAt searchable p n = [p] := by
  cases n <;> first | rfl | exact nomatch hn

theorem mem_filesBelow : ∀ {es : Entries}, q ∈ filesBelow searchable dir es ↔
    ∃ name node, (name, node) ∈ es.toList ∧ q ∈ filesAt searchable (dir.join ⟨name⟩) node
  | .nil => by simp [filesBelow, Entries.toList]
  | .cons name node rest => by
    have hrest : q ∈ filesBelow searchable dir rest ↔ _ := mem_filesBelow
    rw [filesBelow, List.mem_append, hrest]
    simp [Entries.toList, or_and_right, exists_or]

/-- What holds of a directory that is listed is handed on to its entries. -/
def HandedOn (Visited : Bool → Path → Node → Prop) : Prop :=
  ∀ searchable p access es name node, Visited searchable p (.directory access es) →
    searchable = true → access.readable = true → p.bytes.length ≤ pathLimit →
    (name, node) ∈ es.toList → Visited access.searchable (p.join ⟨name⟩) node

mutual

/-- **The walk.** What holds of the first node and is handed on holds of every file. -/
theorem visited_of_mem_filesAt {Visited : Bool → Path → Node → Prop} (h : HandedOn Visited) :
    ∀ {n : Node} {searchable : Bool} {p q : Path}, Visited searchable p n →
      q ∈ filesAt searchable p n → ∃ searchable m, Visited searchable q m ∧ m.isFile = true
  | .file .., _, _, _, hn, hq => by
    obtain rfl := List.mem_singleton.mp hq
    exact ⟨_, _, hn, rfl⟩
  | .program _, _, _, _, hn, hq => by
    obtain rfl := List.mem_singleton.mp hq
    exact ⟨_, _, hn, rfl⟩
  | .device _, _, _, _, _, hq => absurd hq List.not_mem_nil
  | .fifo, _, _, _, _, hq => absurd hq List.not_mem_nil
  | .link _, _, _, _, _, hq => absurd hq List.not_mem_nil
  | .directory access es, searchable, p, _, hn, hq => by
    rw [filesAt_directory] at hq
    split at hq
    · next hlisted =>
      obtain ⟨hsearch, hread, hshort⟩ := hlisted
      exact visited_of_mem_filesBelow h
        (fun name node => h searchable p access es name node hn hsearch hread hshort) hq
    · exact absurd hq List.not_mem_nil

theorem visited_of_mem_filesBelow {Visited : Bool → Path → Node → Prop} (h : HandedOn Visited) :
    ∀ {es : Entries} {searchable : Bool} {dir q : Path},
      (∀ name node, (name, node) ∈ es.toList → Visited searchable (dir.join ⟨name⟩) node) →
      q ∈ filesBelow searchable dir es → ∃ searchable m, Visited searchable q m ∧ m.isFile = true
  | .nil, _, _, _, _, hq => absurd hq List.not_mem_nil
  | .cons name node rest, _, _, _, hes, hq => by
    rw [filesBelow, List.mem_append] at hq
    obtain hq | hq := hq
    · exact visited_of_mem_filesAt h (hes name node List.mem_cons_self) hq
    · exact visited_of_mem_filesBelow h
        (fun name node hmem => hes name node (List.mem_cons_of_mem _ hmem)) hq

end

/-- A file of a proper tree lies where names lead to from its first node. -/
theorem below_of_mem_filesAt (hn : n.Proper) (hq : q ∈ filesAt searchable p n) :
    ∃ names m, n.at? names = some m ∧ m.isFile = true ∧ q = p.below names := by
  let Visited (_ : Bool) (q : Path) (m : Node) : Prop :=
    ∃ names, n.at? names = some m ∧ q = p.below names
  have hstep : HandedOn Visited := by
    rintro - - access es name node ⟨names, hat, rfl⟩ - - - hmem
    have hfind := Entries.find?_of_mem_toList (hn.at? hat).1.1 hmem
    exact ⟨names ++ [name], Node.at?_concat_eq_some_iff.mpr ⟨access, es, hat, hfind⟩,
      (Path.below_concat p names name).symm⟩
  obtain ⟨-, m, ⟨names, hat, hq⟩, hfile⟩ :=
    visited_of_mem_filesAt hstep ⟨[], Node.at?_nil n, rfl⟩ hq
  exact ⟨names, m, hat, hfile, hq⟩

/-- Files that are found below a path under different names have different components. -/
theorem eq_of_components_eq {q' : Path} (hn : n.Proper) (hq : q ∈ filesAt searchable p n)
    (hq' : q' ∈ filesAt searchable p n) (h : q.components = q'.components) : q = q' := by
  obtain ⟨names, m, hat, -, rfl⟩ := below_of_mem_filesAt hn hq
  obtain ⟨names', m', hat', -, rfl⟩ := below_of_mem_filesAt hn hq'
  rw [Path.eq_of_components_below_eq (fun x hx => ((hn.at? hat).2 x hx).toPlain)
    (fun x hx => ((hn.at? hat').2 x hx).toPlain) h]

/-- The first name behind a directory is the one of the entry that a file is found at. -/
theorem ne_of_name_ne {name' : Name} {node' : Node} {q' : Path} (hname : name.IsEntryName)
    (hnode : node.Proper) (hname' : name'.IsEntryName) (hnode' : node'.Proper) (hne : name ≠ name')
    (hq : q ∈ filesAt searchable (dir.join ⟨name⟩) node)
    (hq' : q' ∈ filesAt searchable (dir.join ⟨name'⟩) node') : q ≠ q' := by
  obtain ⟨names, m, hat, -, rfl⟩ := below_of_mem_filesAt hnode hq
  obtain ⟨names', m', hat', -, rfl⟩ := below_of_mem_filesAt hnode' hq'
  intro heq
  have hcons : name :: names = name' :: names' :=
    Path.eq_of_components_below_eq
      (List.forall_mem_cons.mpr
        ⟨hname.toPlain, fun x hx => ((hnode.at? hat).2 x hx).toPlain⟩)
      (List.forall_mem_cons.mpr
        ⟨hname'.toPlain, fun x hx => ((hnode'.at? hat').2 x hx).toPlain⟩)
      (congrArg Path.components heq)
  exact hne (List.cons.inj hcons).1

mutual

/-- No file is found twice. -/
theorem filesAt_nodup :
    ∀ {n : Node}, n.Proper → ∀ (searchable : Bool) (p : Path), (filesAt searchable p n).Nodup
  | .file .., _, _, _ => by simp [filesAt]
  | .program _, _, _, _ => by simp [filesAt]
  | .device _, _, _, _ => List.nodup_nil
  | .fifo, _, _, _ => List.nodup_nil
  | .link _, _, _, _ => List.nodup_nil
  | .directory access es, ⟨hnodup, hes⟩, searchable, p => by
    rw [filesAt_directory]
    split
    · exact filesBelow_nodup hnodup hes access.searchable p
    · exact List.nodup_nil

theorem filesBelow_nodup : ∀ {es : Entries}, es.names.Nodup → es.Proper →
    ∀ (searchable : Bool) (dir : Path), (filesBelow searchable dir es).Nodup
  | .nil, _, _, _, _ => List.nodup_nil
  | .cons name node rest, hnodup, ⟨hname, hnode, hrest⟩, searchable, dir => by
    obtain ⟨hfresh, hnodup⟩ := List.nodup_cons.mp hnodup
    rw [filesBelow]
    refine List.nodup_append.mpr
      ⟨filesAt_nodup hnode _ _, filesBelow_nodup hnodup hrest searchable dir, ?_⟩
    intro q hq q' hq'
    obtain ⟨name', node', hmem, hq'⟩ := mem_filesBelow.mp hq'
    obtain ⟨hname', hnode'⟩ := hrest.of_mem hmem
    have hne : name ≠ name' := fun heq =>
      hfresh (List.mem_map.mpr ⟨(name', node'), hmem, heq.symm⟩)
    exact ne_of_name_ne hname hnode hname' hnode' hne hq hq'

end

/-- Trees that agree have the same files. -/
theorem mem_filesAt_of_agrees {n' : Node} (hn : n.Proper) (hagrees : n.Agrees n')
    (hq : q ∈ filesAt searchable p n) : q ∈ filesAt searchable p n' := by
  let Visited (s : Bool) (r : Path) (x : Node) : Prop :=
    x.Proper ∧ ∃ y, x.Agrees y ∧ ∀ q ∈ filesAt s r y, q ∈ filesAt searchable p n'
  have hstep : HandedOn Visited := by
    rintro s r access es name x ⟨⟨hnodup, hes⟩, y, hxy, hfiles⟩ hsearch hread hshort hmem
    obtain ⟨es', rfl⟩ := hxy.directory
    obtain ⟨y, hy, hagrees⟩ := hxy.find? (Entries.find?_of_mem_toList hnodup hmem)
    rw [filesAt_directory, if_pos ⟨hsearch, hread, hshort⟩] at hfiles
    refine ⟨(hes.of_mem hmem).2, y, hagrees, fun q hq => hfiles q ?_⟩
    exact mem_filesBelow.mpr ⟨name, y, Entries.mem_toList_of_find? hy, hq⟩
  obtain ⟨s, x, ⟨-, y, hxy, hfiles⟩, hfile⟩ :=
    visited_of_mem_filesAt hstep ⟨hn, n', hagrees, fun _ h => h⟩ hq
  refine hfiles q ?_
  rw [filesAt_of_isFile (hxy.isFile_eq ▸ hfile)]
  exact List.mem_singleton_self q

/-! ## The directories that are reached -/

variable {fs : FileSystem} {filter : Option Text}

/-- The directories that are reached from the first one, with their paths and entries: the first one
if it can be listed, and each directory, not a link to one, that is held by one of these and can be
listed under its path. -/
inductive Reached (fs : FileSystem) (dir : Path) : Path → Entries → Prop
  | start {es : Entries} (h : fs.entries dir = .ok es) : Reached fs dir dir es
  | down {d : Path} {es : Entries} {name : Name} {access : Access} {es' : Entries}
      (hd : Reached fs dir d es) (hfind : es.find? name = some (.directory access es'))
      (h : fs.entries (d.join ⟨name⟩) = .ok es') : Reached fs dir (d.join ⟨name⟩) es'

/-- A directory that is reached is found under its path, and it can be listed. -/
theorem Reached.entries (h : Reached fs dir d es) : fs.entries d = .ok es := by
  cases h with
  | start h => exact h
  | down _ _ h => exact h

/-- A directory that a directory holds can be listed under its path if the outer one may be
searched, the inner one may be read and the path is not too long. -/
theorem entries_join_iff {access' : Access} {es' : Entries} (hroot : fs.root.Proper)
    (hd : fs.node? d = some (.directory access es))
    (hfind : es.find? name = some (.directory access' es')) :
    fs.entries (d.join ⟨name⟩) = .ok es' ↔
      access.searchable = true ∧ access'.readable = true ∧
        (d.join ⟨name⟩).bytes.length ≤ pathLimit := by
  have hname := isEntryName_of_find? hroot hd hfind
  rw [entries_eq_ok_iff]
  simp only [node?_join_eq_some_iff hd hname hfind rfl]
  constructor
  · rintro ⟨_, ⟨hsearch, hshort, heq⟩, hread⟩
    cases heq
    exact ⟨hsearch, hread, hshort⟩
  · rintro ⟨hsearch, hread, hshort⟩
    exact ⟨access', ⟨hsearch, hshort, rfl⟩, hread⟩

/-- The files of a directory that is reached are files of the tree. -/
theorem Reached.filesBelow_subset (hroot : fs.root.Proper)
    (hn : fs.node? dir = some n) (h : Reached fs dir d es) :
    ∃ access, fs.node? d = some (.directory access es) ∧
      ∀ q ∈ filesBelow access.searchable d es, q ∈ filesAt true dir n := by
  induction h with
  | start h =>
    obtain ⟨access, hdir, hread⟩ := entries_eq_ok_iff.mp h
    rw [hdir, Option.some.injEq] at hn
    refine ⟨access, hdir, fun q hq => ?_⟩
    rwa [← hn, filesAt_directory, if_pos ⟨rfl, hread, length_le_of_node? hdir⟩]
  | @down d es name access' es' hd hfind h ih =>
    obtain ⟨access, hnode, hfiles⟩ := ih
    obtain ⟨hsearch, hread, hshort⟩ := (entries_join_iff hroot hnode hfind).mp h
    have hname := isEntryName_of_find? hroot hnode hfind
    refine ⟨access', (node?_join_eq_some_iff hnode hname hfind rfl).mpr ⟨hsearch, hshort, rfl⟩,
      fun q hq => hfiles q (mem_filesBelow.mpr ⟨name, _, Entries.mem_toList_of_find? hfind, ?_⟩)⟩
    rwa [filesAt_directory, if_pos ⟨hsearch, hread, hshort⟩]

/-- **The files of a tree** are the regular files of the directories that are reached. -/
theorem mem_filesAt_iff (hroot : fs.root.Proper)
    (hdir : fs.node? dir = some (.directory access es)) :
    q ∈ filesAt true dir (.directory access es) ↔ ∃ d es name node, Reached fs dir d es ∧
      es.find? name = some node ∧ node.isFile = true ∧ q = d.join ⟨name⟩ := by
  constructor
  · intro hq
    -- the walk is at the first directory, or at an entry of one that is reached
    let Visited (s : Bool) (p : Path) (m : Node) : Prop :=
      s = true ∧ p = dir ∧ m = .directory access es ∨
        ∃ d access es name, Reached fs dir d es ∧ fs.node? d = some (.directory access es) ∧
          es.find? name = some m ∧ s = access.searchable ∧ p = d.join ⟨name⟩
    have hreached : ∀ {p access es name node}, Reached fs dir p es →
        fs.node? p = some (.directory access es) → (name, node) ∈ es.toList →
        Visited access.searchable (p.join ⟨name⟩) node := fun hp hnode hmem =>
      .inr ⟨_, _, _, _, hp, hnode,
        Entries.find?_of_mem_toList (node?_proper hroot hnode).1 hmem, rfl, rfl⟩
    have hstep : HandedOn Visited := by
      intro s p access' es' name node hvisited hsearch hread hshort hmem
      obtain ⟨-, rfl, heq⟩ | ⟨d, access, es, outer, hd, hnode, hfind, rfl, rfl⟩ := hvisited
      · cases heq
        exact hreached (.start (entries_eq_ok_iff.mpr ⟨_, hdir, hread⟩)) hdir hmem
      · have hentries := (entries_join_iff hroot hnode hfind).mpr ⟨hsearch, hread, hshort⟩
        have hname := isEntryName_of_find? hroot hnode hfind
        exact hreached (.down hd hfind hentries)
          ((node?_join_eq_some_iff hnode hname hfind rfl).mpr ⟨hsearch, hshort, rfl⟩) hmem
    obtain ⟨s, m, ⟨-, -, rfl⟩ | ⟨d, _, es', name, hd, -, hfind, -, rfl⟩, hfile⟩ :=
      visited_of_mem_filesAt hstep (.inl ⟨rfl, rfl, rfl⟩) hq
    · exact nomatch hfile
    · exact ⟨d, es', name, m, hd, hfind, hfile, rfl⟩
  · rintro ⟨d, es', name, node, hd, hfind, hfile, rfl⟩
    obtain ⟨access', -, hfiles⟩ := hd.filesBelow_subset hroot hdir
    refine hfiles _ (mem_filesBelow.mpr ⟨name, node, Entries.mem_toList_of_find? hfind, ?_⟩)
    rw [filesAt_of_isFile hfile]
    exact List.mem_singleton_self _

/-! ## The union -/

/-- A file of a directory alone. -/
theorem mem_discoverDirectory_iff (h : fs.entries d = .ok es) :
    (∃ files, discoverDirectory fs d filter = .ok files ∧ q ∈ files) ↔
      (∃ name ∈ es.names, q = d.join ⟨name⟩) ∧ fs.isFile q = true ∧ eligible filter q = true := by
  rw [discoverDirectory_of_entries h]
  constructor
  · rintro ⟨files, hfiles, hq⟩
    obtain ⟨-, rfl⟩ := sortedOrNone_eq_ok_iff.mp hfiles
    obtain ⟨hmem, hboth⟩ := List.mem_filter.mp (Path.mem_sort.mp hq)
    obtain ⟨name, hname, rfl⟩ := List.mem_map.mp hmem
    exact ⟨⟨name, hname, rfl⟩, by simpa using hboth⟩
  · rintro ⟨⟨name, hname, rfl⟩, hboth⟩
    have hmem : d.join ⟨name⟩ ∈ (es.names.map fun name => d.join ⟨name⟩).filter fun p =>
        fs.isFile p && eligible filter p :=
      List.mem_filter.mpr ⟨List.mem_map.mpr ⟨name, hname, rfl⟩, by simpa using hboth⟩
    exact ⟨_, sortedOrNone_eq_ok_iff.mpr ⟨List.ne_nil_of_mem hmem, rfl⟩, Path.mem_sort.mpr hmem⟩

/-- An entry, not itself a link, of a directory that is reached, if it is selected in its directory
alone; or an eligible regular file of such a directory whose own path cannot be looked up. -/
def Selected (fs : FileSystem) (dir : Path) (filter : Option Text) (p : Path) : Prop :=
  ∃ d es name node, Reached fs dir d es ∧ es.find? name = some node ∧ node.isLink = false ∧
    p = d.join ⟨name⟩ ∧
    ((∃ files, discoverDirectory fs d filter = .ok files ∧ p ∈ files) ∨
      node.isFile = true ∧ eligible filter p = true ∧ fs.node? p = none)

/-- **One directory.** Of the entries that are no links, the eligible regular files are selected in
their directory alone, as far as their paths can be looked up. -/
theorem Reached.selects_iff (hroot : fs.root.Proper) (h : Reached fs dir d es)
    (hfind : es.find? name = some node) (hlink : node.isLink = false) :
    ((∃ files, discoverDirectory fs d filter = .ok files ∧ d.join ⟨name⟩ ∈ files) ∨
      node.isFile = true ∧ eligible filter (d.join ⟨name⟩) = true ∧
        fs.node? (d.join ⟨name⟩) = none) ↔
      node.isFile = true ∧ eligible filter (d.join ⟨name⟩) = true := by
  obtain ⟨access, hd, -⟩ := entries_eq_ok_iff.mp h.entries
  have hname := isEntryName_of_find? hroot hd hfind
  rw [mem_discoverDirectory_iff h.entries]
  constructor
  · rintro (⟨-, hfile, heligible⟩ | ⟨hfile, heligible, -⟩)
    · exact ⟨((isFile_join_iff hd hname hfind hlink).mp hfile).1, heligible⟩
    · exact ⟨hfile, heligible⟩
  · rintro ⟨hfile, heligible⟩
    cases hnode : fs.node? (d.join ⟨name⟩) with
    | none => exact .inr ⟨hfile, heligible, rfl⟩
    | some m =>
      obtain ⟨hsearch, hshort, -⟩ := (node?_join_eq_some_iff hd hname hfind hlink).mp hnode
      refine .inl ⟨⟨name, Entries.mem_names_of_find? hfind, rfl⟩, ?_, heligible⟩
      exact (isFile_join_iff hd hname hfind hlink).mpr ⟨hfile, hsearch, hshort⟩

theorem selected_iff (hroot : fs.root.Proper) (hdir : fs.node? dir = some (.directory access es)) :
    Selected fs dir filter p ↔
      p ∈ (filesAt true dir (.directory access es)).filter (eligible filter) := by
  rw [List.mem_filter, mem_filesAt_iff hroot hdir]
  constructor
  · rintro ⟨d, es, name, node, hd, hfind, hlink, rfl, hselected⟩
    obtain ⟨hfile, heligible⟩ := (hd.selects_iff hroot hfind hlink).mp hselected
    exact ⟨⟨d, es, name, node, hd, hfind, hfile, rfl⟩, heligible⟩
  · rintro ⟨⟨d, es, name, node, hd, hfind, hfile, rfl⟩, heligible⟩
    have hlink : node.isLink = false := by
      cases node <;> first | rfl | exact nomatch hfile
    exact ⟨d, es, name, node, hd, hfind, hlink, rfl,
      (hd.selects_iff hroot hfind hlink).mpr ⟨hfile, heligible⟩⟩

/-- The first directory is there if any is reached. -/
theorem Reached.isDirectory (h : Reached fs dir d es) : fs.isDirectory dir = true := by
  induction h with
  | start h =>
    obtain ⟨access, hdir, -⟩ := entries_eq_ok_iff.mp h
    exact isDirectory_iff.mpr ⟨access, _, hdir⟩
  | down _ _ _ ih => exact ih

theorem discoverTree_of_not_directory (hdir : fs.isDirectory dir = false) :
    discoverTree fs dir filter = .error (.directoryNotFound dir) := by
  unfold discoverTree
  split
  · next access es hes =>
    rw [isDirectory_iff.mpr ⟨access, es, hes⟩] at hdir
    exact nomatch hdir
  · rfl

/-- The files of a tree are sorted into an increasing list. -/
theorem sort_files_increasing (hn : n.Proper) (filter : Option Text) :
    Path.Increasing (Path.sort ((filesAt searchable p n).filter (eligible filter))) :=
  Path.sort_increasing ((filesAt_nodup hn searchable p).filter _) fun _ hq _ hq' heq =>
    eq_of_components_eq hn (List.mem_of_mem_filter hq) (List.mem_of_mem_filter hq') heq

/-- **The files that are found in a tree** are those that are selected. -/
theorem discoverTree_finds (hroot : fs.root.Proper) (dir : Path) (filter : Option Text) :
    Finds dir (missing? fs dir) (Selected fs dir filter) (discoverTree fs dir filter) where
  started := by
    rintro p ⟨d, es, name, node, hd, -⟩
    exact missing?_eq_none_iff.mpr hd.isDirectory
  failed e he := by
    obtain ⟨hdir, rfl⟩ := missing?_eq_some_iff.mp he
    exact discoverTree_of_not_directory hdir
  sorted hthere := by
    obtain ⟨access, es, hdir⟩ := isDirectory_iff.mp (missing?_eq_none_iff.mp hthere)
    refine ⟨Path.sort ((filesAt true dir (.directory access es)).filter (eligible filter)),
      sort_files_increasing (node?_proper hroot hdir) filter, fun p => ?_, ?_⟩
    · rw [Path.mem_sort, selected_iff hroot hdir]
    · rw [discoverTree, hdir]
      exact sortedOrNone_eq ..

/-! ## The order in which directories are enumerated -/

theorem isDirectory_of_agrees {fs' : FileSystem} (hroot : fs.root.Agrees fs'.root)
    (hplace : fs'.workingDirectory = fs.workingDirectory) (h : fs.isDirectory dir = true) :
    fs'.isDirectory dir = true := by
  obtain ⟨access, es, hes⟩ := isDirectory_iff.mp h
  obtain ⟨n', hn', hn⟩ := node?_agrees hroot hplace hes
  obtain ⟨es', rfl⟩ := hn.directory
  exact isDirectory_iff.mpr ⟨access, es', hn'⟩

theorem isDirectory_agrees {fs' : FileSystem} (hroot : fs.root.Agrees fs'.root)
    (hplace : fs'.workingDirectory = fs.workingDirectory) :
    fs.isDirectory dir = fs'.isDirectory dir := by
  rw [Bool.eq_iff_iff]
  exact ⟨isDirectory_of_agrees hroot hplace, isDirectory_of_agrees hroot.symm hplace.symm⟩

/-- What is selected does not depend on the order in which directories are enumerated. -/
theorem Selected.agrees {fs' : FileSystem} (hroot : fs.root.Proper) (hroot' : fs'.root.Proper)
    (hagrees : fs.root.Agrees fs'.root) (hplace : fs'.workingDirectory = fs.workingDirectory)
    (h : Selected fs dir filter p) : Selected fs' dir filter p := by
  obtain ⟨d, es, name, node, hd, -⟩ := id h
  obtain ⟨access, es, hes⟩ := isDirectory_iff.mp hd.isDirectory
  obtain ⟨n', hes', hn⟩ := node?_agrees hagrees hplace hes
  obtain ⟨es', rfl⟩ := hn.directory
  rw [selected_iff hroot hes, List.mem_filter] at h
  rw [selected_iff hroot' hes', List.mem_filter]
  exact ⟨mem_filesAt_of_agrees (node?_proper hroot hes) hn h.1, h.2⟩

/-- **Enumeration.** What is found in a tree does not depend on the order in which its directories
are enumerated. -/
theorem discoverTree_agrees {fs' : FileSystem} (hroot : fs.root.Proper) (hroot' : fs'.root.Proper)
    (hagrees : fs.root.Agrees fs'.root) (hplace : fs'.workingDirectory = fs.workingDirectory) :
    discoverTree fs' dir filter = discoverTree fs dir filter := by
  have hmissing : missing? fs' dir = missing? fs dir := by
    rw [missing?, missing?, isDirectory_agrees hagrees hplace]
  exact (discoverTree_finds hroot' dir filter).unique (discoverTree_finds hroot dir filter)
    hmissing fun _ =>
      ⟨Selected.agrees hroot' hroot hagrees.symm hplace.symm,
        Selected.agrees hroot hroot' hagrees hplace⟩

/-- **A tree is the union of its directories.** The files that are found in a tree are the entries,
not themselves links, that the directories which are reached select alone, and the eligible regular
files whose own paths cannot be looked up; each is found once, in increasing order of its
components.  A directory without any, or one that cannot be listed, is an error, and so is anything
else.  The order in which directories are enumerated does not matter. -/
theorem discoverTree_union (hroot : fs.root.Proper) :
    (∀ found, discoverTree fs dir filter = .ok found →
      found.Nodup ∧ Path.Increasing found ∧ ∀ p, p ∈ found ↔ Selected fs dir filter p) ∧
    ((∃ found, discoverTree fs dir filter = .ok found) ↔ ∃ p, Selected fs dir filter p) ∧
    (discoverTree fs dir filter = .error (.noSourceFiles dir) ↔
      fs.isDirectory dir = true ∧ ¬∃ p, Selected fs dir filter p) ∧
    (discoverTree fs dir filter = .error (.directoryNotFound dir) ↔ fs.isDirectory dir = false) ∧
    ∀ fs' : FileSystem, fs'.root.Proper → fs.root.Agrees fs'.root →
      fs'.workingDirectory = fs.workingDirectory →
      discoverTree fs' dir filter = discoverTree fs dir filter := by
  have hfinds := discoverTree_finds hroot dir filter
  refine ⟨?_, hfinds.exists_ok_iff, ?_, ?_, ?_⟩
  · intro found hfound
    obtain ⟨-, hincreasing, hmem⟩ := hfinds.eq_ok_iff.mp hfound
    exact ⟨hincreasing.nodup, hincreasing, hmem⟩
  · rw [hfinds.eq_error_iff, missing?_eq_some_iff, missing?_eq_none_iff]
    simp
  · rw [hfinds.eq_error_iff, missing?_eq_some_iff]
    simp
  · intro fs' hroot' hagrees hplace
    exact discoverTree_agrees hroot hroot' hagrees hplace

/-- In a tree with a link to a file, a link to the directory above, a pipe, a directory that may not
be searched and one that may not be read, the files of the directories that can be listed are found
whichever way the first one is enumerated. -/
theorem discoverTree_union_two_orders :
    let file : Node := .file .empty false
    let name (t : String) : Name := Utf8.encode t.toList
    let inner : Entries := .cons (name "z.cl") file (.cons (name "up") (.link ⟨Name.parent⟩) .nil)
    let rest : Entries := .cons (name "l.cl") (.link ⟨name "a-b.cl"⟩) (.cons (name "p.cl") .fifo
      (.cons (name "u") (.directory ⟨true, false⟩ (.cons (name "y.cl") file .nil))
        (.cons (name "w") (.directory ⟨false, true⟩ (.cons (name "v.cl") file .nil)) .nil)))
    let es : Entries := .cons (name "a-b.cl") file (.cons (name "a") (.directory .full inner) rest)
    let es' : Entries := .cons (name "a") (.directory .full inner) (.cons (name "a-b.cl") file rest)
    let fs : FileSystem := ⟨.directory .full es, []⟩
    let fs' : FileSystem := ⟨.directory .full es', []⟩
    let found : List Path := [.ofText "./a/z.cl".toList, .ofText "./a-b.cl".toList,
      .ofText "./u/y.cl".toList]
    fs.root.Proper ∧ discoverTree fs ⟨Name.current⟩ none = .ok found ∧
      (Path.Increasing found ∧ ∀ p, p ∈ found ↔ Selected fs ⟨Name.current⟩ none p) ∧
      discoverTree fs' ⟨Name.current⟩ none = .ok found := by
  intro file name inner rest es es' fs fs' found
  have hinner : inner.names.Nodup ∧ inner.Proper :=
    ⟨by decide, by decide, trivial, by decide, trivial, trivial⟩
  have hrest : rest.Proper :=
    ⟨by decide, trivial, by decide, trivial, by decide, ⟨by decide, by decide, trivial, trivial⟩,
      by decide, ⟨by decide, by decide, trivial, trivial⟩, trivial⟩
  have hproper : fs.root.Proper :=
    ⟨by decide, by decide, trivial, by decide, hinner, hrest⟩
  have hproper' : fs'.root.Proper :=
    ⟨by decide, by decide, hinner, by decide, trivial, hrest⟩
  have hn : fs'.node? ⟨Name.current⟩ = some fs'.root := node?_current (k := 0) (by decide) rfl rfl
  have hfound' : discoverTree fs' ⟨Name.current⟩ none = .ok found := by
    rw [discoverTree, hn]
    refine sortedOrNone_eq_ok_iff.mpr ⟨by decide, ?_⟩
    have hsorted : found.Pairwise fun p q => (p.order q).isLE := by decide
    exact (List.mergeSort_of_pairwise hsorted).symm
  have hagrees : fs'.root.Agrees fs.root := Node.agrees_of_perm hproper'.1 (.swap _ _ _)
  have hfound : discoverTree fs ⟨Name.current⟩ none = .ok found := by
    rw [(discoverTree_union hproper').2.2.2.2 fs hproper hagrees rfl, hfound']
  exact ⟨hproper, hfound, ((discoverTree_union hproper).1 found hfound).2, hfound'⟩

/-- A file whose own path is too long is found in the tree, although no real directory of the tree
selects it alone. -/
theorem discoverTree_beyond_directories :
    let name : Name := Utf8.encode ['x', '.', 'c', 'l']
    let fs : FileSystem := ⟨.directory .full (.cons name (.file .empty false) .nil), []⟩
    let dir : Path := currentPath 4094
    fs.root.Proper ∧ fs.node? dir = some fs.root ∧
      discoverTree fs dir none = .ok [dir.join ⟨name⟩] ∧
      ∀ names access es, fs.root.at? names = some (.directory access es) →
        ∀ files, discoverDirectory fs (dir.below names) none ≠ .ok files := by
  intro name fs dir
  have hname : name.IsEntryName := by decide
  have hn : fs.node? dir = some fs.root := node?_current (by decide) rfl rfl
  refine ⟨⟨by decide, hname, trivial, trivial⟩, hn, ?_, ?_⟩
  · have heligible : eligible none (dir.join ⟨name⟩) = true := by
      rw [eligible, Path.fileName?_join hname.toPlain dir]
      rfl
    rw [discoverTree, hn]
    change sortedOrNone dir ((filesAt true dir fs.root).filter (eligible none)) = _
    rw [filesAt_directory, if_pos ⟨rfl, rfl, length_le_of_node? hn⟩, filesBelow, filesBelow,
      filesAt, List.append_nil, List.filter_singleton, heligible, cond_true, sortedOrNone_eq_ok_iff]
    exact ⟨List.cons_ne_nil _ _, (List.mergeSort_singleton _).symm⟩
  · intro names access es hat files hfiles
    -- there is no directory but the first one
    obtain rfl : names = [] := by
      cases names with
      | nil => rfl
      | cons first rest =>
        rw [Node.at?_directory_cons, Entries.find?] at hat
        split at hat
        · rw [Option.bind_some] at hat
          cases rest <;> simp [Node.at?] at hat
        · cases hat
    rw [Path.below_nil] at hfiles
    obtain ⟨q, hq⟩ := List.exists_mem_of_ne_nil files (discoverDirectory_ne_nil hfiles)
    have hentries : fs.entries dir = .ok (.cons name (.file .empty false) .nil) :=
      entries_eq_ok_iff.mpr ⟨.full, hn, rfl⟩
    obtain ⟨⟨name', hname', rfl⟩, hfile, -⟩ :=
      (mem_discoverDirectory_iff hentries).mp ⟨files, hfiles, hq⟩
    obtain rfl := List.mem_singleton.mp hname'
    obtain ⟨-, -, hshort⟩ :=
      (isFile_join_iff hn hname (n := .file .empty false) rfl rfl).mp hfile
    have hlong := length_add_le_join hname.toPlain dir
    rw [length_currentPath] at hlong
    exact absurd (Nat.le_trans hlong hshort) (by decide)

end Corpus

end Conformance
