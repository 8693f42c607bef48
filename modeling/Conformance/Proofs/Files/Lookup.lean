import Mathlib.Tactic.SplitIfs
import Conformance.Proofs.Files.Tree

/-!
# Finding what is below a directory

`move` is one step of following a path, and `follow_cons` says that following is one step after
another.  So the steps behind a path are followed from where the path leads (`follow_append`): an
entry that is no link is found under the directory's path and its name exactly if the directory may
be searched and the path is not too long (`node?_join_eq_some_iff`).  In trees that agree a path
leads to the same place (`follow_agrees`).
-/

namespace Conformance.FileSystem

variable {root root' : Node} {links : Nat} {place : List Name}

/-! ## One step -/

/-- One step from a place: the number of links that may still be followed, the place that is
reached, and the steps of a link that come before all others. -/
def move (root : Node) (links : Nat) (place : List Name) (step : Name) :
    Except SystemFault (Nat × List Name × List Name) :=
  match root.at? place with
  | some (.directory access es) =>
    if step = [] then .ok (links, place, [])
    else if !access.searchable then .error .noPermission
    else if step = Name.current then .ok (links, place, [])
    else if step = Name.parent then .ok (links, place.dropLast, [])
    else if nameLimit < step.length then .error .nameTooLong
    else
      match es.find? step with
      | none => .error .noSuchFile
      | some (.link target) =>
        match links with
        | 0 => .error .tooManyLinks
        | links + 1 => .ok (links, if target.isAbsolute then [] else place, steps target)
      | some _ => .ok (links, place ++ [step], [])
  | some _ => .error .notDirectory
  | none => .error .noSuchFile

theorem follow_nil (root : Node) (links : Nat) (place : List Name) :
    follow root true links place [] =
      match root.at? place with
      | some n => .ok (place, n)
      | none => .error .noSuchFile := by
  cases hat : root.at? place <;> simp only [follow, hat]

/-- **One step.** -/
theorem follow_cons (root : Node) (links : Nat) (place : List Name) (step : Name)
    (rest : List Name) :
    follow root true links place (step :: rest) =
      match move root links place step with
      | .ok (links, place, first) => follow root true links place (first ++ rest)
      | .error e => .error e := by
  rw [follow, move]
  cases root.at? place with
  | none => rfl
  | some n =>
    cases n with
    | directory access es =>
      dsimp only
      by_cases hnil : step = []
      · rw [if_pos hnil, if_pos hnil]
        rfl
      · rw [if_neg hnil, if_neg hnil]
        by_cases hdenied : (!access.searchable) = true
        · rw [if_pos hdenied, if_pos hdenied]
        · rw [if_neg hdenied, if_neg hdenied]
          by_cases hcurrent : step = Name.current
          · rw [if_pos hcurrent, if_pos hcurrent]
            rfl
          · rw [if_neg hcurrent, if_neg hcurrent]
            by_cases hparent : step = Name.parent
            · rw [if_pos hparent, if_pos hparent]
              rfl
            · rw [if_neg hparent, if_neg hparent]
              by_cases hlong : nameLimit < step.length
              · rw [if_pos hlong, if_pos hlong]
              · rw [if_neg hlong, if_neg hlong]
                cases es.find? step with
                | none => rfl
                | some x =>
                  cases x with
                  | link target =>
                    dsimp only
                    rw [if_neg (by simp)]
                    cases links <;> rfl
                  | _ => rfl
    | _ => rfl

/-- A step follows a link, or it leaves nothing to be done first. -/
theorem move_cases {step : Name} {links' : Nat} {place' first : List Name}
    (h : move root links place step = .ok (links', place', first)) :
    links' < links ∨ links' = links ∧ first = [] := by
  unfold move at h
  split at h
  · split_ifs at h
    · cases h
      exact .inr ⟨rfl, rfl⟩
    · cases h
      exact .inr ⟨rfl, rfl⟩
    · cases h
      exact .inr ⟨rfl, rfl⟩
    · split at h
      · cases h
      · split at h
        · cases h
        · cases h
          exact .inl (Nat.lt_succ_self _)
      · cases h
        exact .inr ⟨rfl, rfl⟩
  · cases h
  · cases h

/-- Induction along the steps that are made from a place. -/
theorem moveInduction (root : Node) {motive : Nat → List Name → List Name → Prop}
    (nil : ∀ links place, motive links place [])
    (stuck : ∀ links place step rest e, move root links place step = .error e →
      motive links place (step :: rest))
    (cons : ∀ links place step rest links' place' first,
      move root links place step = .ok (links', place', first) →
      motive links' place' (first ++ rest) → motive links place (step :: rest))
    (links : Nat) (place ss : List Name) : motive links place ss := by
  induction links using Nat.strongRecOn generalizing place ss with
  | _ links hlinks =>
    induction ss generalizing place with
    | nil => exact nil links place
    | cons step rest ih =>
      cases hmove : move root links place step with
      | error e => exact stuck links place step rest e hmove
      | ok reached =>
        obtain ⟨links', place', first⟩ := reached
        refine cons links place step rest links' place' first hmove ?_
        obtain hlt | ⟨rfl, rfl⟩ := move_cases hmove
        · exact hlinks links' hlt place' (first ++ rest)
        · exact ih place'

/-! ## Step after step -/

/-- The node that a path leads to is the one at its place. -/
theorem at?_of_follow {ss pl : List Name} {n : Node}
    (h : follow root true links place ss = .ok (pl, n)) : root.at? pl = some n := by
  induction links, place, ss using moveInduction root with
  | nil links place =>
    rw [follow_nil] at h
    split at h
    · next hat =>
      cases h
      exact hat
    · cases h
  | stuck links place step rest e hmove =>
    rw [follow_cons, hmove] at h
    cases h
  | cons links place step rest links' place' first hmove ih =>
    rw [follow_cons, hmove] at h
    exact ih h

/-- **More steps** are followed from where the steps before them lead. -/
theorem follow_append {ss pl : List Name} {n : Node}
    (h : follow root true links place ss = .ok (pl, n)) :
    ∃ links', ∀ more, follow root true links place (ss ++ more) = follow root true links' pl more := by
  induction links, place, ss using moveInduction root with
  | nil links place =>
    rw [follow_nil] at h
    split at h
    · cases h
      exact ⟨links, fun _ => rfl⟩
    · cases h
  | stuck links place step rest e hmove =>
    rw [follow_cons, hmove] at h
    cases h
  | cons links place step rest links' place' first hmove ih =>
    rw [follow_cons, hmove] at h
    obtain ⟨links'', hmore⟩ := ih h
    refine ⟨links'', fun more => ?_⟩
    rw [List.cons_append, follow_cons, hmove]
    simpa only [List.append_assoc] using hmore more

/-- Nothing is found behind steps that fail. -/
theorem follow_append_error {ss : List Name} {e : SystemFault}
    (h : follow root true links place ss = .error e) (more : List Name) :
    follow root true links place (ss ++ more) = .error e := by
  induction links, place, ss using moveInduction root with
  | nil links place =>
    rw [follow_nil] at h
    split at h
    · cases h
    · next hat =>
      cases more with
      | nil => rwa [List.append_nil, follow_nil, hat]
      | cons step rest => rwa [List.nil_append, follow_cons, move, hat]
  | stuck links place step rest e' hmove =>
    rw [follow_cons, hmove] at h
    rwa [List.cons_append, follow_cons, hmove]
  | cons links place step rest links' place' first hmove ih =>
    rw [follow_cons, hmove] at h
    rw [List.cons_append, follow_cons, hmove]
    simpa only [List.append_assoc] using ih h

/-- The empty step that stands for a separator at the end of a path changes nothing for a
directory. -/
theorem follow_of_concat_nil {ss pl : List Name} {n : Node}
    (h : follow root true links place (ss ++ [[]]) = .ok (pl, n)) :
    follow root true links place ss = .ok (pl, n) := by
  cases hss : follow root true links place ss with
  | error e =>
    rw [follow_append_error hss] at h
    cases h
  | ok reached =>
    obtain ⟨pl', n'⟩ := reached
    obtain ⟨links', hmore⟩ := follow_append hss
    have hat := at?_of_follow hss
    rw [hmore, follow_cons, move, hat] at h
    cases n' with
    | directory access es =>
      rw [← h]
      simp only [if_pos, List.append_nil, follow_nil, hat]
    | _ => cases h

/-- A name that a directory holds is one step from it, if the directory may be searched. -/
theorem follow_name {ss pl : List Name} {access : Access} {es : Entries} {name : Name}
    {node : Node} (h : follow root true links place ss = .ok (pl, .directory access es))
    (hname : name.IsEntryName) (hfind : es.find? name = some node) (hlink : node.isLink = false) :
    follow root true links place (ss ++ [name]) =
      if access.searchable then .ok (pl ++ [name], node) else .error .noPermission := by
  obtain ⟨links', hmore⟩ := follow_append h
  rw [hmore, follow_cons, move, at?_of_follow h]
  dsimp only
  rw [if_neg hname.ne_nil]
  cases hsearch : access.searchable with
  | false => rfl
  | true =>
    have hat : root.at? (pl ++ [name]) = some node :=
      Node.at?_concat_eq_some_iff.mpr ⟨access, es, at?_of_follow h, hfind⟩
    rw [if_neg (by simp), if_neg hname.ne_current, if_neg hname.ne_parent,
      if_neg (Nat.not_lt.mpr hname.short), hfind]
    cases node with
    | link target => cases hlink
    | _ => simp only [List.append_nil, follow_nil, hat, if_pos]

/-! ## Paths below a directory -/

variable {fs : FileSystem} {dir : Path} {n : Node} {access : Access} {es : Entries} {name : Name}

/-- A path with a name behind it is longer by the name, if not more. -/
theorem length_add_le_join (hname : name.Plain) (dir : Path) :
    dir.bytes.length + name.length ≤ (dir.join ⟨name⟩).bytes.length := by
  rw [Path.join_eq (Path.isAbsolute_of_no_separator hname.no_separator), List.length_append,
    Nat.add_le_add_iff_right]
  obtain ⟨hdir, -⟩ | ⟨t, hfront, hdir⟩ := dir.front_cases
  · rw [hdir]
    exact Nat.zero_le _
  · rw [hfront, List.length_append]
    obtain ⟨-, hdir⟩ | hdir := hdir
    · rw [hdir]
      exact Nat.le_add_right _ _
    · exact Nat.le_of_eq (by rw [hdir, List.length_append])

/-- A name joined to a directory is one more step, which takes the place of the empty one that
stands for a separator at the end of the directory's path. -/
theorem steps_join (hname : name.Plain) (dir : Path) :
    ∃ ss, (steps dir = ss ∨ steps dir = ss ++ [[]]) ∧ steps (dir.join ⟨name⟩) = ss ++ [name] := by
  have hcut := Text.splitAt_of_not_mem hname.no_separator
  rw [Path.join_eq (Path.isAbsolute_of_no_separator hname.no_separator)]
  obtain ⟨hdir, hfront⟩ | ⟨t, hfront, hdir⟩ := dir.front_cases
  · refine ⟨[], .inl (by simp [steps, hdir, Text.splitAt]), ?_⟩
    simp [steps, hfront, hcut, hname.ne_nil]
  · refine ⟨(Text.splitAt Path.separator t).filter (· ≠ []), ?_, ?_⟩
    · obtain ⟨-, hdir⟩ | hdir := hdir
      · unfold steps
        rw [hdir]
        dsimp only
        split
        · exact .inr rfl
        · exact .inl (List.append_nil _)
      · have hlong : 0 < (Text.splitAt Path.separator t).length :=
          List.length_pos_iff.mpr (Text.splitAt_ne_nil Path.separator t)
        right
        rw [steps, hdir, Text.splitAt_append_cons]
        simp [Text.splitAt, hlong]
    · rw [steps, hfront, List.append_assoc, List.singleton_append, Text.splitAt_append_cons, hcut]
      simp [hname.ne_nil]

theorem isAbsolute_join (hname : name.Plain) (hdir : dir.bytes ≠ []) :
    (dir.join ⟨name⟩).isAbsolute = dir.isAbsolute := by
  rw [Path.join_eq (Path.isAbsolute_of_no_separator hname.no_separator)]
  obtain ⟨c, r, hcons⟩ := List.exists_cons_of_ne_nil hdir
  rw [Path.isAbsolute, Path.isAbsolute, Path.front, hcons]
  split <;> rfl

/-- A path that leads somewhere is not empty, and it is short enough. -/
theorem resolve_eq_ok_iff {reached : List Name × Node} :
    fs.resolve dir true = .ok reached ↔
      dir.bytes ≠ [] ∧ dir.bytes.length ≤ pathLimit ∧
        follow fs.root true linkLimit (if dir.isAbsolute then [] else fs.workingDirectory)
          (steps dir) = .ok reached := by
  unfold resolve
  by_cases hnil : dir.bytes = []
  · simp [hnil]
  · rw [if_neg (by simpa using hnil)]
    by_cases hlong : pathLimit < dir.bytes.length
    · simp [hlong, Nat.not_le.mpr hlong]
    · simp [hnil, hlong, Nat.le_of_not_lt hlong]

/-- **An entry that is no link** is found under the directory's path and its name, if the directory
may be searched and that path is not too long. -/
theorem resolve_join_eq_ok_iff {pl : List Name} {reached : List Name × Node}
    (h : fs.resolve dir true = .ok (pl, .directory access es)) (hname : name.IsEntryName)
    (hfind : es.find? name = some n) (hlink : n.isLink = false) :
    fs.resolve (dir.join ⟨name⟩) true = .ok reached ↔
      access.searchable = true ∧ (dir.join ⟨name⟩).bytes.length ≤ pathLimit ∧
        reached = (pl ++ [name], n) := by
  obtain ⟨hne, -, hfollow⟩ := resolve_eq_ok_iff.mp h
  obtain ⟨ss, hdir, hjoin⟩ := steps_join hname.toPlain dir
  have hss : follow fs.root true linkLimit (if dir.isAbsolute then [] else fs.workingDirectory) ss =
      .ok (pl, .directory access es) := by
    obtain hdir | hdir := hdir
    · rwa [← hdir]
    · rw [hdir] at hfollow
      exact follow_of_concat_nil hfollow
  have hjoined : (dir.join ⟨name⟩).bytes ≠ [] := by
    rw [Path.join_eq (Path.isAbsolute_of_no_separator hname.no_separator)]
    simp [hname.ne_nil]
  rw [resolve_eq_ok_iff, and_iff_right hjoined, isAbsolute_join hname.toPlain hne, hjoin,
    follow_name hss hname hfind hlink]
  cases access.searchable <;> simp [eq_comm]

theorem node?_eq_some_iff : fs.node? dir = some n ↔ ∃ pl, fs.resolve dir true = .ok (pl, n) := by
  unfold node?
  cases h : fs.resolve dir true with
  | error e => simp
  | ok reached =>
    obtain ⟨pl, n'⟩ := reached
    simp

theorem node?_join_eq_some_iff {m : Node} (h : fs.node? dir = some (.directory access es))
    (hname : name.IsEntryName) (hfind : es.find? name = some n) (hlink : n.isLink = false) :
    fs.node? (dir.join ⟨name⟩) = some m ↔
      access.searchable = true ∧ (dir.join ⟨name⟩).bytes.length ≤ pathLimit ∧ m = n := by
  obtain ⟨pl, hpl⟩ := node?_eq_some_iff.mp h
  rw [node?_eq_some_iff]
  simp only [resolve_join_eq_ok_iff hpl hname hfind hlink, Prod.mk.injEq, exists_and_left,
    exists_eq_left]

/-- An entry that is no link is a file under its path if it is one itself, the directory may be
searched and the path is not too long. -/
theorem isFile_join_iff (h : fs.node? dir = some (.directory access es))
    (hname : name.IsEntryName) (hfind : es.find? name = some n) (hlink : n.isLink = false) :
    fs.isFile (dir.join ⟨name⟩) = true ↔
      n.isFile = true ∧ access.searchable = true ∧
        (dir.join ⟨name⟩).bytes.length ≤ pathLimit := by
  rw [isFile, Option.any_eq_true]
  simp only [node?_join_eq_some_iff h hname hfind hlink]
  constructor
  · rintro ⟨_, ⟨hsearch, hshort, rfl⟩, hfile⟩
    exact ⟨hfile, hsearch, hshort⟩
  · rintro ⟨hfile, hsearch, hshort⟩
    exact ⟨n, ⟨hsearch, hshort, rfl⟩, hfile⟩

/-- The entries of a directory that can be listed. -/
theorem entries_eq_ok_iff :
    fs.entries dir = .ok es ↔ ∃ access, fs.node? dir = some (.directory access es) ∧
      access.readable = true := by
  unfold entries node?
  cases fs.resolve dir true with
  | error e => simp
  | ok reached =>
    obtain ⟨pl, n⟩ := reached
    cases n with
    | directory access es' =>
      dsimp only
      constructor
      · intro h
        split_ifs at h with hread
        cases h
        exact ⟨access, rfl, hread⟩
      · rintro ⟨_, h, hread⟩
        cases h
        rw [if_pos hread]
    | _ => simp

/-- A directory that is there and cannot be listed may not be read. -/
theorem entries_of_directory (h : fs.node? dir = some (.directory access es)) :
    fs.entries dir = if access.readable then .ok es else .error .noPermission := by
  obtain ⟨pl, hpl⟩ := node?_eq_some_iff.mp h
  rw [entries, hpl]

/-- Nothing is found under a path that is too long. -/
theorem length_le_of_node? (h : fs.node? dir = some n) : dir.bytes.length ≤ pathLimit := by
  obtain ⟨pl, hpl⟩ := node?_eq_some_iff.mp h
  exact (resolve_eq_ok_iff.mp hpl).2.1

/-- What a path leads to in a proper tree is proper. -/
theorem node?_proper (hroot : fs.root.Proper) (hn : fs.node? dir = some n) : n.Proper := by
  obtain ⟨pl, hpl⟩ := node?_eq_some_iff.mp hn
  exact (hroot.at? (at?_of_follow (resolve_eq_ok_iff.mp hpl).2.2)).1

/-- The entries of a directory that a path leads to are called as entries are. -/
theorem isEntryName_of_find? (hroot : fs.root.Proper)
    (hdir : fs.node? dir = some (.directory access es)) (hfind : es.find? name = some n) :
    name.IsEntryName :=
  ((node?_proper hroot hdir).2.of_mem (Entries.mem_toList_of_find? hfind)).1

/-- Dots stay in a directory that may be searched, and so do separators. -/
theorem follow_dots {ss : List Name} (hat : root.at? place = some (.directory access es))
    (hsearch : access.searchable = true) (hss : ∀ step ∈ ss, step = [] ∨ step = Name.current) :
    follow root true links place ss = .ok (place, .directory access es) := by
  induction ss with
  | nil => rw [follow_nil, hat]
  | cons step rest ih =>
    obtain ⟨hstep, hrest⟩ := List.forall_mem_cons.mp hss
    have hmove : move root links place step = .ok (links, place, []) := by
      rw [move, hat]
      obtain rfl | rfl := hstep
      · rfl
      · simp [hsearch]
    rw [follow_cons, hmove]
    exact ih hrest

/-- A dot with separators behind it. -/
def currentPath (k : Nat) : Path := ⟨Name.current ++ List.replicate k Path.separator⟩

theorem length_currentPath (k : Nat) : (currentPath k).bytes.length = k + 1 := by
  rw [currentPath, List.length_append, List.length_replicate, Nat.add_comm]
  rfl

theorem splitAt_current (k : Nat) :
    Text.splitAt Path.separator (currentPath k).bytes = Name.current :: List.replicate k [] := by
  induction k with
  | zero => rfl
  | succ k ih =>
    rw [currentPath, List.replicate_succ', ← List.append_assoc, Text.splitAt_append_cons]
    rw [currentPath] at ih
    rw [ih, List.replicate_succ']
    rfl

/-- A dot with separators behind it is the working directory, unless there are too many. -/
theorem node?_current {k : Nat} (hk : k < pathLimit)
    (hat : fs.root.at? fs.workingDirectory = some (.directory access es))
    (hsearch : access.searchable = true) :
    fs.node? (currentPath k) = some (.directory access es) := by
  have hsteps : ∀ step ∈ steps (currentPath k), step = [] ∨ step = Name.current := by
    intro step hstep
    rw [steps, splitAt_current, List.mem_append, List.mem_filter, List.mem_cons,
      List.mem_replicate] at hstep
    obtain ⟨hcurrent | ⟨-, rfl⟩, -⟩ | hlast := hstep
    · exact .inr hcurrent
    · exact .inl rfl
    · split at hlast
      · exact .inl (List.mem_singleton.mp hlast)
      · exact absurd hlast List.not_mem_nil
  refine node?_eq_some_iff.mpr ⟨_, resolve_eq_ok_iff.mpr ⟨List.cons_ne_nil _ _, ?_,
    follow_dots hat hsearch hsteps⟩⟩
  rw [length_currentPath]
  exact hk

/-! ## Trees that agree -/

theorem move_agrees (h : root.Agrees root') (links : Nat) (place : List Name) (step : Name) :
    move root links place step = move root' links place step := by
  unfold move
  cases hat : root.at? place with
  | none =>
    cases hat' : root'.at? place with
    | none => rfl
    | some n' =>
      obtain ⟨n, hn, -⟩ := h.symm.at? hat'
      rw [hat] at hn
      cases hn
  | some n =>
    obtain ⟨n', hat', hn⟩ := h.at? hat
    rw [hat']
    obtain rfl | ⟨access, es, es', rfl, rfl⟩ := Node.eq_or_directory_of_label_eq hn.label_eq
    · rfl
    · dsimp only
      have hlabel := hn.find?_label step
      cases hfind : es.find? step with
      | none =>
        rw [hfind, Option.map_none, eq_comm, Option.map_eq_none_iff] at hlabel
        rw [hlabel]
      | some x =>
        rw [hfind, Option.map_some] at hlabel
        obtain ⟨y, hy, hxy⟩ := Option.map_eq_some_iff.mp hlabel.symm
        rw [hy]
        obtain rfl | ⟨_, _, _, rfl, rfl⟩ := Node.eq_or_directory_of_label_eq hxy <;> rfl

/-- Paths lead to nodes that agree. -/
theorem follow_agrees (h : root.Agrees root') {ss pl : List Name} {n : Node}
    (hn : follow root true links place ss = .ok (pl, n)) :
    ∃ n', follow root' true links place ss = .ok (pl, n') ∧ n.Agrees n' := by
  induction links, place, ss using moveInduction root with
  | nil links place =>
    rw [follow_nil] at hn
    split at hn
    · next hat =>
      cases hn
      obtain ⟨n', hat', hagrees⟩ := h.at? hat
      exact ⟨n', by rw [follow_nil, hat'], hagrees⟩
    · cases hn
  | stuck links place step rest e hmove =>
    rw [follow_cons, hmove] at hn
    cases hn
  | cons links place step rest links' place' first hmove ih =>
    rw [follow_cons, hmove] at hn
    obtain ⟨n', hn', hagrees⟩ := ih hn
    refine ⟨n', ?_, hagrees⟩
    rw [follow_cons, ← move_agrees h, hmove]
    exact hn'

theorem node?_agrees {fs' : FileSystem} (hroot : fs.root.Agrees fs'.root)
    (hplace : fs'.workingDirectory = fs.workingDirectory) (hn : fs.node? dir = some n) :
    ∃ n', fs'.node? dir = some n' ∧ n.Agrees n' := by
  obtain ⟨pl, hpl⟩ := node?_eq_some_iff.mp hn
  obtain ⟨hne, hlong, hfollow⟩ := resolve_eq_ok_iff.mp hpl
  obtain ⟨n', hfollow', hagrees⟩ := follow_agrees hroot hfollow
  refine ⟨n', node?_eq_some_iff.mpr ⟨pl, resolve_eq_ok_iff.mpr ⟨hne, hlong, ?_⟩⟩, hagrees⟩
  rwa [hplace]

end Conformance.FileSystem
