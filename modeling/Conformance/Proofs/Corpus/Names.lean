import Mathlib.Data.List.Nodup
import Conformance.Console.Command
import Conformance.Proofs.Corpus.Directory
import Conformance.Proofs.Session.Accounts

/-!
# The names of the files of a corpus

What is found in a directory or below it lies behind the directory's path, whatever way that path is
written (`discoverDirectory_below`, `discoverTree_below`).  The name under which such a file is shown
leads back to it from the directory, so no two of them have one name (`Path.Below.named`), and a
session shows each file under a name of its own (`Command.Searches.run_names`).
-/

namespace Conformance

open FileSystem

variable {fs : FileSystem} {dir p : Path} {filter : Option Text} {found : List Path}

/-! ## Names that are texts -/

mutual

/-- The names in a directory are texts, and so on below it. -/
def Node.TextNames : Node → Prop
  | .directory _ es => es.TextNames
  | _ => True

/-- The names are texts, and so are those below the nodes. -/
def Entries.TextNames : Entries → Prop
  | .nil => True
  | .cons name node rest => Utf8.Valid name ∧ node.TextNames ∧ rest.TextNames

end

theorem Entries.TextNames.of_mem {name : Name} {node : Node} :
    ∀ {es : Entries}, es.TextNames → (name, node) ∈ es.toList → Utf8.Valid name ∧ node.TextNames
  | .nil, _, h => absurd h List.not_mem_nil
  | .cons n x rest, ⟨hname, hnode, hrest⟩, h => by
    rcases List.mem_cons.mp h with heq | hmem
    · cases heq
      exact ⟨hname, hnode⟩
    · exact TextNames.of_mem hrest hmem

/-- What lies below is reached by texts. -/
theorem Node.TextNames.at? {n m : Node} {names : List Name} (hn : n.TextNames)
    (h : n.at? names = some m) : ∀ name ∈ names, Utf8.Valid name := by
  induction names generalizing n with
  | nil => exact nofun
  | cons name rest ih =>
    cases n with
    | directory access es =>
      rw [at?_directory_cons] at h
      obtain ⟨x, hx, hm⟩ := Option.bind_eq_some_iff.mp h
      obtain ⟨hname, hnode⟩ := Entries.TextNames.of_mem hn (Entries.mem_toList_of_find? hx)
      exact List.forall_mem_cons.mpr ⟨hname, ih hnode hm⟩
    | _ => simp [Node.at?] at h

namespace Path

/-- Texts with separators between them are a text. -/
theorem isText_join {names : List Name} (h : ∀ name ∈ names, Utf8.Valid name) :
    IsText ⟨Text.join [separator] names⟩ := by
  obtain ⟨ts, rfl⟩ : ∃ ts : List Text, ts.map Utf8.encode = names := by
    induction names with
    | nil => exact ⟨[], rfl⟩
    | cons name rest ih =>
      obtain ⟨⟨t, rfl⟩, hrest⟩ := List.forall_mem_cons.mp h
      obtain ⟨ts, rfl⟩ := ih hrest
      exact ⟨t :: ts, rfl⟩
  rw [← encode_separator, ← Utf8.encode_join]
  exact isText_ofText _

/-- Files that lie behind a directory, under names that are texts, each found once. -/
structure Below (dir : Path) (found : List Path) : Prop where
  nodup : found.Nodup
  names : ∀ p ∈ found, ∃ names : List Name, names ≠ [] ∧
    (∀ n ∈ names, n.Plain ∧ Utf8.Valid n) ∧ p = dir.below names

/-- The names under which files are shown lead back to them from a directory, and no two files have
one name. -/
structure Named (dir : Path) (found : List Path) : Prop where
  name_ne_nil : ∀ p ∈ found, p.displayName (some dir) ≠ []
  join_name : ∀ p ∈ found, dir.join (ofText (p.displayName (some dir))) = p
  nodup : (found.map (·.displayName (some dir))).Nodup

/-- **Names.** Files behind a directory are shown under names that lead back to them. -/
theorem Below.named (h : Below dir found) : Named dir found := by
  have hname : ∀ p ∈ found, (ofText (p.displayName (some dir))).bytes ≠ [] ∧
      dir.join (ofText (p.displayName (some dir))) = p := fun p hp => by
    obtain ⟨names, hne, hnames, rfl⟩ := h.names p hp
    have hplain : ∀ n ∈ names, n.Plain := fun n hn => (hnames n hn).1
    rw [displayName_below hne hplain, isText_join fun n hn => (hnames n hn).2]
    exact ⟨join_ne_nil hne hplain, (below_eq_join hne hplain).symm⟩
  refine ⟨fun p hp heq => ?_, fun p hp => (hname p hp).2, h.nodup.map_on fun p hp q hq heq => ?_⟩
  · apply (hname p hp).1
    rw [heq]
    rfl
  · rw [← (hname p hp).2, ← (hname q hq).2, heq]

end Path

namespace Corpus

/-- What is found in a directory alone lies behind it. -/
theorem discoverDirectory_below (hroot : fs.root.Proper)
    (h : discoverDirectory fs dir filter = .ok found) : Path.Below dir found := by
  obtain ⟨-, hincreasing, hmem⟩ := (discoverDirectory_finds hroot dir filter).eq_ok_iff.mp h
  refine ⟨hincreasing.nodup, fun p hp => ?_⟩
  obtain ⟨name, hname, rfl⟩ := (hmem p).mp hp
  obtain ⟨t, ht, -⟩ := hname.isSourceName
  exact ⟨[name], by simp, by simpa using ⟨hname.plain hroot, t, ht.symm⟩, rfl⟩

/-- What is found in a tree lies behind its directory. -/
theorem discoverTree_below (hroot : fs.root.Proper)
    (htexts : ∀ n, fs.node? dir = some n → n.TextNames)
    (h : discoverTree fs dir filter = .ok found) : Path.Below dir found := by
  obtain ⟨-, hincreasing, hmem⟩ := (discoverTree_finds hroot dir filter).eq_ok_iff.mp h
  refine ⟨hincreasing.nodup, fun p hp => ?_⟩
  have hselected := (hmem p).mp hp
  obtain ⟨d, es, name, node, hd, -⟩ := id hselected
  obtain ⟨access, es, hdir⟩ := isDirectory_iff.mp hd.isDirectory
  have hproper := node?_proper hroot hdir
  have hfile := List.mem_of_mem_filter ((selected_iff hroot hdir).mp hselected)
  obtain ⟨names, m, hat, hm, rfl⟩ := below_of_mem_filesAt hproper hfile
  refine ⟨names, ?_, fun n hn => ⟨((hproper.at? hat).2 n hn).toPlain, ?_⟩, rfl⟩
  · rintro rfl
    rw [Node.at?_nil, Option.some.injEq] at hat
    subst hat
    exact nomatch hm
  · exact (htexts _ hdir).at? hat n hn

end Corpus

/-! ## What a session shows -/

namespace Console

/-- The items of the results of a session over `total` files. -/
def resultItems (silent : Bool) (total : Nat) (outcomes : List Outcome) : List Item :=
  (outcomes.zipIdx 1).flatMap fun (o, index) => outcomeItems silent index total o

theorem flatMap_eventItems_protocol (silent : Bool) (total : Nat) (outcomes : List Outcome) :
    (Session.protocol total outcomes).flatMap (eventItems silent) =
      resultItems silent total outcomes := by
  unfold Session.protocol resultItems
  rw [List.flatMap_assoc]
  refine congrArg (List.flatMap · _) (funext fun ⟨o, index⟩ => ?_)
  rw [List.flatMap_cons, List.flatMap_cons, List.flatMap_nil, List.append_nil]
  rfl

end Console

namespace Command

variable {σ : Type}

/-- The command looks for its files in the directory, and all of them are run. -/
def Searches (c : Command) (dir : Path) (filter : Option Text) : Prop :=
  (∃ o, c = .dir dir filter o) ∨ ∃ compiler timeout, c = .smoke dir compiler filter timeout

theorem Searches.settings {c : Command} (h : c.Searches dir filter) :
    c.settings.corpusDir = dir ∧ c.settings.failurePolicy = .continue := by
  obtain ⟨o, rfl⟩ | ⟨compiler, timeout, rfl⟩ := h <;> exact ⟨rfl, rfl⟩

/-- All files of a command that searches are run, each under its name behind the directory, and the
outcomes are shown. -/
theorem Searches.run_outcomes {c : Command} (h : c.Searches dir filter)
    (hfound : c.policy.discover fs c.filter = .ok found) (runner : Runner σ) (silent : Bool)
    (state : σ) :
    ∃ outcomes : List Outcome,
      outcomes.map (fun o => (o.path, o.name)) = found.map (fun p => (p, p.displayName (some dir))) ∧
      (c.run runner fs silent state).stdout =
        (if silent then [] else [.blank]) ++
          Console.resultItems silent found.length outcomes ++
          Console.summaryItems (.ofOutcomes 0 outcomes) := by
  obtain ⟨hdir, hpolicy⟩ := h.settings
  refine ⟨(Session.trace (Session.runFile runner c.settings c.mode) found state).map (·.outcome),
    ?_, ?_⟩
  · rw [List.map_map]
    refine Session.map_trace (Session.runFile runner c.settings c.mode)
      (fun file => (file.outcome.path, file.outcome.name)) _ found (fun path _ state => ?_) state
    obtain ⟨hpath, hname⟩ := Session.runFile_path_name runner c.settings c.mode path state
    rw [hpath, hname, Session.nameOf, hdir]
  · have hreached : Session.reached runner c.settings c.mode found state =
        Session.trace (Session.runFile runner c.settings c.mode) found state := by
      rw [Session.reached, hpolicy, Session.attempted_continue]
    rw [run, hfound, runOn, present, Session.run_eq, hreached, Session.length_trace, Nat.sub_self,
      Session.settled, Console.flatMap_eventItems_protocol]

/-- What a session shows of files that lie behind its directory: every result and every name in the
summary belongs to one file, to which the name leads back. -/
theorem Searches.run_names {c : Command} (hc : c.Searches dir filter)
    (hfound : c.policy.discover fs c.filter = .ok found) (hnamed : Path.Named dir found)
    (runner : Runner σ) (silent : Bool) (state : σ) :
    ∃ outcomes : List Outcome,
      (c.run runner fs silent state).stdout =
        (if silent then [] else [.blank]) ++
          Console.resultItems silent found.length outcomes ++
          Console.summaryItems (.ofOutcomes 0 outcomes) ∧
      outcomes.map (·.path) = found ∧ (outcomes.map (·.name)).Nodup ∧
      (∀ o ∈ outcomes,
        o.name = o.path.displayName (some dir) ∧ dir.join (.ofText o.name) = o.path) ∧
      (Report.ofOutcomes 0 outcomes).failedNames.Nodup ∧
      ∀ name ∈ (Report.ofOutcomes 0 outcomes).failedNames,
        ∃ o ∈ outcomes, o.passed = false ∧ o.name = name ∧ dir.join (.ofText name) = o.path := by
  obtain ⟨outcomes, houtcomes, hstdout⟩ := hc.run_outcomes hfound runner silent state
  have hpaths : outcomes.map (·.path) = found := by
    have hfst := congrArg (List.map Prod.fst) houtcomes
    rw [List.map_map, List.map_map] at hfst
    exact hfst.trans (List.map_id found)
  have hnames : (outcomes.map (·.name)).Nodup := by
    have hsnd := congrArg (List.map Prod.snd) houtcomes
    rw [List.map_map, List.map_map] at hsnd
    exact hsnd ▸ hnamed.nodup
  have hname : ∀ o ∈ outcomes,
      o.name = o.path.displayName (some dir) ∧ dir.join (.ofText o.name) = o.path := fun o ho => by
    have hmem : (o.path, o.name) ∈ found.map fun p => (p, p.displayName (some dir)) :=
      houtcomes ▸ List.mem_map_of_mem ho
    obtain ⟨p, hp, heq⟩ := List.mem_map.mp hmem
    obtain ⟨hpath, hname⟩ := Prod.mk.inj heq
    rw [← hpath, ← hname]
    exact ⟨rfl, hnamed.join_name p hp⟩
  refine ⟨outcomes, hstdout, hpaths, hnames, hname, ?_, fun name h => ?_⟩
  · exact (List.filter_sublist.map _).nodup hnames
  · obtain ⟨o, ho, rfl⟩ := List.mem_map.mp h
    obtain ⟨hmem, hfailed⟩ := List.mem_filter.mp ho
    exact ⟨o, hmem, by simpa using hfailed, rfl, (hname o hmem).2⟩

end Command

/-- **Names identify files.** Let files be found in a directory, written in any way, or below it,
where all names are texts.  Each is shown under a name that is not empty and that leads back to it
from the directory, so no two of them have one name.  The results and the summary of a session over
them show the files under these names. -/
theorem Corpus.names_identify_files (hroot : fs.root.Proper)
    (htexts : ∀ n, fs.node? dir = some n → n.TextNames)
    (h : discoverDirectory fs dir filter = .ok found ∨ discoverTree fs dir filter = .ok found) :
    found.Nodup ∧
    (∀ p ∈ found, p.displayName (some dir) ≠ [] ∧
      (dir.join (.ofText (p.displayName (some dir)))).components = p.components) ∧
    (∀ p ∈ found, ∀ q ∈ found, p.displayName (some dir) = q.displayName (some dir) → p = q) ∧
    ∀ (c : Command), c.Searches dir filter → c.policy.discover fs c.filter = .ok found →
      ∀ (σ : Type) (runner : Runner σ) (silent : Bool) (state : σ), ∃ outcomes : List Outcome,
        (c.run runner fs silent state).stdout =
          (if silent then [] else [.blank]) ++
            Console.resultItems silent found.length outcomes ++
            Console.summaryItems (.ofOutcomes 0 outcomes) ∧
        outcomes.map (·.path) = found ∧ (outcomes.map (·.name)).Nodup ∧
        (∀ o ∈ outcomes,
          o.name = o.path.displayName (some dir) ∧ dir.join (.ofText o.name) = o.path) ∧
        (Report.ofOutcomes 0 outcomes).failedNames.Nodup ∧
        ∀ name ∈ (Report.ofOutcomes 0 outcomes).failedNames,
          ∃ o ∈ outcomes, o.passed = false ∧ o.name = name ∧
            dir.join (.ofText name) = o.path := by
  have hbelow : Path.Below dir found := by
    obtain h | h := h
    · exact discoverDirectory_below hroot h
    · exact discoverTree_below hroot htexts h
  have hnamed := hbelow.named
  refine ⟨hbelow.nodup, fun p hp => ⟨hnamed.name_ne_nil p hp, by rw [hnamed.join_name p hp]⟩,
    fun p hp q hq heq => ?_, fun c hc hfound σ runner silent state =>
      hc.run_names hfound hnamed runner silent state⟩
  rw [← hnamed.join_name p hp, ← hnamed.join_name q hq, heq]

/-- Two directories that each hold a file of one name. -/
def Corpus.twoDirectories : FileSystem :=
  let inner : Entries := .cons (Utf8.encode "x.cl".toList) (.file .empty false) .nil
  ⟨.directory .full (.cons (Utf8.encode ['a']) (.directory .full inner)
    (.cons (Utf8.encode ['b']) (.directory .full inner) .nil)), []⟩

/-- Found from a directory that is written in a roundabout way, the two files are shown under
different names. -/
theorem Corpus.names_identify_files_roundabout :
    let dir : Path := .ofText "./b//../".toList
    let found : List Path := [.ofText "./b//../a/x.cl".toList, .ofText "./b//../b/x.cl".toList]
    twoDirectories.root.Proper ∧ discoverTree twoDirectories dir none = .ok found ∧
      (∀ p ∈ found, ∀ q ∈ found, p.displayName (some dir) = q.displayName (some dir) → p = q) ∧
      found.map (·.displayName (some dir)) = ["a/x.cl".toList, "b/x.cl".toList] := by
  intro dir found
  have hproper : twoDirectories.root.Proper :=
    ⟨by decide, by decide, ⟨by decide, by decide, trivial, trivial⟩, by decide,
      ⟨by decide, by decide, trivial, trivial⟩, trivial⟩
  have htexts : twoDirectories.root.TextNames :=
    ⟨⟨_, rfl⟩, ⟨⟨_, rfl⟩, trivial, trivial⟩, ⟨_, rfl⟩, ⟨⟨_, rfl⟩, trivial, trivial⟩, trivial⟩
  have hn : twoDirectories.node? dir = some twoDirectories.root := by
    have hsteps : steps dir = [Name.current, Utf8.encode ['b'], Name.parent, []] := by decide
    refine node?_eq_some_iff.mpr ⟨[], resolve_eq_ok_iff.mpr ⟨by decide, by decide, ?_⟩⟩
    rw [hsteps]
    exact (follow_cons ..).trans <| (follow_cons ..).trans <| (follow_cons ..).trans <|
      follow_dots rfl rfl (by simp)
  have hfound : discoverTree twoDirectories dir none = .ok found := by
    rw [discoverTree, hn]
    refine sortedOrNone_eq_ok_iff.mpr ⟨by decide, ?_⟩
    exact (List.mergeSort_of_pairwise (by decide)).symm
  have hbelow : ∀ n, twoDirectories.node? dir = some n → n.TextNames := by
    rw [hn]
    rintro n ⟨rfl⟩
    exact htexts
  exact ⟨hproper, hfound, (names_identify_files hproper hbelow (.inr hfound)).2.2.1, by decide⟩

end Conformance
