import Conformance.Proofs.Console.ExitCode

/-!
# What silence hides

The standard output of a command is an empty line, a block for each file that was run, and the
summary; in silence the empty line and the blocks of the files that passed are missing
(`Command.silence_hides_passes`).  A block is the result of the file and what belongs to it.
`withoutPasses` finds the blocks of passing files among the items alone, without knowing the
outcomes.
-/

namespace Conformance

namespace Console

/-! ## Blocks -/

/-- The result of a file, with its position among `total` files. -/
def resultItem (total : Nat) (file : Outcome × Nat) : Item :=
  let title := position file.2 total file.1.name
  match file.1.failure with
  | none => .message .pass (title ++ " passed".toList)
  | some failure => .message .fail (title ++ ": ".toList ++ failure.message)

/-- What belongs to the result of a file: the output of the compiler, or where it went wrong. -/
def belowResult (o : Outcome) : List Item :=
  match o.failure with
  | none => o.output.map .relayed
  | some failure => failureDetails o failure

/-- The block of a file. -/
def block (total : Nat) (file : Outcome × Nat) : List Item :=
  resultItem total file :: belowResult file.1

/-- Whether an item says that something failed. -/
def Item.isFailLine : Item → Bool
  | .message .fail _ => true
  | _ => false

/-- The items in front of the summary without the results of passing files and the lines that are
relayed directly below these; `belowPass` says that such a result stands in front. -/
def withoutPasses (belowPass : Bool) : List Item → List Item
  | [] => []
  | item :: rest =>
    match item with
    | .header _ => item :: rest
    | .message .pass _ => withoutPasses true rest
    | .relayed _ => if belowPass then withoutPasses true rest else item :: withoutPasses false rest
    | _ => item :: withoutPasses false rest

theorem block_of_passed (total : Nat) {file : Outcome × Nat} (h : file.1.passed = true) :
    ∃ text, block total file = .message .pass text :: file.1.output.map .relayed := by
  have hfailure : file.1.failure = none := Option.isNone_iff_eq_none.mp h
  unfold block resultItem belowResult
  rw [hfailure]
  exact ⟨_, rfl⟩

theorem block_of_failed (total : Nat) {file : Outcome × Nat} (h : file.1.passed = false) :
    ∃ text failure, resultItem total file = .message .fail text ∧
      block total file = .message .fail text :: failureDetails file.1 failure := by
  cases hfailure : file.1.failure with
  | none => simp [Outcome.passed, hfailure] at h
  | some failure =>
    unfold block resultItem belowResult
    rw [hfailure]
    exact ⟨_, failure, rfl, rfl⟩

/-- Below a failure there are lines of the compiler and labelled lines only. -/
theorem mem_failureDetails {o : Outcome} {failure : Failure} {item : Item}
    (h : item ∈ failureDetails o failure) :
    (∃ line, item = .relayed line) ∨ ∃ label text, item = .detail label text := by
  cases failure with
  | mismatch d =>
    cases d with
    | line =>
      simp only [failureDetails, List.mem_cons, List.not_mem_nil, or_false] at h
      rcases h with rfl | rfl
      · exact .inr ⟨_, _, rfl⟩
      · exact .inr ⟨_, _, rfl⟩
    | length => exact absurd h List.not_mem_nil
  | pipeline => exact absurd h List.not_mem_nil
  | compile code stderr =>
    rcases List.mem_append.mp h with h | h
    · obtain ⟨line, -, rfl⟩ := List.mem_map.mp h
      exact .inl ⟨line, rfl⟩
    · obtain ⟨line, -, rfl⟩ := List.mem_map.mp h
      exact .inr ⟨_, line, rfl⟩

/-! ## The items of a session -/

/-- What only chosen elements contribute is contributed by the chosen elements. -/
theorem flatMap_ite {α β : Type} (p : α → Bool) (f : α → List β) (l : List α) :
    (l.flatMap fun x => if p x then f x else []) = (l.filter p).flatMap f := by
  induction l with
  | nil => rfl
  | cons x l ih =>
    rw [List.flatMap_cons, List.filter_cons, ih]
    by_cases h : p x = true
    · rw [if_pos h, if_pos h, List.flatMap_cons]
    · rw [if_neg h, if_neg h, List.nil_append]

theorem outcomeItems_false (index total : Nat) (o : Outcome) :
    outcomeItems false index total o = block total (o, index) := by
  cases h : o.failure <;> simp [outcomeItems, block, resultItem, belowResult, h]

theorem outcomeItems_true (index total : Nat) (o : Outcome) :
    outcomeItems true index total o = if !o.passed then block total (o, index) else [] := by
  cases h : o.failure <;> simp [outcomeItems, block, resultItem, belowResult, Outcome.passed, h]

/-- The items of a session are those of its files in order. -/
theorem protocol_items (silent : Bool) (total : Nat) (outcomes : List Outcome) :
    (Session.protocol total outcomes).flatMap (eventItems silent) =
      (outcomes.zipIdx 1).flatMap fun file => outcomeItems silent file.2 total file.1 := by
  unfold Session.protocol
  rw [List.flatMap_assoc]
  refine congrArg (List.flatMap · _) (funext fun file => ?_)
  simp [eventItems]

theorem protocol_items_false (total : Nat) (outcomes : List Outcome) :
    (Session.protocol total outcomes).flatMap (eventItems false) =
      (outcomes.zipIdx 1).flatMap (block total) := by
  rw [protocol_items]
  exact congrArg (List.flatMap · _) (funext fun file => outcomeItems_false ..)

theorem protocol_items_true (total : Nat) (outcomes : List Outcome) :
    (Session.protocol total outcomes).flatMap (eventItems true) =
      ((outcomes.zipIdx 1).filter fun file => !file.1.passed).flatMap (block total) := by
  rw [protocol_items, ← flatMap_ite]
  exact congrArg (List.flatMap · _) (funext fun file => outcomeItems_true ..)

/-! ## Finding the passes -/

theorem withoutPasses_relayed (lines : List Text) (rest : List Item) :
    withoutPasses true (lines.map .relayed ++ rest) = withoutPasses true rest := by
  induction lines with
  | nil => rfl
  | cons line lines ih => exact ih

theorem withoutPasses_details {items : List Item} (rest : List Item)
    (h : ∀ item ∈ items, (∃ line, item = .relayed line) ∨ ∃ label text, item = .detail label text) :
    withoutPasses false (items ++ rest) = items ++ withoutPasses false rest := by
  induction items with
  | nil => rfl
  | cons item items ih =>
    have hrest := ih fun x hx => h x (List.mem_cons_of_mem item hx)
    rcases h item List.mem_cons_self with ⟨line, rfl⟩ | ⟨label, text, rfl⟩
    · exact congrArg _ hrest
    · exact congrArg _ hrest

/-- Of the blocks of files, those of files that failed are left. -/
theorem withoutPasses_blocks (total : Nat) (files : List (Outcome × Nat)) (belowPass : Bool)
    (title : Text) (summary : List Item) :
    withoutPasses belowPass (files.flatMap (block total) ++ .header title :: summary) =
      (files.filter fun file => !file.1.passed).flatMap (block total) ++
        .header title :: summary := by
  induction files generalizing belowPass with
  | nil => rfl
  | cons file files ih =>
    rw [List.flatMap_cons, List.append_assoc]
    cases hpassed : file.1.passed with
    | true =>
      obtain ⟨text, hblock⟩ := block_of_passed total hpassed
      rw [hblock, List.filter_cons_of_neg (by simp [hpassed]), ← ih true]
      exact withoutPasses_relayed ..
    | false =>
      obtain ⟨text, failure, -, hblock⟩ := block_of_failed total hpassed
      rw [List.filter_cons_of_pos (by simp [hpassed]), List.flatMap_cons, List.append_assoc,
        ← ih false, hblock]
      exact congrArg _ (withoutPasses_details _ fun _ => mem_failureDetails)

/-! ## Failures -/

/-- A block says that something failed exactly if its file did, and once. -/
theorem filter_isFailLine_block (total : Nat) (file : Outcome × Nat) :
    (block total file).filter Item.isFailLine =
      if !file.1.passed then [resultItem total file] else [] := by
  cases hpassed : file.1.passed with
  | true =>
    obtain ⟨text, hblock⟩ := block_of_passed total hpassed
    rw [hblock]
    simp [Item.isFailLine]
  | false =>
    obtain ⟨text, failure, hresult, hblock⟩ := block_of_failed total hpassed
    have hdetails : (failureDetails file.1 failure).filter Item.isFailLine = [] := by
      refine List.filter_eq_nil_iff.mpr fun item hitem => ?_
      rcases mem_failureDetails hitem with ⟨line, rfl⟩ | ⟨label, text, rfl⟩
      · exact Bool.false_ne_true
      · exact Bool.false_ne_true
    rw [hblock, hresult, List.filter_cons_of_pos rfl, hdetails]
    rfl

/-- The failures in blocks, in order. -/
theorem filter_isFailLine_blocks (total : Nat) (files : List (Outcome × Nat)) :
    (files.flatMap (block total)).filter Item.isFailLine =
      (files.filter fun file => !file.1.passed).map (resultItem total) := by
  rw [List.filter_flatMap, List.map_eq_flatMap, ← flatMap_ite]
  exact congrArg (List.flatMap · _) (funext (filter_isFailLine_block total))

/-- The numbered outcomes that failed are the failures of the report. -/
theorem map_fst_failing (notRun : Nat) (outcomes : List Outcome) :
    ((outcomes.zipIdx 1).filter fun file => !file.1.passed).map Prod.fst =
      (Report.ofOutcomes notRun outcomes).failures := by
  have hfilter : ((outcomes.zipIdx 1).map Prod.fst).filter (fun o => !o.passed) =
      ((outcomes.zipIdx 1).filter fun file => !file.1.passed).map Prod.fst := List.filter_map
  rw [List.zipIdx_map_fst] at hfilter
  exact hfilter.symm

/-- The number of an outcome is its position. -/
theorem getElem?_of_mem_zipIdx {outcomes : List Outcome} {k i : Nat} {o : Outcome}
    (h : (o, i) ∈ (outcomes.take k).zipIdx 1) : 1 ≤ i ∧ outcomes[i - 1]? = some o := by
  obtain ⟨hi, hget⟩ := List.mk_mem_zipIdx_iff_le_and_getElem?_sub.mp h
  rw [List.getElem?_take] at hget
  split at hget
  · exact ⟨hi, hget⟩
  · exact absurd hget.symm (Option.some_ne_none o)

/-- The summary of a report. -/
theorem summaryItems_eq (r : Report) :
    summaryItems r = .header "Test Summary".toList ::
      if r.failed = 0 then
        [.message .pass ("All ".toList ++ Text.ofNat r.passed ++ " file(s) passed!".toList)]
      else
        .plain (Text.ofNat r.failed ++ " of ".toList ++ Text.ofNat (r.passed + r.failed) ++
            " file(s) failed:".toList) ::
          r.failedNames.map fun name => .plain (' ' :: ' ' :: name) := by
  unfold summaryItems Report.allPassed Report.total
  simp only [beq_iff_eq]

theorem filter_isFailLine_summary (r : Report) :
    (summaryItems r).filter Item.isFailLine = [] := by
  refine List.filter_eq_nil_iff.mpr fun item hitem => ?_
  rw [summaryItems_eq] at hitem
  rcases List.mem_cons.mp hitem with rfl | hitem
  · exact Bool.false_ne_true
  · split at hitem
    · rw [List.mem_singleton.mp hitem]
      exact Bool.false_ne_true
    · rcases List.mem_cons.mp hitem with rfl | hitem
      · exact Bool.false_ne_true
      · obtain ⟨name, -, rfl⟩ := List.mem_map.mp hitem
        exact Bool.false_ne_true

/-- Blocks and a summary say that something failed once for each file that did. -/
theorem filter_isFailLine_shown (total : Nat) (files : List (Outcome × Nat)) (r : Report) :
    (files.flatMap (block total) ++ summaryItems r).filter Item.isFailLine =
      (files.filter fun file => !file.1.passed).map (resultItem total) := by
  rw [List.filter_append, filter_isFailLine_blocks, filter_isFailLine_summary, List.append_nil]

end Console

/-! ## Commands -/

namespace Command

open Console

section Shown

variable {σ : Type} {runner : Runner σ} {fs : FileSystem} {c : Command} {state : σ}
  {found : List Path} {outcomes : List Outcome} {report : Report}

/-- A command writes an empty line, the block of each file that was run, and the summary. -/
theorem run_stdout_false (hfound : c.policy.discover fs c.filter = .ok found)
    (h : (Session.trace (Session.runFile runner c.settings c.mode) found state).map (·.outcome) =
      outcomes)
    (hreport : (Session.run runner c.settings c.mode found state).report = report) :
    (c.run runner fs false state).stdout =
      .blank :: (((outcomes.take report.total).zipIdx 1).flatMap (block found.length) ++
        summaryItems report) := by
  subst hreport
  rw [run_of_ok hfound, ← protocol_items_false, ← (Session.run_of_outcomes h).2]
  rfl

/-- In silence it writes the blocks of the files that failed, and the summary. -/
theorem run_stdout_true (hfound : c.policy.discover fs c.filter = .ok found)
    (h : (Session.trace (Session.runFile runner c.settings c.mode) found state).map (·.outcome) =
      outcomes)
    (hreport : (Session.run runner c.settings c.mode found state).report = report) :
    (c.run runner fs true state).stdout =
      (((outcomes.take report.total).zipIdx 1).filter fun file => !file.1.passed).flatMap
        (block found.length) ++ summaryItems report := by
  subst hreport
  rw [run_of_ok hfound, ← protocol_items_true, ← (Session.run_of_outcomes h).2]
  rfl

end Shown

/-- **Silence hides passes.** Let a command find its corpus, and let it be run twice, in silence the
second time, with the same outcomes of the files.  Both runs have the same exit code and report.
The first writes an empty line, the block of each file that was run, and the summary; the second
writes what is left of this without the empty line and the blocks of files that passed.  Either way
there is one line for each file that failed, in the order of the report, with its position in the
corpus, and the summary names the same files. -/
theorem silence_hides_passes {σ τ : Type} (runner : Runner σ) (runner' : Runner τ)
    (fs : FileSystem) (c : Command) (state : σ) (state' : τ) {found : List Path}
    {outcomes : List Outcome} (hfound : c.policy.discover fs c.filter = .ok found)
    (hloud : (Session.trace (Session.runFile runner c.settings c.mode) found state).map
      (·.outcome) = outcomes)
    (hquiet : (Session.trace (Session.runFile runner' c.settings c.mode) found state').map
      (·.outcome) = outcomes) :
    let loud := c.run runner fs false state
    let quiet := c.run runner' fs true state'
    let report := (Session.run runner c.settings c.mode found state).report
    let files := (outcomes.take report.total).zipIdx 1
    let failing := files.filter fun file => !file.1.passed
    let summary := Item.header "Test Summary".toList ::
      if report.failed = 0 then
        [.message .pass ("All ".toList ++ Text.ofNat report.passed ++ " file(s) passed!".toList)]
      else
        .plain (Text.ofNat report.failed ++ " of ".toList ++
            Text.ofNat (report.passed + report.failed) ++ " file(s) failed:".toList) ::
          report.failedNames.map fun name => .plain (' ' :: ' ' :: name)
    (loud.exitCode = quiet.exitCode ∧
      (Session.run runner' c.settings c.mode found state').report = report) ∧
    loud.stdout = .blank :: (files.flatMap (block found.length) ++ summary) ∧
    quiet.stdout = failing.flatMap (block found.length) ++ summary ∧
    quiet.stdout = withoutPasses false loud.stdout.tail ∧
    (∀ items ∈ [loud.stdout, quiet.stdout],
      items.filter Item.isFailLine = failing.map (resultItem found.length)) ∧
    failing.map (·.1.name) = report.failedNames ∧ failing.length = report.failed ∧
    ∀ o i, (o, i) ∈ failing → 1 ≤ i ∧ found[i - 1]? = some o.path := by
  intro loud quiet report files failing summary
  have hreport : (Session.run runner' c.settings c.mode found state').report = report :=
    Session.run_report_congr (hquiet.trans hloud.symm)
  have hcounts : report = .ofOutcomes (found.length - report.total) (outcomes.take report.total) :=
    (Session.run_of_outcomes hloud).1
  have hsummary : summaryItems report = summary := summaryItems_eq report
  have hloudItems : loud.stdout = .blank :: (files.flatMap (block found.length) ++ summary) := by
    rw [← hsummary]
    exact run_stdout_false hfound hloud rfl
  have hquietItems : quiet.stdout = failing.flatMap (block found.length) ++ summary := by
    rw [← hsummary]
    exact run_stdout_true hfound hquiet hreport
  have hfailures : failing.map Prod.fst = report.failures :=
    (map_fst_failing ..).trans (congrArg Report.failures hcounts).symm
  refine ⟨⟨?_, hreport⟩, hloudItems, hquietItems, ?_, ?_, ?_, ?_, ?_⟩
  · rw [run_exitCode_of_ok hfound, run_exitCode_of_ok hfound, hreport]
  · rw [hloudItems, hquietItems, List.tail_cons]
    exact (withoutPasses_blocks found.length files false _ _).symm
  · intro items hitems
    have hitems : items = loud.stdout ∨ items = quiet.stdout := by simpa using hitems
    rcases hitems with rfl | rfl
    · rw [hloudItems, ← hsummary, List.filter_cons_of_neg Bool.false_ne_true,
        filter_isFailLine_shown]
    · rw [hquietItems, ← hsummary, filter_isFailLine_shown, List.filter_filter]
      simp only [Bool.and_self, failing]
  · rw [Report.failedNames, ← hfailures, List.map_map]
    rfl
  · have hlength : report.failures.length = report.failed := by
      rw [hcounts]
      exact Report.length_failures ..
    rw [← hlength, ← hfailures, List.length_map]
  · intro o i ho
    obtain ⟨hi, hget⟩ := getElem?_of_mem_zipIdx (List.mem_filter.mp ho).1
    refine ⟨hi, ?_⟩
    rw [← Session.map_path_outcomes hloud, List.getElem?_map, hget]
    rfl

/-- A runner that counts its calls and writes another line at the fourth. -/
def fadingRunner : Runner Nat where
  runPipeline _ _ _ calls := (.ok (.ofLines [if calls = 3 then ['y'] else ['x']] []), calls + 1)
  runCompiler _ _ _ calls := (.ok (.ofLines [] []), calls + 1)

/-- A file that is listed three times passes and then fails; the third time is left out. -/
theorem silence_hides_passes_second_of_three :
    let found : List Path := [.ofText ['a'], .ofText ['a'], .ofText ['a']]
    let c : Command := .files found (.ofText Settings.defaultCorpusDir)
      (CommandLine.toolchainsOf .start)
    let quiet := (c.run fadingRunner CommandLine.loneFile true 0).stdout
    c.policy.discover CommandLine.loneFile c.filter = .ok found ∧
      (c.run fadingRunner CommandLine.loneFile false 0).stdout =
        .blank :: .message .pass "[1/3] a passed".toList :: quiet ∧
      quiet =
        [.message .fail "[2/3] a: mismatch in stdout at line 1".toList,
          .detail "Reference:".toList ['x'], .detail "Candidate:".toList ['y'],
          .header "Test Summary".toList, .plain "1 of 2 file(s) failed:".toList,
          .plain "  a".toList] := by
  intro found c quiet
  have hfound : c.policy.discover CommandLine.loneFile c.filter = .ok found := by
    change Corpus.resolveFiles CommandLine.loneFile _ found = _
    simp only [found, Corpus.resolveFiles, Corpus.resolveFile, if_pos CommandLine.loneFile_isFile]
    rfl
  obtain ⟨-, hloud, hquiet, -⟩ :=
    silence_hides_passes fadingRunner fadingRunner CommandLine.loneFile c 0 0 hfound rfl rfl
  refine ⟨hfound, hloud.trans ?_, hquiet.trans (by decide)⟩
  rw [show quiet = _ from hquiet]
  decide

end Command

end Conformance
