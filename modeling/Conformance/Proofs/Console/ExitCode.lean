import Conformance.Console.Command
import Conformance.Proofs.Arguments.Accepted
import Conformance.Proofs.Corpus.Discovery
import Conformance.Proofs.Files.Lookup
import Conformance.Proofs.Session.Accounts

/-!
# The exit code

A command line exits with zero exactly if a corpus was found and all of its files pass, also those
that a session would leave out (`exitCode_eq_zero_iff`).  It is never zero for want of files: an
accepted command line finds at least one or fails.
-/

namespace Conformance

namespace Report

theorem exitCode_eq_zero {r : Report} : r.exitCode = 0 ↔ r.failed = 0 := by
  unfold exitCode allPassed
  by_cases h : r.failed = 0
  · simp [h]
  · simp [h]

theorem exitCode_eq_zero_or_one (r : Report) : r.exitCode = 0 ∨ r.exitCode = 1 := by
  unfold exitCode
  split
  · exact .inl rfl
  · exact .inr rfl

end Report

namespace Session

variable {σ : Type}

/-- Nothing failed among the files that were reached exactly if no file of the list fails. -/
theorem run_failed_eq_zero_iff (runner : Runner σ) (s : Settings) (mode : Mode)
    (files : List Path) (state : σ) :
    (run runner s mode files state).report.failed = 0 ↔
      ∀ file ∈ trace (runFile runner s mode) files state, file.outcome.passed = true := by
  rw [run_eq]
  refine Report.failed_eq_zero_iff.trans ⟨fun h => ?_, fun h o ho => ?_⟩
  · have hreached : ∀ file ∈ reached runner s mode files state, file.outcome.passed = true :=
      fun file hfile => h _ (List.mem_map_of_mem hfile)
    rw [← attempted_eq_self hreached]
    exact hreached
  · obtain ⟨file, hfile, rfl⟩ := List.mem_map.mp ho
    exact h file ((attempted_prefix_results ..).subset hfile)

/-- A session without a failure has passed all its files. -/
theorem run_report_of_passed {runner : Runner σ} {s : Settings} {mode : Mode} {files : List Path}
    {state : σ}
    (h : ∀ file ∈ trace (runFile runner s mode) files state, file.outcome.passed = true) :
    (run runner s mode files state).report = ⟨files.length, 0, 0, []⟩ := by
  have hreached : reached runner s mode files state =
      trace (runFile runner s mode) files state :=
    attempted_eq_self fun file hfile => h file ((attempted_prefix_results ..).subset hfile)
  have hpass : ∀ o ∈ (trace (runFile runner s mode) files state).map (·.outcome),
      o.passed = true := by
    intro o ho
    obtain ⟨file, hfile, rfl⟩ := List.mem_map.mp ho
    exact h file hfile
  rw [run_eq, hreached]
  unfold settled Report.ofOutcomes
  rw [length_trace, Nat.sub_self, List.countP_eq_length.mpr hpass, List.length_map, length_trace,
    List.countP_eq_zero.mpr fun o ho => by simp [hpass o ho],
    List.filter_eq_nil_iff.mpr fun o ho => by simp [hpass o ho]]

end Session

/-! ## Commands -/

namespace Command

variable {σ : Type} {runner : Runner σ} {fs : FileSystem} {silent : Bool} {c : Command} {state : σ}

theorem run_exitCode_of_error {e : CorpusError} (h : c.policy.discover fs c.filter = .error e) :
    (c.run runner fs silent state).exitCode = 1 := by
  unfold run
  rw [h]
  rfl

/-- A command that finds its corpus shows the session over it. -/
theorem run_of_ok {found : List Path} (h : c.policy.discover fs c.filter = .ok found) :
    c.run runner fs silent state =
      c.present silent found.length (Session.run runner c.settings c.mode found state) := by
  unfold run
  rw [h]
  rfl

theorem run_exitCode_of_ok {found : List Path} (h : c.policy.discover fs c.filter = .ok found) :
    (c.run runner fs silent state).exitCode =
      (Session.run runner c.settings c.mode found state).report.exitCode := by
  rw [run_of_ok h]
  rfl

/-- A command that lists at least one file looks for files. -/
theorem policy_ne_files_nil (h : ∀ corpus o, c ≠ .files [] corpus o) (base : Path) :
    c.policy ≠ .files base [] := by
  cases c with
  | dir d f o => simp [policy]
  | smoke d i f t => simp [policy]
  | files listed corpus o =>
    intro hp
    simp only [policy, CorpusPolicy.files.injEq] at hp
    exact h corpus o (by rw [hp.2])

end Command

namespace CommandLine

/-- The metrics are written behind everything else and change nothing of it. -/
theorem run_exitCode {σ : Type} (runner : Runner σ) (fs : FileSystem) (line : CommandLine)
    (state : σ) :
    (line.run runner fs state).exitCode =
      (line.command.run runner fs line.silent state).exitCode := by
  unfold run
  dsimp only
  split <;> rfl

/-- **The exit code.** It is zero exactly if a corpus was found and every file of it passes when all
are run; then there is a file, and the report counts each as passed.  It is one otherwise, and the
flags in front of the command have no part in it. -/
theorem exitCode_eq_zero_iff {σ : Type} (runner : Runner σ) (fs : FileSystem) (state : σ)
    {args : List Text} {line : CommandLine} (h : read args = .ok line) :
    let c := line.command
    let code := (line.run runner fs state).exitCode
    let discovered := c.policy.discover fs c.filter
    let report := fun found => (Session.run runner c.settings c.mode found state).report
    (code = 0 ↔ ∃ found, discovered = .ok found ∧
      ∀ file ∈ Session.trace (Session.runFile runner c.settings c.mode) found state,
        file.outcome.passed = true) ∧
    (∀ found, discovered = .ok found → code = 0 →
      found ≠ [] ∧ 1 ≤ (report found).passed ∧ (report found).passed = found.length ∧
        (report found).failed = 0 ∧ (report found).notRun = 0) ∧
    (code = 0 ∨ code = 1) ∧
    ∀ metrics verbose silent,
      (run runner fs ⟨metrics, verbose, silent, c⟩ state).exitCode = code := by
  intro c code discovered report
  have hflags : ∀ metrics verbose silent,
      (run runner fs ⟨metrics, verbose, silent, c⟩ state).exitCode =
        (c.run runner fs silent state).exitCode :=
    fun metrics verbose silent => run_exitCode runner fs ⟨metrics, verbose, silent, c⟩ state
  have hcode : code = (c.run runner fs line.silent state).exitCode :=
    run_exitCode runner fs line state
  cases hd : discovered with
  | error e =>
    rw [Command.run_exitCode_of_error hd] at hcode
    refine ⟨by simp [hcode], by simp, .inr hcode, fun metrics verbose silent => ?_⟩
    rw [hflags, Command.run_exitCode_of_error hd, hcode]
  | ok found =>
    rw [Command.run_exitCode_of_ok hd] at hcode
    have hiff : code = 0 ↔ ∀ file ∈ Session.trace (Session.runFile runner c.settings c.mode)
        found state, file.outcome.passed = true := by
      rw [hcode, Report.exitCode_eq_zero]
      exact Session.run_failed_eq_zero_iff ..
    refine ⟨by simpa using hiff, ?_, ?_, fun metrics verbose silent => ?_⟩
    · rintro _ ⟨rfl⟩ hzero
      have hne : found ≠ [] :=
        CorpusPolicy.discover_ne_nil
          (Command.policy_ne_files_nil (read_command_ne_files_nil h)) hd
      have hreport := Session.run_report_of_passed (hiff.mp hzero)
      simp only [report, hreport]
      exact ⟨hne, List.length_pos_iff.mpr hne, trivial, trivial, trivial⟩
    · rw [hcode]
      exact Report.exitCode_eq_zero_or_one _
    · rw [hflags, Command.run_exitCode_of_ok hd, hcode]

/-- A runner whose toolchains and compiler write nothing. -/
def quietRunner : Runner Unit where
  runPipeline _ _ _ state := (.ok (.ofLines [] []), state)
  runCompiler _ _ _ state := (.ok (.ofLines [] []), state)

/-- The tree whose only file is `a`. -/
def loneFile : FileSystem :=
  ⟨.directory .full (.cons (Utf8.encode ['a']) (.file .empty false) .nil), []⟩

theorem loneFile_isFile : loneFile.isFile (.ofText ['a']) = true := by
  have hnode : loneFile.node? (.ofText ['a']) = some (.file .empty false) := by
    refine FileSystem.node?_eq_some_iff.mpr
      ⟨[Utf8.encode ['a']], FileSystem.resolve_eq_ok_iff.mpr ⟨by decide, by decide, ?_⟩⟩
    exact (FileSystem.follow_cons ..).trans (FileSystem.follow_nil ..)
  rw [FileSystem.isFile, hnode]
  rfl

/-- The only file that is listed passes: the exit code is zero and the report counts it. -/
theorem exitCode_eq_zero_iff_one_file :
    let line : CommandLine := ⟨false, false, false,
      .files [.ofText ['a']] (.ofText Settings.defaultCorpusDir) (toolchainsOf .start)⟩
    let c := line.command
    read ["files".toList, ['a']] = .ok line ∧
      c.policy.discover loneFile c.filter = .ok [.ofText ['a']] ∧
      (line.run quietRunner loneFile ()).exitCode = 0 ∧
      (Session.run quietRunner c.settings c.mode [.ofText ['a']] ()).report.passed = 1 := by
  intro line c
  have hread : read ["files".toList, ['a']] = .ok line := rfl
  have hfound : c.policy.discover loneFile c.filter = .ok [.ofText ['a']] := by
    change Corpus.resolveFiles loneFile _ [.ofText ['a']] = _
    rw [Corpus.resolveFiles, Corpus.resolveFile, if_pos loneFile_isFile]
    rfl
  obtain ⟨hiff, hreport, -⟩ := exitCode_eq_zero_iff quietRunner loneFile () hread
  have hzero : (line.run quietRunner loneFile ()).exitCode = 0 :=
    hiff.mpr ⟨_, hfound, by decide⟩
  obtain ⟨-, -, hpassed, -⟩ := hreport _ hfound hzero
  exact ⟨hread, hfound, hzero, hpassed⟩

end CommandLine

end Conformance
