import Conformance.Proofs.Session.Accounts

/-!
# Stopping at the first failure

Let the outcome of a file depend on its path alone.  Then a session that stops at the first
failure is a session that continues, run on the files up to that failure: `failFast_refines_continue`
compares the two.  A session that continues adds up over the parts of its list.
-/

namespace Conformance

/-! ## What an event tells -/

namespace Event

/-- The outcome that is shown. -/
def outcome? : Event → Option Outcome
  | started .. => none
  | finished _ _ outcome => some outcome

/-- The event of a session over another number of files. -/
def withTotal (total : Nat) : Event → Event
  | started index _ name => started index total name
  | finished index _ outcome => finished index total outcome

@[simp] theorem outcome?_withTotal (total : Nat) (e : Event) :
    (e.withTotal total).outcome? = e.outcome? := by
  cases e <;> rfl

end Event

namespace Session

variable {σ : Type}

theorem map_withTotal_protocol (total n : Nat) (outcomes : List Outcome) :
    (protocol n outcomes).map (Event.withTotal total) = protocol total outcomes := by
  unfold protocol
  rw [List.map_flatMap]
  rfl

/-! ## The first failure -/

/-- A session that stops comes to the files up to and with the first that fails, or to all. -/
theorem attempted_failFast_eq_take (results : List (FileResult σ)) :
    attempted .failFast results =
      results.take (results.findIdx (fun file => !file.outcome.passed) + 1) := by
  induction results with
  | nil => rfl
  | cons file rest ih =>
    rw [List.findIdx_cons]
    by_cases h : file.outcome.passed = true
    · simp [attempted, h, ih]
    · simp [attempted, h]

/-- A session that stops counts one failure if any file fails. -/
theorem countP_attempted_failFast {results : List (FileResult σ)}
    (h : ¬ ∀ file ∈ results, file.outcome.passed = true) :
    (attempted .failFast results).countP (fun file => !file.outcome.passed) = 1 := by
  obtain ⟨hall, -⟩ | ⟨before, file, behind, -, hbefore, hfile, heq⟩ := attempted_failFast results
  · exact absurd hall h
  · have hnone : before.countP (fun file => !file.outcome.passed) = 0 :=
      List.countP_eq_zero.mpr fun f hf => by simp [hbefore f hf]
    rw [heq, List.countP_append, hnone, List.countP_singleton]
    simp [hfile]

/-! ## Two sessions with the same settings otherwise -/

/-- How one file is run does not depend on the failure policy. -/
theorem runFile_failurePolicy (runner : Runner σ) (s : Settings) (policy : FailurePolicy)
    (mode : Mode) :
    runFile runner { s with failurePolicy := policy } mode = runFile runner s mode := by
  funext path state
  cases mode <;> rfl

section PathOnly

variable {runner : Runner σ} {s : Settings} {mode : Mode} {files : List Path}
  {verdict : Path → Outcome}

/-- A session that continues reports the verdicts on all files. -/
theorem run_continue
    (h : ∀ path ∈ files, ∀ state, (runFile runner s mode path state).outcome = verdict path)
    (state : σ) :
    (run runner { s with failurePolicy := .continue } mode files state).report =
        .ofOutcomes 0 (files.map verdict) ∧
      (run runner { s with failurePolicy := .continue } mode files state).events =
        protocol files.length (files.map verdict) := by
  rw [run_eq]
  unfold reached settled
  rw [attempted_continue, runFile_failurePolicy, length_trace, Nat.sub_self,
    map_trace _ (·.outcome) verdict files h]
  exact ⟨rfl, rfl⟩

/-- A session that stops reports the verdicts on the files up to the first that fails. -/
theorem run_failFast
    (h : ∀ path ∈ files, ∀ state, (runFile runner s mode path state).outcome = verdict path)
    (state : σ) :
    let k := files.findIdx (fun path => !(verdict path).passed) + 1
    (run runner { s with failurePolicy := .failFast } mode files state).report =
        .ofOutcomes (files.length - k) ((files.take k).map verdict) ∧
      (run runner { s with failurePolicy := .failFast } mode files state).events =
        protocol files.length ((files.take k).map verdict) := by
  intro k
  have htrace : ((trace (runFile runner s mode) files state).map (·.outcome)) =
      files.map verdict := map_trace _ (·.outcome) verdict files h state
  have hk : (trace (runFile runner s mode) files state).findIdx
      (fun file => !file.outcome.passed) + 1 = k := by
    have hidx := congrArg (List.findIdx fun o : Outcome => !o.passed) htrace
    rw [List.findIdx_map, List.findIdx_map] at hidx
    exact congrArg (· + 1) hidx
  rw [run_eq]
  unfold reached settled
  rw [runFile_failurePolicy, attempted_failFast_eq_take, hk, List.length_take, length_trace,
    List.map_take, htrace, ← List.map_take,
    show files.length - min k files.length = files.length - k by omega]
  exact ⟨rfl, rfl⟩

/-- A session that stops early has one failure. -/
theorem run_failFast_failed
    (h : ∀ path ∈ files, ∀ state, (runFile runner s mode path state).outcome = verdict path)
    (hfails : ¬ ∀ path ∈ files, (verdict path).passed = true) (state : σ) :
    (run runner { s with failurePolicy := .failFast } mode files state).report.failed = 1 := by
  have htrace := map_trace (runFile runner s mode) (·.outcome) verdict files h state
  have hsome : ¬ ∀ file ∈ trace (runFile runner s mode) files state,
      file.outcome.passed = true := by
    intro hall
    refine hfails fun path hp => ?_
    have hmem : verdict path ∈ files.map verdict := List.mem_map_of_mem hp
    rw [← htrace] at hmem
    obtain ⟨file, hfile, heq⟩ := List.mem_map.mp hmem
    rw [← heq]
    exact hall file hfile
  rw [run_eq]
  unfold reached
  rw [runFile_failurePolicy]
  show List.countP _ (List.map _ _) = 1
  rw [List.countP_map]
  exact countP_attempted_failFast hsome

end PathOnly

/-- **Stopping refines continuing.** Without a failure the two sessions are the same.  Else let the
`k`-th file be the first to fail: stopping tells and reports what continuing over the first `k`
files does, but for the files left out and the total in the events. -/
theorem failFast_refines_continue (runner : Runner σ) (s : Settings) (mode : Mode)
    (files : List Path) (verdict : Path → Outcome)
    (h : ∀ path ∈ files, ∀ state, (runFile runner s mode path state).outcome = verdict path) :
    let fast := run runner { s with failurePolicy := .failFast } mode
    let full := run runner { s with failurePolicy := .continue } mode
    let k := files.findIdx (fun path => !(verdict path).passed) + 1
    ((∀ path ∈ files, (verdict path).passed = true) → ∀ state state',
      (fast files state).events = (full files state').events ∧
        (fast files state).report = (full files state').report) ∧
    ((¬ ∀ path ∈ files, (verdict path).passed = true) → ∀ state state',
      k ≤ files.length ∧
        (fast files state).report =
          { (full (files.take k) state').report with notRun := files.length - k } ∧
        (full (files.take k) state').report.notRun = 0 ∧
        (fast files state).report.failed = 1 ∧
        (fast files state).events.filterMap Event.outcome? =
          (full (files.take k) state').events.filterMap Event.outcome? ∧
        (fast files state).events =
          (full (files.take k) state').events.map (Event.withTotal files.length)) ∧
    (∀ xs ys, files = xs ++ ys → ∀ state stateX stateY,
      (full files state).report.passed =
          (full xs stateX).report.passed + (full ys stateY).report.passed ∧
        (full files state).report.failed =
          (full xs stateX).report.failed + (full ys stateY).report.failed ∧
        (full files state).report.failures =
          (full xs stateX).report.failures ++ (full ys stateY).report.failures) := by
  intro fast full k
  have hfast : ∀ state,
      (fast files state).report = .ofOutcomes (files.length - k) ((files.take k).map verdict) ∧
        (fast files state).events = protocol files.length ((files.take k).map verdict) :=
    fun state => run_failFast h state
  have hfull : ∀ part : List Path, (∀ path ∈ part, path ∈ files) → ∀ state,
      (full part state).report = .ofOutcomes 0 (part.map verdict) ∧
        (full part state).events = protocol part.length (part.map verdict) :=
    fun part hpart state => run_continue (fun path hp => h path (hpart path hp)) state
  refine ⟨fun hall state state' => ?_, fun hfails state state' => ?_,
    fun xs ys hfiles state stateX stateY => ?_⟩
  · -- nothing fails, so the first failure lies behind the end
    have hlen : files.length ≤ k := by
      have hidx : files.findIdx (fun path => !(verdict path).passed) = files.length :=
        List.findIdx_eq_length_of_false fun path hp => by simp [hall path hp]
      omega
    obtain ⟨hreport, hevents⟩ := hfast state
    obtain ⟨hreport', hevents'⟩ := hfull files (fun _ hp => hp) state'
    rw [List.take_of_length_le hlen] at hreport hevents
    rw [hevents, hevents', hreport, hreport', Nat.sub_eq_zero_of_le hlen]
    exact ⟨rfl, rfl⟩
  · have hlt : k ≤ files.length := by
      refine List.findIdx_lt_length_of_exists ?_
      simpa using hfails
    have htake : (files.take k).length = k := List.length_take_of_le hlt
    obtain ⟨hreport, hevents⟩ := hfast state
    obtain ⟨hreport', hevents'⟩ := hfull (files.take k) (fun _ => List.mem_of_mem_take) state'
    have hmap : (fast files state).events =
        (full (files.take k) state').events.map (Event.withTotal files.length) := by
      rw [hevents, hevents', map_withTotal_protocol]
    refine ⟨hlt, ?_, ?_, run_failFast_failed h hfails state, ?_, hmap⟩
    · rw [hreport, hreport']
      rfl
    · rw [hreport']
      rfl
    · rw [hmap, List.filterMap_map]
      exact congrArg (List.filterMap · _) (funext (Event.outcome?_withTotal files.length))
  · obtain ⟨hreport, -⟩ := hfull files (fun _ hp => hp) state
    obtain ⟨hreportX, -⟩ := hfull xs (fun path hp => hfiles ▸ List.mem_append_left ys hp) stateX
    obtain ⟨hreportY, -⟩ := hfull ys (fun path hp => hfiles ▸ List.mem_append_right xs hp) stateY
    rw [hreport, hreportX, hreportY, hfiles, List.map_append]
    exact Report.ofOutcomes_append (xs.map verdict) (ys.map verdict)

/-- A runner that counts its calls and whose compiler hangs on the file `b`. -/
def hangingRunner : Runner Nat where
  runPipeline _ _ _ calls := (.ok (.ofLines [] []), calls + 1)
  runCompiler _ _ path calls :=
    (if path = .ofText ['b'] then .error (.timeout ⟨0⟩) else .ok (.ofLines [] []), calls + 1)

/-- Of three files the second fails: one passed, one failed, one is left out. -/
theorem failFast_refines_continue_second_of_three :
    let files : List Path := [.ofText ['a'], .ofText ['b'], .ofText ['c']]
    let verdict := fun path => (runFile hangingRunner .initial .smoke path 0).outcome
    let fast := run hangingRunner { Settings.initial with failurePolicy := .failFast } .smoke
    let full := run hangingRunner { Settings.initial with failurePolicy := .continue } .smoke
    (∀ path ∈ files, ∀ calls,
        (runFile hangingRunner .initial .smoke path calls).outcome = verdict path) ∧
      (¬ ∀ path ∈ files, (verdict path).passed = true) ∧
      (fast files 0).report = { (full (files.take 2) 7).report with notRun := 1 } ∧
      (fast files 0).report.failed = 1 ∧ (full (files.take 2) 7).report.passed = 1 := by
  intro files verdict fast full
  have hverdict : ∀ path ∈ files, ∀ calls,
      (runFile hangingRunner .initial .smoke path calls).outcome = verdict path := by
    intro path hp calls
    simp only [files, List.mem_cons, List.not_mem_nil, or_false] at hp
    rcases hp with rfl | rfl | rfl <;> rfl
  have hfails : ¬ ∀ path ∈ files, (verdict path).passed = true := by decide
  obtain ⟨-, hstop, -⟩ := failFast_refines_continue hangingRunner .initial .smoke files verdict
    hverdict
  obtain ⟨-, hreport, -, hfailed, -⟩ := hstop hfails 0 7
  exact ⟨hverdict, hfails, hreport, hfailed, by decide⟩

end Session

end Conformance
