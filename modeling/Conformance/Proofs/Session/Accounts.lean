import Conformance.Session.Run

/-!
# What a session accounts for

`trace` runs all files of a list one after another, and `attempted` cuts this short as the failure
policy asks.  A session over the list is then settled by the results that were attempted
(`run_eq`): they decide its report, its events, its measurements and its last state.  The step is
`runFrom_cons`, the run is its induction `runFrom_settled`.  Of the results, the outcomes decide
how far a session comes, so sessions with the same outcomes report the same (`run_report_congr`).
-/

namespace Conformance

/-! ## Reports -/

namespace Report

/-- The report on files with the given outcomes, `notRun` more being left out. -/
def ofOutcomes (notRun : Nat) (outcomes : List Outcome) : Report where
  passed := outcomes.countP (·.passed)
  failed := outcomes.countP (!·.passed)
  notRun := notRun
  failures := outcomes.filter (!·.passed)

theorem ofOutcomes_concat (notRun : Nat) (outcomes : List Outcome) (o : Outcome) :
    ofOutcomes notRun (outcomes ++ [o]) = (ofOutcomes notRun outcomes).add o := by
  unfold add ofOutcomes
  by_cases h : o.passed = true
  · simp [h]
  · simp [h]

/-- Reports on files that were all run add up. -/
theorem ofOutcomes_append (outcomes more : List Outcome) :
    (ofOutcomes 0 (outcomes ++ more)).passed =
        (ofOutcomes 0 outcomes).passed + (ofOutcomes 0 more).passed ∧
      (ofOutcomes 0 (outcomes ++ more)).failed =
        (ofOutcomes 0 outcomes).failed + (ofOutcomes 0 more).failed ∧
      (ofOutcomes 0 (outcomes ++ more)).failures =
        (ofOutcomes 0 outcomes).failures ++ (ofOutcomes 0 more).failures :=
  ⟨List.countP_append, List.countP_append, List.filter_append ..⟩

theorem passed_add_failed (notRun : Nat) (outcomes : List Outcome) :
    (ofOutcomes notRun outcomes).passed + (ofOutcomes notRun outcomes).failed =
      outcomes.length := by
  show outcomes.countP (·.passed) + outcomes.countP (!·.passed) = outcomes.length
  rw [List.length_eq_countP_add_countP (·.passed)]
  simp

theorem length_failures (notRun : Nat) (outcomes : List Outcome) :
    (ofOutcomes notRun outcomes).failures.length = (ofOutcomes notRun outcomes).failed :=
  List.countP_eq_length_filter.symm

/-- A report counts no failure exactly if every file passed. -/
theorem failed_eq_zero_iff {notRun : Nat} {outcomes : List Outcome} :
    (ofOutcomes notRun outcomes).failed = 0 ↔ ∀ o ∈ outcomes, o.passed = true := by
  show outcomes.countP (!·.passed) = 0 ↔ _
  simp [List.countP_eq_zero]

end Report

namespace Session

variable {σ : Type}

/-! ## Events -/

/-- The events of a session over `total` files, up to the last of the given outcomes. -/
def protocol (total : Nat) (outcomes : List Outcome) : List Event :=
  (outcomes.zipIdx 1).flatMap fun (o, index) =>
    [.started index total o.name, .finished index total o]

theorem protocol_concat (total : Nat) (outcomes : List Outcome) (o : Outcome) :
    protocol total (outcomes ++ [o]) = protocol total outcomes ++
      [.started (outcomes.length + 1) total o.name, .finished (outcomes.length + 1) total o] := by
  unfold protocol
  rw [List.zipIdx_append, List.flatMap_append, Nat.add_comm 1]
  rfl

/-! ## Files one after another -/

/-- The results of all files, each run from the state that the one before it left behind. -/
def trace (runFile : Path → σ → FileResult σ) : List Path → σ → List (FileResult σ)
  | [], _ => []
  | path :: rest, state => runFile path state :: trace runFile rest (runFile path state).state

/-- The results that a session comes to: all of them, unless it stops behind the first failure. -/
def attempted (policy : FailurePolicy) : List (FileResult σ) → List (FileResult σ)
  | [] => []
  | file :: rest =>
    if !file.outcome.passed && policy == .failFast then [file] else file :: attempted policy rest

theorem length_trace (runFile : Path → σ → FileResult σ) (files : List Path) (state : σ) :
    (trace runFile files state).length = files.length := by
  induction files generalizing state with
  | nil => rfl
  | cons path rest ih => rw [trace, List.length_cons, List.length_cons, ih]

theorem trace_take (runFile : Path → σ → FileResult σ) (k : Nat) (files : List Path) (state : σ) :
    trace runFile (files.take k) state = (trace runFile files state).take k := by
  induction files generalizing k state with
  | nil => simp [trace]
  | cons path rest ih =>
    cases k with
    | zero => rfl
    | succ k => rw [List.take_succ_cons, trace, trace, List.take_succ_cons, ih]

/-- What holds of a file's result from every state holds along a trace. -/
theorem map_trace {α : Type} (runFile : Path → σ → FileResult σ) (view : FileResult σ → α)
    (expected : Path → α) (files : List Path)
    (h : ∀ path ∈ files, ∀ state, view (runFile path state) = expected path) (state : σ) :
    (trace runFile files state).map view = files.map expected := by
  induction files generalizing state with
  | nil => rfl
  | cons path rest ih =>
    rw [trace, List.map_cons, List.map_cons, h path List.mem_cons_self,
      ih fun p hp => h p (List.mem_cons_of_mem _ hp)]

theorem attempted_continue (results : List (FileResult σ)) :
    attempted .continue results = results := by
  induction results with
  | nil => rfl
  | cons file rest ih => simp [attempted, ih]

/-- A session that stops at the first failure comes to all files if none fails, and else to those
up to the first that does. -/
theorem attempted_failFast (results : List (FileResult σ)) :
    ((∀ file ∈ results, file.outcome.passed = true) ∧ attempted .failFast results = results) ∨
      ∃ before file behind, results = before ++ file :: behind ∧
        (∀ f ∈ before, f.outcome.passed = true) ∧ file.outcome.passed = false ∧
        attempted .failFast results = before ++ [file] := by
  induction results with
  | nil => exact .inl ⟨by simp, rfl⟩
  | cons first rest ih =>
    by_cases h : first.outcome.passed = true
    · have hstep : attempted .failFast (first :: rest) = first :: attempted .failFast rest := by
        simp [attempted, h]
      obtain ⟨hall, heq⟩ | ⟨before, file, behind, hrest, hbefore, hfile, heq⟩ := ih
      · exact .inl ⟨by simpa [h] using hall, by rw [hstep, heq]⟩
      · refine .inr ⟨first :: before, file, behind, by rw [hrest]; rfl, ?_, hfile, ?_⟩
        · simpa [h] using hbefore
        · rw [hstep, heq, List.cons_append]
    · refine .inr ⟨[], first, rest, rfl, by simp, by simpa using h, ?_⟩
      simp [attempted, h]

theorem attempted_prefix_results (policy : FailurePolicy) (results : List (FileResult σ)) :
    attempted policy results <+: results := by
  cases policy with
  | «continue» => exact ⟨[], by rw [attempted_continue, List.append_nil]⟩
  | failFast =>
    obtain ⟨-, heq⟩ | ⟨before, file, behind, hres, -, -, heq⟩ := attempted_failFast results
    · exact ⟨[], by rw [heq, List.append_nil]⟩
    · exact ⟨behind, by rw [heq, hres, List.append_assoc]; rfl⟩

/-- A session that meets no failure comes to all files. -/
theorem attempted_eq_self {policy : FailurePolicy} {results : List (FileResult σ)}
    (h : ∀ file ∈ attempted policy results, file.outcome.passed = true) :
    attempted policy results = results := by
  cases policy with
  | «continue» => exact attempted_continue results
  | failFast =>
    obtain ⟨-, heq⟩ | ⟨before, file, behind, -, -, hfile, heq⟩ := attempted_failFast results
    · exact heq
    · have hpassed := h file (by rw [heq]; exact List.mem_append_right _ List.mem_cons_self)
      rw [hfile] at hpassed
      exact absurd hpassed Bool.false_ne_true

/-- A session that leaves files out has failed at its last file, and only there. -/
theorem attempted_failFast_of_lt {results : List (FileResult σ)}
    (h : (attempted .failFast results).length < results.length) :
    ∃ before file, attempted .failFast results = before ++ [file] ∧
      (∀ f ∈ before, f.outcome.passed = true) ∧ file.outcome.passed = false := by
  obtain ⟨-, heq⟩ | ⟨before, file, behind, -, hbefore, hfile, heq⟩ := attempted_failFast results
  · rw [heq] at h
    exact absurd h (Nat.lt_irrefl _)
  · exact ⟨before, file, heq, hbefore, hfile⟩

/-! ## The run -/

/-- What a session over `total` files has gathered once it has the given results, with `notRun`
files left out. -/
def settled (total notRun : Nat) (start : σ) (results : List (FileResult σ)) : Result σ where
  report := .ofOutcomes notRun (results.map (·.outcome))
  events := protocol total (results.map (·.outcome))
  measured := results.flatMap fun file => file.measured ++ [file.outcome.operation]
  state := (results.getLast?.map (·.state)).getD start

theorem settled_nil_state (total : Nat) (start : σ) : (settled total 0 start []).state = start := rfl

/-- **One file.** The next file is added to what is settled; the session ends with it if it failed
and the policy says so. -/
theorem runFrom_cons {runFile : Path → σ → FileResult σ} {s : Settings} {total : Nat}
    {path : Path} {state start : σ} {done : List (FileResult σ)}
    (hstate : (settled total 0 start done).state = state)
    (hname : (runFile path state).outcome.name = nameOf s path) (rest : List Path) :
    runFrom runFile s total done.length (settled total 0 start done) (path :: rest) =
      let file := runFile path state
      if !file.outcome.passed && s.failurePolicy == .failFast then
        settled total (total - (done.length + 1)) start (done ++ [file])
      else
        runFrom runFile s total (done ++ [file]).length (settled total 0 start (done ++ [file]))
          rest := by
  have hnext : ∀ file : FileResult σ, file.outcome.name = nameOf s path →
      settled total 0 start (done ++ [file]) =
        { report := (settled total 0 start done).report.add file.outcome
          events := (settled total 0 start done).events ++
            [.started (done.length + 1) total (nameOf s path),
              .finished (done.length + 1) total file.outcome]
          measured := (settled total 0 start done).measured ++ file.measured ++
            [file.outcome.operation]
          state := file.state } := by
    intro file hfile
    simp [settled, Report.ofOutcomes_concat, protocol_concat, hfile]
  rw [runFrom, hstate, ← hnext _ hname]
  simp only [List.length_append, List.length_singleton]
  rfl

/-- **The run.** -/
theorem runFrom_settled {runFile : Path → σ → FileResult σ} {s : Settings} {total : Nat}
    {start state : σ} {done : List (FileResult σ)} {files : List Path}
    (hstate : (settled total 0 start done).state = state)
    (hname : ∀ path ∈ files, ∀ state, (runFile path state).outcome.name = nameOf s path)
    (htotal : total = done.length + files.length) :
    runFrom runFile s total done.length (settled total 0 start done) files =
      let now := attempted s.failurePolicy (trace runFile files state)
      settled total (files.length - now.length) start (done ++ now) := by
  induction files generalizing done state with
  | nil => simp [runFrom, trace, attempted]
  | cons path rest ih =>
    rw [runFrom_cons hstate (hname path List.mem_cons_self state)]
    simp only [trace, attempted]
    rw [List.length_cons] at htotal
    split
    · rw [List.length_cons, List.length_singleton,
        show total - (done.length + 1) = rest.length + 1 - 1 by omega]
    · have hlast : (settled total 0 start (done ++ [runFile path state])).state =
          (runFile path state).state := by simp [settled]
      rw [ih hlast (fun p hp => hname p (List.mem_cons_of_mem _ hp))
        (by rw [List.length_append, List.length_singleton]; omega)]
      simp

/-! ## The files of a session -/

theorem judge_path_name (s : Settings) (blank : Outcome) (reference candidate : CapturedRun) :
    (judge s blank reference candidate).path = blank.path ∧
      (judge s blank reference candidate).name = blank.name := by
  unfold judge
  split <;> exact ⟨rfl, rfl⟩

theorem inspect_path_name (blank : Outcome) (run : CapturedRun) :
    (inspect blank run).path = blank.path ∧ (inspect blank run).name = blank.name := by
  unfold inspect
  dsimp only
  split <;> exact ⟨rfl, rfl⟩

/-- The outcome of a file is about that file, under the name that the session shows. -/
theorem runFile_path_name (runner : Runner σ) (s : Settings) (mode : Mode) (path : Path)
    (state : σ) :
    (runFile runner s mode path state).outcome.path = path ∧
      (runFile runner s mode path state).outcome.name = nameOf s path := by
  cases mode with
  | compare =>
    show (compareFile runner s path state).outcome.path = path ∧
      (compareFile runner s path state).outcome.name = nameOf s path
    unfold compareFile
    dsimp only
    split
    · exact ⟨rfl, rfl⟩
    · split
      · exact ⟨rfl, rfl⟩
      · exact judge_path_name s (.clean path (nameOf s path)) ..
  | smoke =>
    show (smokeFile runner s path state).outcome.path = path ∧
      (smokeFile runner s path state).outcome.name = nameOf s path
    unfold smokeFile
    dsimp only
    split
    · exact ⟨rfl, rfl⟩
    · exact inspect_path_name (.clean path (nameOf s path)) _

/-- The results of the files that a session comes to. -/
def reached (runner : Runner σ) (s : Settings) (mode : Mode) (files : List Path) (state : σ) :
    List (FileResult σ) :=
  attempted s.failurePolicy (trace (runFile runner s mode) files state)

theorem length_reached_le (runner : Runner σ) (s : Settings) (mode : Mode) (files : List Path)
    (state : σ) : (reached runner s mode files state).length ≤ files.length := by
  rw [← length_trace (runFile runner s mode) files state]
  exact (attempted_prefix_results ..).length_le

theorem reached_eq_take (runner : Runner σ) (s : Settings) (mode : Mode) (files : List Path)
    (state : σ) :
    reached runner s mode files state =
      (trace (runFile runner s mode) files state).take (reached runner s mode files state).length :=
  List.prefix_iff_eq_take.mp (attempted_prefix_results ..)

/-- What a file's result shows of its path alone is shown of the first files of the list. -/
theorem map_reached {α : Type} (runner : Runner σ) (s : Settings) (mode : Mode)
    (files : List Path) (view : FileResult σ → α) (expected : Path → α)
    (h : ∀ path ∈ files, ∀ state, view (runFile runner s mode path state) = expected path)
    (state : σ) :
    (reached runner s mode files state).map view =
      (files.take (reached runner s mode files state).length).map expected := by
  rw [← map_trace (runFile runner s mode) view expected _
    (fun path hp => h path (List.mem_of_mem_take hp)) state, trace_take, ← reached_eq_take]

/-- A session is settled by the results that it comes to. -/
theorem run_eq (runner : Runner σ) (s : Settings) (mode : Mode) (files : List Path) (state : σ) :
    run runner s mode files state =
      settled files.length (files.length - (reached runner s mode files state).length) state
        (reached runner s mode files state) := by
  have hname : ∀ path ∈ files, ∀ state,
      (runFile runner s mode path state).outcome.name = nameOf s path :=
    fun path _ state => (runFile_path_name runner s mode path state).2
  have hrun := runFrom_settled (settled_nil_state files.length state) hname (Nat.zero_add _).symm
  exact hrun

/-! ## Sessions with given outcomes -/

/-- How far a session comes depends on the outcomes alone. -/
theorem map_attempted_congr {τ : Type} {policy : FailurePolicy} {results : List (FileResult σ)}
    {others : List (FileResult τ)} (h : results.map (·.outcome) = others.map (·.outcome)) :
    (attempted policy results).map (·.outcome) = (attempted policy others).map (·.outcome) := by
  induction results generalizing others with
  | nil =>
    cases others with
    | nil => rfl
    | cons other others => exact absurd h.symm (List.cons_ne_nil _ _)
  | cons file results ih =>
    cases others with
    | nil => exact absurd h (List.cons_ne_nil _ _)
    | cons other others =>
      obtain ⟨hfile, hrest⟩ : file.outcome = other.outcome ∧ _ := List.cons.inj h
      unfold attempted
      rw [hfile]
      split
      · rw [List.map_singleton, List.map_singleton, hfile]
      · rw [List.map_cons, List.map_cons, hfile, ih hrest]

section Outcomes

variable {runner : Runner σ} {s : Settings} {mode : Mode} {files : List Path} {state : σ}
  {outcomes : List Outcome}

/-- Two sessions report the same where the files have the same outcomes. -/
theorem run_report_congr {τ : Type} {runner' : Runner τ} {state' : τ}
    (h : (trace (runFile runner s mode) files state).map (·.outcome) =
      (trace (runFile runner' s mode) files state').map (·.outcome)) :
    (run runner s mode files state).report = (run runner' s mode files state').report := by
  have hreached : (reached runner s mode files state).map (·.outcome) =
      (reached runner' s mode files state').map (·.outcome) := map_attempted_congr h
  have hlength := congrArg List.length hreached
  rw [List.length_map, List.length_map] at hlength
  rw [run_eq, run_eq]
  unfold settled
  rw [hreached, hlength]

/-- A session reports on as many of the outcomes as it counts, the first, and tells them in
order. -/
theorem run_of_outcomes
    (h : (trace (runFile runner s mode) files state).map (·.outcome) = outcomes) :
    let r := run runner s mode files state
    r.report = .ofOutcomes (files.length - r.report.total) (outcomes.take r.report.total) ∧
      r.events = protocol files.length (outcomes.take r.report.total) := by
  intro r
  have hr : r = _ := run_eq runner s mode files state
  have htake := reached_eq_take runner s mode files state
  generalize reached runner s mode files state = now at hr htake
  have htotal : r.report.total = now.length := by
    rw [hr]
    exact (Report.passed_add_failed ..).trans (List.length_map ..)
  have hnow : outcomes.take now.length = now.map (·.outcome) := by
    rw [← h, ← List.map_take, ← htake]
  rw [htotal, hnow, hr]
  exact ⟨rfl, rfl⟩

/-- The outcomes are about the files of the list, one by one. -/
theorem map_path_outcomes
    (h : (trace (runFile runner s mode) files state).map (·.outcome) = outcomes) :
    outcomes.map (·.path) = files := by
  have hpaths := map_trace (runFile runner s mode) (·.outcome.path) id files
    (fun path _ state => (runFile_path_name runner s mode path state).1) state
  rw [List.map_id] at hpaths
  rw [← h, List.map_map]
  exact hpaths

end Outcomes

/-! ## The account -/

/-- **Accounting.** Let a session over `n` files come to the first `k` of them.  It tells of each
that it is begun and that it is done, in order and once; it counts each as passed or failed, keeps
the outcomes that failed in order, and leaves out the other `n - k`.  A session that continues
leaves out none, and one that stops early has only its last outcome failed. -/
theorem run_accounting (runner : Runner σ) (s : Settings) (mode : Mode) (files : List Path)
    (state : σ) :
    let r := run runner s mode files state
    let n := files.length
    ∃ (k : Nat) (outcomes : List Outcome), k ≤ n ∧ outcomes.length = k ∧
      outcomes = ((trace (runFile runner s mode) files state).take k).map (·.outcome) ∧
      outcomes.map (·.path) = files.take k ∧
      outcomes.map (·.name) = (files.take k).map (nameOf s) ∧
      r.events = protocol n outcomes ∧
      r.report.passed + r.report.failed = k ∧
      r.report.passed + r.report.failed + r.report.notRun = n ∧
      r.report.passed = outcomes.countP (·.passed) ∧
      r.report.failures = outcomes.filter (!·.passed) ∧
      r.report.failures.length = r.report.failed ∧
      match s.failurePolicy with
      | .continue => k = n ∧ r.report.notRun = 0
      | .failFast => k < n → ∃ before last, outcomes = before ++ [last] ∧
          (∀ o ∈ before, o.passed = true) ∧ last.passed = false := by
  intro r n
  have hr : r = _ := run_eq runner s mode files state
  have hk : _ ≤ n := length_reached_le runner s mode files state
  have htake := reached_eq_take runner s mode files state
  have hpath := map_reached runner s mode files (·.outcome.path) id
    (fun path _ state => (runFile_path_name runner s mode path state).1) state
  have hname := map_reached runner s mode files (·.outcome.name) (nameOf s)
    (fun path _ state => (runFile_path_name runner s mode path state).2) state
  have hpolicy : reached runner s mode files state = attempted s.failurePolicy _ := rfl
  generalize reached runner s mode files state = now at hr hk htake hpath hname hpolicy
  have hcounts := Report.passed_add_failed (n - now.length) (now.map (·.outcome))
  rw [List.length_map] at hcounts
  rw [hr]
  refine ⟨now.length, now.map (·.outcome), hk, List.length_map .., by rw [← htake], ?_, ?_, rfl,
    hcounts, ?_, rfl, rfl, Report.length_failures .., ?_⟩
  · rw [List.map_map, ← List.map_id (files.take now.length)]
    exact hpath
  · rw [List.map_map]
    exact hname
  · calc _ = now.length + (n - now.length) := congrArg (· + (n - now.length)) hcounts
      _ = n := by omega
  · cases hp : s.failurePolicy with
    | «continue» =>
      rw [hp, attempted_continue] at hpolicy
      have hall : now.length = n := by rw [hpolicy, length_trace]
      exact ⟨hall, by show n - now.length = 0; omega⟩
    | failFast =>
      intro hlt
      rw [hp] at hpolicy
      have hn : n = (trace (runFile runner s mode) files state).length := (length_trace ..).symm
      rw [hpolicy, hn] at hlt
      obtain ⟨before, file, heq, hbefore, hfile⟩ := attempted_failFast_of_lt hlt
      refine ⟨before.map (·.outcome), file.outcome, ?_, ?_, hfile⟩
      · rw [hpolicy, heq, List.map_append]
        rfl
      · intro o ho
        obtain ⟨f, hf, rfl⟩ := List.mem_map.mp ho
        exact hbefore f hf

end Session

end Conformance
