import Mathlib.Data.List.Induction
import Mathlib.Logic.Function.Basic
import Conformance.Settings

/-!
# Settings by choices

Settings are read field by field (`Settings.get`), and a choice is an update of one of the fields:
it writes `Choice.value` to `Choice.field` and keeps the six others (`get_choose`).  So a field
depends on the choices for that field alone (`get_foldl_filter`), and of these on the last.  No
choice renames a toolchain (`named_ofChoices`).
-/

namespace Conformance.Settings

/-- The fields of settings. -/
inductive Field
  | reference
  | candidate
  | compiler
  | normalize
  | timeout
  | corpusDir
  | failurePolicy
  deriving DecidableEq, Repr

/-- What a field holds. -/
def Field.Value : Field → Type
  | reference => Toolchain
  | candidate => Toolchain
  | compiler => Invocation
  | normalize => Bool
  | timeout => Option Duration
  | corpusDir => Path
  | failurePolicy => FailurePolicy

/-- What settings hold in a field. -/
def get (s : Settings) : (f : Field) → f.Value
  | .reference => s.reference
  | .candidate => s.candidate
  | .compiler => s.compiler
  | .normalize => s.normalize
  | .timeout => s.timeout
  | .corpusDir => s.corpusDir
  | .failurePolicy => s.failurePolicy

theorem get_injective : Function.Injective get := by
  intro s s' h
  have hreference : s.reference = s'.reference := congrFun h .reference
  have hcandidate : s.candidate = s'.candidate := congrFun h .candidate
  have hcompiler : s.compiler = s'.compiler := congrFun h .compiler
  have hnormalize : s.normalize = s'.normalize := congrFun h .normalize
  have htimeout : s.timeout = s'.timeout := congrFun h .timeout
  have hcorpusDir : s.corpusDir = s'.corpusDir := congrFun h .corpusDir
  have hpolicy : s.failurePolicy = s'.failurePolicy := congrFun h .failurePolicy
  cases s
  cases s'
  simp_all

/-! ## One choice -/

namespace Choice

/-- The field that a choice writes. -/
def field : Choice → Field
  | reference .. => .reference
  | candidate .. => .candidate
  | compiler _ => .compiler
  | normalize _ => .normalize
  | timeoutSeconds _ => .timeout
  | timeout _ => .timeout
  | corpusDir _ => .corpusDir
  | failurePolicy _ => .failurePolicy

/-- The value that a choice writes.  Zero seconds are no time limit; a limit of no length is one. -/
def value : (c : Choice) → c.field.Value
  | reference lexer parser => (⟨"reference".toList, lexer, parser⟩ : Toolchain)
  | candidate lexer parser => (⟨"candidate".toList, lexer, parser⟩ : Toolchain)
  | compiler invocation => invocation
  | normalize on => on
  | timeoutSeconds seconds => if seconds = 0 then none else some (Duration.ofSeconds seconds)
  | timeout limit => limit
  | corpusDir dir => dir
  | failurePolicy policy => policy

end Choice

/-- **One choice.** Its field is written and the others are kept. -/
theorem get_choose (s : Settings) (c : Choice) :
    (s.choose c).get = Function.update s.get c.field c.value := by
  funext f
  by_cases hf : f = c.field
  · subst hf
    rw [Function.update_self]
    cases c <;> rfl
  · rw [Function.update_of_ne hf]
    cases c <;> cases f <;> first | rfl | exact absurd rfl hf

/-- Choices for different fields commute. -/
theorem choose_comm {c c' : Choice} (h : c.field ≠ c'.field) (s : Settings) :
    (s.choose c).choose c' = (s.choose c').choose c := by
  apply get_injective
  rw [get_choose, get_choose, get_choose, get_choose, Function.update_comm h]

/-! ## Many choices -/

/-- A field depends on the choices for it alone. -/
theorem get_foldl_filter (s : Settings) (choices : List Choice) (f : Field) :
    (choices.foldl choose s).get f =
      ((choices.filter fun c => c.field = f).foldl choose s).get f := by
  induction choices using List.reverseRecOn with
  | nil => rfl
  | append_singleton choices c ih =>
    rw [List.foldl_append, List.filter_append, List.foldl_append, List.foldl_cons, List.foldl_nil,
      get_choose]
    by_cases hf : c.field = f
    · subst hf
      simp [get_choose]
    · simp [hf, Function.update_of_ne (Ne.symm hf), ih]

theorem ofChoices_concat (choices : List Choice) (c : Choice) :
    ofChoices (choices ++ [c]) = (ofChoices choices).choose c := by
  rw [ofChoices, List.foldl_append]
  rfl

theorem get_ofChoices_last {c : Choice} (before : List Choice) {after : List Choice}
    (hafter : ∀ c' ∈ after, c'.field ≠ c.field) :
    (ofChoices (before ++ c :: after)).get c.field = c.value := by
  have hnone : after.filter (fun c' => c'.field = c.field) = [] :=
    List.filter_eq_nil_iff.mpr fun c' hc' => by simpa using hafter c' hc'
  rw [ofChoices, get_foldl_filter, List.filter_append, List.filter_cons_of_pos (by simp), hnone,
    List.foldl_append, List.foldl_cons, List.foldl_nil, get_choose, Function.update_self]

theorem get_ofChoices_untouched {choices : List Choice} {f : Field}
    (hnone : ∀ c ∈ choices, c.field ≠ f) : (ofChoices choices).get f = initial.get f := by
  have hnil : choices.filter (fun c => c.field = f) = [] :=
    List.filter_eq_nil_iff.mpr fun c hc => by simpa using hnone c hc
  rw [ofChoices, get_foldl_filter, hnil, List.foldl_nil]

theorem ofChoices_swap {c c' : Choice} (h : c.field ≠ c'.field) (before after : List Choice) :
    ofChoices (before ++ c :: c' :: after) = ofChoices (before ++ c' :: c :: after) := by
  simp only [ofChoices, List.foldl_append, List.foldl_cons, choose_comm h]

/-! ## Names of toolchains -/

/-- The two toolchains of the settings bear their names. -/
structure Named (s : Settings) : Prop where
  reference : s.reference.name = referenceName
  candidate : s.candidate.name = candidateName

theorem Named.choose {s : Settings} (h : s.Named) (c : Choice) : (s.choose c).Named := by
  cases c with
  | reference => exact ⟨rfl, h.candidate⟩
  | candidate => exact ⟨h.reference, rfl⟩
  | _ => exact ⟨h.reference, h.candidate⟩

/-- No choice takes the toolchains their names. -/
theorem named_ofChoices (choices : List Choice) : (ofChoices choices).Named := by
  induction choices using List.reverseRecOn with
  | nil => exact ⟨rfl, rfl⟩
  | append_singleton choices c ih =>
    rw [ofChoices_concat]
    exact ih.choose c

/-! ## The executor -/

theorem executor_eq (s : Settings) : s.executor = ⟨s.timeout⟩ := by
  unfold executor
  cases s.timeout <;> rfl

/-- **The last choice for a field decides it.** Of any choices, a field holds what the last for it
writes, and what it holds initially if there is none; two neighbours for different fields may change
places.  The toolchains keep their names.  The executor has the time limit that is set, and it is
patient only if none is: a limit of no length, if set as such, is kept. -/
theorem ofChoices_last_wins :
    (∀ before c after, (∀ c' ∈ after, c'.field ≠ c.field) →
      (ofChoices (before ++ c :: after)).get c.field = c.value) ∧
    (∀ choices f, (∀ c ∈ choices, c.field ≠ f) → (ofChoices choices).get f = initial.get f) ∧
    (∀ before c c' after, c.field ≠ c'.field →
      ofChoices (before ++ c :: c' :: after) = ofChoices (before ++ c' :: c :: after)) ∧
    (∀ choices, (ofChoices choices).reference.name = "reference".toList ∧
      (ofChoices choices).candidate.name = "candidate".toList) ∧
    (∀ s : Settings, s.executor.timeout = s.timeout ∧ (s.executor = .patient ↔ s.timeout = none)) ∧
    ∀ before limit after, (∀ c ∈ after, c.field ≠ .timeout) →
      (ofChoices (before ++ .timeout limit :: after)).executor.timeout = limit := by
  refine ⟨fun before c after => get_ofChoices_last before,
    fun choices f => get_ofChoices_untouched,
    fun before c c' after h => ofChoices_swap h before after,
    fun choices => ⟨(named_ofChoices choices).reference, (named_ofChoices choices).candidate⟩,
    fun s => ⟨?_, ?_⟩, fun before limit after hafter => ?_⟩
  · rw [executor_eq]
  · rw [executor_eq, Executor.patient, Executor.mk.injEq]
  · rw [executor_eq]
    exact get_ofChoices_last (c := .timeout limit) before hafter

/-- A limit of no length is kept; a number of zero seconds, given later, takes it away. -/
theorem ofChoices_last_wins_zero :
    let choices : List Choice := [.timeoutSeconds 5, .normalize false, .timeout (some ⟨0⟩)]
    let dir : Choice := .corpusDir (.ofText "corpus".toList)
    (ofChoices (choices ++ [dir])).executor.timeout = some ⟨0⟩ ∧
      (ofChoices (choices ++ [dir])).get .normalize = false ∧
      (ofChoices (choices ++ [dir])).get .compiler = initial.compiler ∧
      ofChoices (choices ++ [dir, .timeoutSeconds 0]) =
        ofChoices (choices ++ [.timeoutSeconds 0, dir]) ∧
      (ofChoices (choices ++ [dir, .timeoutSeconds 0])).executor.timeout = none := by
  intro choices dir
  obtain ⟨hlast, huntouched, hswap, -, hexecutor, hlimit⟩ := ofChoices_last_wins
  refine ⟨hlimit [.timeoutSeconds 5, .normalize false] (some ⟨0⟩) [dir] (by decide),
    hlast [.timeoutSeconds 5] (.normalize false) [.timeout (some ⟨0⟩), dir] (by decide),
    huntouched _ .compiler (by decide), hswap choices dir (.timeoutSeconds 0) [] (by decide), ?_⟩
  rw [(hexecutor _).1]
  exact hlast (choices ++ [dir]) (.timeoutSeconds 0) [] (by decide)

end Conformance.Settings
