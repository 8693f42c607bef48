import Conformance.Pipeline.Executor

/-!
# Settings

What a session is told: the two toolchains, the compiler, whether line markers are masked, how long
a run may take, where the corpus lies and whether to stop at the first failure.
-/

namespace Conformance

/-- What a session does after a file has failed. -/
inductive FailurePolicy
  | continue
  | failFast
  deriving DecidableEq, Repr

/-- The settings of a session. -/
structure Settings where
  reference : Toolchain
  candidate : Toolchain
  compiler : Invocation
  normalize : Bool
  timeout : Option Duration
  corpusDir : Path
  failurePolicy : FailurePolicy
  deriving DecidableEq, Repr

namespace Settings

def defaultCorpusDir : Text := "/afs/ir/class/cs143/examples/".toList
def defaultReferenceParser : Text := "/afs/ir/class/cs143/bin/parser".toList
def defaultLexer : Text := "./lexer".toList
def defaultCandidateParser : Text := "./parser".toList
def defaultCompiler : Text := "./mycoolc".toList
def defaultTimeoutSeconds : Nat := 10

/-- The name of the reference toolchain. -/
def referenceName : Text := "reference".toList

/-- The name of the candidate toolchain. -/
def candidateName : Text := "candidate".toList

/-- The settings before anything is chosen. -/
def initial : Settings where
  reference :=
    ⟨referenceName, .ofProgram defaultLexer, .ofProgram defaultReferenceParser⟩
  candidate :=
    ⟨candidateName, .ofProgram defaultLexer, .ofProgram defaultCandidateParser⟩
  compiler := .ofProgram defaultCompiler
  normalize := true
  timeout := some (.ofSeconds defaultTimeoutSeconds)
  corpusDir := .ofText defaultCorpusDir
  failurePolicy := .continue

/-- One choice; each sets one field. -/
inductive Choice
  | reference (lexer parser : Invocation)
  | candidate (lexer parser : Invocation)
  | compiler (compiler : Invocation)
  | normalize (on : Bool)
  | timeoutSeconds (seconds : Nat)
  | timeout (limit : Option Duration)
  | corpusDir (dir : Path)
  | failurePolicy (policy : FailurePolicy)
  deriving DecidableEq, Repr

/-- The time limit of a number of seconds; zero seconds mean no limit. -/
def limitOfSeconds (seconds : Nat) : Option Duration :=
  if seconds = 0 then none else some (.ofSeconds seconds)

/-- The settings after a choice. -/
def choose (s : Settings) : Choice → Settings
  | .reference lexer parser => { s with reference := ⟨referenceName, lexer, parser⟩ }
  | .candidate lexer parser => { s with candidate := ⟨candidateName, lexer, parser⟩ }
  | .compiler compiler => { s with compiler := compiler }
  | .normalize on => { s with normalize := on }
  | .timeoutSeconds seconds => { s with timeout := limitOfSeconds seconds }
  | .timeout limit => { s with timeout := limit }
  | .corpusDir dir => { s with corpusDir := dir }
  | .failurePolicy policy => { s with failurePolicy := policy }

/-- The settings after a sequence of choices. -/
def ofChoices (choices : List Choice) : Settings := choices.foldl choose initial

/-- The executor of a session, which has the time limit of the settings. -/
def executor (s : Settings) : Executor :=
  match s.timeout with
  | some limit => Executor.patient.withTimeout limit
  | none => .patient

end Settings

end Conformance
