import Conformance.Arguments.Reader
import Conformance.Settings

/-!
# The command line

The three commands with their options, and how an argument list is read as one of them.  The three
global flags may stand in front of the command, behind it, or once in each place.
-/

namespace Conformance

/-- The options that both comparing commands have. -/
structure ToolchainOptions where
  referenceLexer : Invocation
  referenceParser : Invocation
  candidateLexer : Invocation
  candidateParser : Invocation
  noNormalize : Bool
  timeout : Nat
  deriving DecidableEq, Repr

/-- What the program is asked to do. -/
inductive Command
  | dir (dir : Path) (filter : Option Text) (toolchains : ToolchainOptions)
  | files (listed : List Path) (corpus : Path) (toolchains : ToolchainOptions)
  | smoke (dir : Path) (compiler : Invocation) (filter : Option Text) (timeout : Nat)
  deriving DecidableEq, Repr

/-- A command with the global flags. -/
structure CommandLine where
  metrics : Bool
  verbose : Bool
  silent : Bool
  command : Command
  deriving DecidableEq, Repr

namespace CommandLine

open Arguments

/-! ## The grammar -/

def metricsName : Text := "metrics".toList
def verboseName : Text := "verbose".toList
def silentName : Text := "silent".toList
def filterName : Text := "filter".toList
def corpusName : Text := "corpus".toList
def compilerName : Text := "compiler".toList
def timeoutName : Text := "timeout".toList
def referenceLexerName : Text := "reference-lexer".toList
def referenceParserName : Text := "reference-parser".toList
def candidateLexerName : Text := "candidate-lexer".toList
def candidateParserName : Text := "candidate-parser".toList
def noNormalizeName : Text := "no-normalize".toList

/-- The flags that every command knows. -/
def globalOptions : List Opt :=
  [⟨metricsName, none, .flag⟩, ⟨verboseName, some 'v', .flag⟩, ⟨silentName, some 's', .flag⟩,
    ⟨"help".toList, some 'h', .help⟩]

/-- The options of the toolchains. -/
def toolchainOptions : List Opt :=
  [⟨referenceLexerName, none, .valued .command⟩, ⟨referenceParserName, none, .valued .command⟩,
    ⟨candidateLexerName, none, .valued .command⟩, ⟨candidateParserName, none, .valued .command⟩,
    ⟨noNormalizeName, none, .flag⟩, ⟨timeoutName, none, .valued .seconds⟩]

/-- No command line is both verbose and silent. -/
def exclusions : List (Text × Text) := [(silentName, verboseName)]

/-- The operand of the commands that take a directory. -/
def directoryOperand : Operand := ⟨"[DIR]".toList, false, false⟩

/-- The operand of the command that takes files. -/
def filesOperand : Operand := ⟨"<FILE>...".toList, true, true⟩

/-- The grammar in front of the command. -/
def outerGrammar : Grammar :=
  ⟨globalOptions ++ [⟨"version".toList, some 'V', .version⟩], none, exclusions⟩

/-- The three commands. -/
inductive Verb
  | dir
  | files
  | smoke
  deriving DecidableEq, Repr

/-- The word for a command. -/
def Verb.name : Verb → Text
  | dir => "dir".toList
  | files => "files".toList
  | smoke => "smoke".toList

/-- The command that a word stands for. -/
def Verb.ofName? (t : Text) : Option Verb := [dir, files, smoke].find? (·.name == t)

/-- The grammar behind a command. -/
def Verb.grammar : Verb → Grammar
  | dir => ⟨⟨filterName, none, .valued .text⟩ :: toolchainOptions ++ globalOptions,
      some directoryOperand, exclusions⟩
  | files => ⟨⟨corpusName, none, .valued .path⟩ :: toolchainOptions ++ globalOptions,
      some filesOperand, exclusions⟩
  | smoke => ⟨[⟨compilerName, none, .valued .command⟩, ⟨filterName, none, .valued .text⟩,
        ⟨timeoutName, none, .valued .seconds⟩] ++ globalOptions,
      some directoryOperand, exclusions⟩

/-! ## From what was given to a command -/

/-- The text given for an option. -/
def textOf (r : Reading) (name : Text) : Option Text :=
  match r.find? (.option name) with
  | some [.text t] => some t
  | _ => none

/-- The path given for an option, or else its default. -/
def pathOf (r : Reading) (name : Text) (default : Text) : Path :=
  match r.find? (.option name) with
  | some [.path p] => p
  | _ => .ofText default

/-- The number of seconds given for an option, or else its default. -/
def secondsOf (r : Reading) (name : Text) (default : Nat) : Nat :=
  match r.find? (.option name) with
  | some [.seconds n] => n
  | _ => default

/-- The invocation given for an option, or else its default. -/
def commandOf (r : Reading) (name : Text) (default : Text) : Invocation :=
  match r.find? (.option name) with
  | some [.command i] => i
  | _ => .ofProgram default

/-- The operands that were given. -/
def operandsOf (r : Reading) : List Path :=
  ((r.find? .operand).getD []).filterMap fun
    | .path p => some p
    | _ => none

/-- The toolchain options that were given, with the defaults for the others. -/
def toolchainsOf (r : Reading) : ToolchainOptions where
  referenceLexer := commandOf r referenceLexerName Settings.defaultLexer
  referenceParser := commandOf r referenceParserName Settings.defaultReferenceParser
  candidateLexer := commandOf r candidateLexerName Settings.defaultLexer
  candidateParser := commandOf r candidateParserName Settings.defaultCandidateParser
  noNormalize := r.has (.option noNormalizeName)
  timeout := secondsOf r timeoutName Settings.defaultTimeoutSeconds

/-- The command that was given. -/
def commandFrom (verb : Verb) (r : Reading) : Command :=
  let dir := (operandsOf r).head?.getD (.ofText Settings.defaultCorpusDir)
  match verb with
  | .dir => .dir dir (textOf r filterName) (toolchainsOf r)
  | .files =>
    .files (operandsOf r) (pathOf r corpusName Settings.defaultCorpusDir) (toolchainsOf r)
  | .smoke =>
    .smoke dir (commandOf r compilerName Settings.defaultCompiler) (textOf r filterName)
      (secondsOf r timeoutName Settings.defaultTimeoutSeconds)

/-- The command line from what was given in front of the command and behind it. -/
def assemble (verb : Verb) (outer inner : Reading) : CommandLine where
  metrics := outer.has (.option metricsName) || inner.has (.option metricsName)
  verbose := outer.has (.option verboseName) || inner.has (.option verboseName)
  silent := outer.has (.option silentName) || inner.has (.option silentName)
  command := commandFrom verb inner

/-! ## Reading -/

/-- The word that asks for help. -/
def helpName : Text := "help".toList

/-- A request for help names commands, one inside the other; a command has none inside. -/
def readHelp : List Text → UsageError
  | [] => .help
  | [name] =>
    if (Verb.ofName? name).isSome ∨ name = helpName then .help else .unknownSubcommand name
  | name :: next :: _ =>
    if (Verb.ofName? name).isSome ∨ name = helpName then .unknownSubcommand next
    else .unknownSubcommand name

/-- Reads the arguments behind a command, then settles those in front of it. -/
def readCommand (verb : Verb) (outer : Reading) (rest : List Text) :
    Except UsageError CommandLine :=
  match verb.grammar.readAll .start rest with
  | .error e => .error e
  | .ok inner =>
    match outerGrammar.finish outer with
    | .error e => .error e
    | .ok outer => .ok (assemble verb outer inner)

/-- Reads the arguments up to the command, and then those behind it. -/
def readFrom (outer : Reading) : List Text → Except UsageError CommandLine
  | [] => if outer.given.isEmpty then .error .noArguments else .error .missingSubcommand
  | arg :: rest =>
    let verb := Verb.ofName? arg
    if outer.trailing then
      if verb.isSome ∨ arg = helpName then .error (.unknownArgument arg)
      else .error (.unknownSubcommand arg)
    else
      match verb with
      | some verb => readCommand verb outer rest
      | none =>
        if arg = helpName then .error (readHelp rest)
        else if arg.head? = some '-' ∧ arg ≠ ['-'] then
          match outerGrammar.step outer arg with
          | .error e => .error e
          | .ok outer => readFrom outer rest
        else .error (.unknownSubcommand arg)

/-- Reads an argument list as a command line. -/
def read (args : List Text) : Except UsageError CommandLine := readFrom .start args

end CommandLine

end Conformance
