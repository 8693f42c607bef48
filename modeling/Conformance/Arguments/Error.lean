import Conformance.Text.Controls

/-!
# Usage errors

Why a command line is not accepted, or why it is answered without running anything.
-/

namespace Conformance

/-- Why an argument list gives no command. -/
inductive UsageError
  | noArguments
  | help
  | version
  | unknownArgument (shown : Text)
  | unknownSubcommand (shown : Text)
  | missingSubcommand
  | conflict (label other : Text)
  | repeated (label : Text)
  | valueRequired (label : Text)
  | valueInvalid (value label reason : Text)
  | valueUnexpected (value label : Text)
  | missingOperand
  deriving DecidableEq, Repr

namespace UsageError

/-- The name under which the program presents itself. -/
def programName : Text := "frontdiff".toList

/-- The version of the program. -/
def programVersion : Text := "0.1.0".toList

/-- The one line that the program says of itself. -/
def programPurpose : Text := "Differential testing for lexer/parser front ends".toList

/-- A text in single quotes; what was typed is shown without controls. -/
def quoted (t : Text) : Text := '\'' :: t.withoutControls ++ ['\'']

/-- The sentence that is said; a request for help is answered by more than that. -/
def sentence : UsageError → Option Text
  | noArguments => none
  | help => none
  | version => some (programName ++ [' '] ++ programVersion)
  | unknownArgument shown => some ("error: unexpected argument ".toList ++ quoted shown ++
      " found".toList)
  | unknownSubcommand shown => some ("error: unrecognized subcommand ".toList ++ quoted shown)
  | missingSubcommand => some ("error: ".toList ++ quoted programName ++
      " requires a subcommand but one was not provided".toList)
  | conflict label other => some ("error: the argument ".toList ++ quoted label ++
      " cannot be used with ".toList ++ quoted other)
  | repeated label => some ("error: the argument ".toList ++ quoted label ++
      " cannot be used multiple times".toList)
  | valueRequired label => some ("error: a value is required for ".toList ++ quoted label ++
      " but none was supplied".toList)
  | valueInvalid value label reason => some ("error: invalid value ".toList ++ quoted value ++
      " for ".toList ++ quoted label ++ ": ".toList ++ reason)
  | valueUnexpected value label => some ("error: unexpected value ".toList ++ quoted value ++
      " for ".toList ++ quoted label ++ " found; no more were expected".toList)
  | missingOperand =>
    some "error: the following required arguments were not provided:".toList

/-- The first line of what is said. -/
def message (e : UsageError) : Option Text := e.sentence.map Text.firstLine

/-- Requested information is no failure; every other refusal exits with code two. -/
def exitCode : UsageError → Nat
  | help | version => 0
  | _ => 2

end UsageError

end Conformance
