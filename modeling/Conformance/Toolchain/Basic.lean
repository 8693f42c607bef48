import Conformance.Toolchain.Invocation

/-!
# Toolchains

A toolchain is a named pipeline of two stages: the lexer reads the source file and the parser
reads what the lexer writes.  A compiler that does both is a single stage of its own.
-/

namespace Conformance

/-- A process that takes part in a run. -/
inductive Stage
  | lexer
  | parser
  | compiler
  deriving DecidableEq, Repr

/-- The word for a stage. -/
def Stage.name : Stage → Text
  | lexer => "lexer".toList
  | parser => "parser".toList
  | compiler => "compiler".toList

/-- An output of a process. -/
inductive Channel
  | stdout
  | stderr
  deriving DecidableEq, Repr

/-- The word for a channel. -/
def Channel.name : Channel → Text
  | stdout => "stdout".toList
  | stderr => "stderr".toList

/-- A named pipeline of a lexer and a parser. -/
structure Toolchain where
  name : Text
  lexer : Invocation
  parser : Invocation
  deriving DecidableEq, Repr

/-- The pipeline as it is shown, with a mark where the source file goes. -/
def Toolchain.display (t : Toolchain) : Text :=
  t.name ++ ": ".toList ++ t.lexer.display ++ " <file> | ".toList ++ t.parser.display

end Conformance
