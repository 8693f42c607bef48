import Conformance.Machine.Shell.Pattern

/-!
# Patterns of file names

The patterns that tools take as operands: those of a shell, with backslashes that quote.
-/

namespace Conformance.Machine.Tool

/-- The characters of a pattern, those behind a backslash not active; a caret at the front of
brackets turns them like an exclamation mark. -/
def globMarks : Word → Shell.Marked
  | '\\' :: c :: r => (c, false) :: globMarks r
  | '[' :: '^' :: r => ('[', true) :: ('!', true) :: globMarks r
  | c :: r => (c, true) :: globMarks r
  | [] => []

/-- Whether a pattern matches the whole of a name. -/
def globAccepts (pattern name : Word) : Bool := (Shell.Pattern.of (globMarks pattern)).accepts name

end Conformance.Machine.Tool
