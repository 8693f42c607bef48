import Conformance.Path.Basic
import Conformance.SystemFault

/-!
# Why a corpus is not found
-/

namespace Conformance

/-- Why no list of source files is found. -/
inductive CorpusError
  | directoryNotFound (dir : Path)
  | noSourceFiles (dir : Path)
  | sourceNotFound (file : Path)
  | unreadable (path : Path) (cause : SystemFault)
  deriving DecidableEq, Repr

/-- The wording of an error. -/
def CorpusError.message : CorpusError → Text
  | directoryNotFound dir => "could not find examples directory: ".toList ++ dir.shown
  | noSourceFiles dir => "no .cl files found in ".toList ++ dir.shown
  | sourceNotFound file => "source file not found: ".toList ++ file.shown
  | unreadable path cause =>
    "failed to read ".toList ++ path.shown ++ ": ".toList ++ cause.message

end Conformance
