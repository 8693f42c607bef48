import Conformance.Proofs.Corpus.Finds
import Conformance.Proofs.Text.Decoding

/-!
# What a filter selects

A filter is asked before the files are sorted and before it is seen whether there are any.  What
comes out is the same as if the files were found without it first and then selected by their names
(`Narrows`): it does not matter whether files are selected before they are sorted or after that.
What keeps files from being looked for has nothing to do with the filter.
-/

namespace Conformance

namespace Corpus

variable {dir p : Path} {f g : Text} {found : List Path} {e : CorpusError}
  {discover : Option Text → Except CorpusError (List Path)}

/-! ## One file -/

/-- The name of a file is a text that contains another; what its directories are called does not
count. -/
def named (f : Text) (p : Path) : Bool :=
  p.fileName?.any fun name =>
    match Utf8.decode? name with
    | .ok t => Text.contains f t
    | .error _ => false

/-- The files that were found; there are none if there was an error. -/
def files : Except CorpusError (List Path) → List Path
  | .ok found => found
  | .error _ => []

end Corpus

end Conformance
