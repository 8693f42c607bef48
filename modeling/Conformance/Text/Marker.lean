import Conformance.Text.Basic

/-!
# Line markers

A line marker is a `#` followed by one or more ASCII digits.  `Text.mask` writes the placeholder
`#LINE` in place of every maximal marker of a line, so that two lines which differ only in the
numbers of their markers become equal.  A line without a marker is not written anew, and
`Text.rewrite?` reports nothing of it.
-/

namespace Conformance.Text

/-- What stands in a masked line for every marker. -/
def placeholder : Text := ['#', 'L', 'I', 'N', 'E']

/-- Masks a text from left to right: whether there was a marker, and the masked text.  Here
`inMarker` says that the digits at the front belong to a marker that is already written, `found`
that one was, and `done` is the reversed output so far. -/
def collectMasked (inMarker found : Bool) (done : Text) : Text → Bool × Text
  | [] => (found, done.reverse)
  | c :: r =>
    if inMarker && c.isDigit then collectMasked true found done r
    else if c == '#' && startsWithDigit r then
      collectMasked true true (placeholder.reverse ++ done) r
    else collectMasked false found (c :: done) r

/-- The line with the placeholder for every maximal marker, if there is a marker in it. -/
def rewrite? (line : Text) : Option Text :=
  match collectMasked false false [] line with
  | (true, masked) => some masked
  | (false, _) => none

/-- The line with the placeholder for every maximal marker. -/
def mask (line : Text) : Text := (rewrite? line).getD line

/-- Every line masked in its place, where a line of which nothing is reported is kept. -/
def maskLines (ls : List Text) : List Text :=
  ls.map fun l =>
    match rewrite? l with
    | some masked => masked
    | none => l

end Conformance.Text
