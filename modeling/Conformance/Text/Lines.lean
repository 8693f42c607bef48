import Conformance.Text.Basic

/-!
# Lines

A line ends at a break unit: the pair carriage return, line feed, or one break character alone.
`Text.lines` gives the lines of a text without their terminators; a terminator at the end of the
text opens no further line.  The recursion equations `lines_nil`, `lines_pair`, `lines_break` and
`lines_cons` say what it does to the first unit of a text.
-/

namespace Conformance

/-- The characters that end a line on their own. -/
def isBreak (c : Char) : Bool :=
  c == '\n' || c == '\r' || c == '\x0b' || c == '\x0c' || c == '\x1c' || c == '\x1d' ||
    c == '\x1e' || c == '\u0085' || c == '\u2028' || c == '\u2029'

/-- A break unit: the pair carriage return, line feed, or a single break character. -/
inductive BreakUnit : Text → Prop
  | pair : BreakUnit ['\r', '\n']
  | single {c : Char} : isBreak c = true → BreakUnit [c]

namespace Text

/-- The lines of a text, where `part` is the reversed start of the line being read and `done` the
lines already read, last first.  Just after a carriage return has ended a line, a line feed belongs
to the same break. -/
def collectLines (afterReturn : Bool) (done : List Text) (part : Text) : Text → List Text
  | [] => if part.isEmpty then done.reverse else (part.reverse :: done).reverse
  | c :: r =>
    if afterReturn && c == '\n' then collectLines false done part r
    else if isBreak c then collectLines (c == '\r') (part.reverse :: done) [] r
    else collectLines false done (c :: part) r

/-- The lines of a text without their terminators. -/
def lines (t : Text) : List Text := collectLines false [] [] t

/-- A character put in front of the first line, or alone on a line if there is none. -/
def consLine (c : Char) : List Text → List Text
  | [] => [[c]]
  | l :: ls => (c :: l) :: ls

/-- A text put in front of the first line; an empty one changes nothing. -/
def appendLine (part : Text) (ls : List Text) : List Text := part.foldr consLine ls

@[simp] theorem appendLine_nil (ls : List Text) : appendLine [] ls = ls := rfl

theorem appendLine_append (a b : Text) (ls : List Text) :
    appendLine (a ++ b) ls = appendLine a (appendLine b ls) := by simp [appendLine]

theorem appendLine_cons_line (a l : Text) (ls : List Text) :
    appendLine a (l :: ls) = (a ++ l) :: ls := by
  induction a with
  | nil => rfl
  | cons c r ih =>
    show consLine c (appendLine r (l :: ls)) = _
    rw [ih]; rfl

theorem appendLine_nil_lines {a : Text} (h : a ≠ []) : appendLine a [] = [a] := by
  induction a with
  | nil => exact absurd rfl h
  | cons c r ih =>
    show consLine c (appendLine r []) = _
    by_cases hr : r = []
    · subst hr; rfl
    · rw [ih hr]; rfl

/-- Gathering with parts already read is putting them in front of the lines of the rest. -/
theorem collectLines_eq (afterReturn : Bool) (done : List Text) (part t : Text) :
    collectLines afterReturn done part t =
      done.reverse ++ appendLine part.reverse (collectLines afterReturn [] [] t) := by
  induction t generalizing afterReturn done part with
  | nil =>
    by_cases hp : part = []
    · simp [hp, collectLines]
    · simp [hp, collectLines, appendLine_nil_lines]
  | cons c r ih =>
    simp only [collectLines]
    split
    · exact ih false done part
    · split
      · rw [ih _ (part.reverse :: done) [], ih _ [List.reverse []] []]
        simp [appendLine_cons_line]
      · rw [ih _ done (c :: part), ih _ [] [c]]
        simp [appendLine_append]

/-- Gathering the lines behind a break that has been read. -/
theorem collectLines_false_singleton (t : Text) :
    collectLines false [[]] [] t = [] :: lines t := by
  rw [collectLines_eq]; rfl

/-- A carriage return that has been read matters to a line feed only. -/
theorem collectLines_true {t : Text} (h : t.head? ≠ some '\n') (done : List Text) (part : Text) :
    collectLines true done part t = collectLines false done part t := by
  cases t with
  | nil => rfl
  | cons c r =>
    have hc : (c == '\n') = false := by simpa using h
    simp [collectLines, hc]

@[simp] theorem lines_nil : lines [] = [] := rfl

/-- The pair ends one line. -/
theorem lines_pair (r : Text) : lines ('\r' :: '\n' :: r) = [] :: lines r :=
  collectLines_false_singleton r

/-- A break character that opens no pair ends one line. -/
theorem lines_break {c : Char} {r : Text} (hc : isBreak c = true)
    (hp : c = '\r' → r.head? ≠ some '\n') : lines (c :: r) = [] :: lines r := by
  rw [← collectLines_false_singleton]
  by_cases h : c = '\r'
  · subst h
    exact collectLines_true (hp rfl) [[]] []
  · have hr : (c == '\r') = false := by simpa using h
    rw [lines, collectLines, Bool.false_and, if_neg Bool.false_ne_true, if_pos hc, hr]
    rfl

/-- Any other character opens the first line. -/
theorem lines_cons {c : Char} {r : Text} (hc : isBreak c = false) :
    lines (c :: r) = consLine c (lines r) := by
  have h : lines (c :: r) = collectLines false [] [c] r := by simp [lines, collectLines, hc]
  rw [h, collectLines_eq]; rfl

end Text

end Conformance
