import Conformance.Text.Basic

/-!
# Control characters

What is left of a text when it is shown without control characters and without the control
sequences of terminals.  Blanks and line ends are kept.  The text is read from left to right by a
machine with six states.
-/

namespace Conformance.Text

/-- Where a reader of control sequences stands. -/
inductive ControlState
  | ground
  | escape
  /-- Behind an escape and a sign that asks for another. -/
  | escapeMore
  /-- Inside of a sequence with parameters, which a letter ends. -/
  | sequence
  /-- Inside of a string that only another control ends. -/
  | string
  /-- Inside of a string that a bell ends too. -/
  | title
  deriving DecidableEq, Repr

/-- The controls that are kept: the blanks and the line ends among them. -/
def isKeptControl (c : Char) : Bool := c = '\t' || c = '\n' || c = '\x0c' || c = '\r'

/-- Whether a character is a control. -/
def isControl (c : Char) : Bool := c.toNat < 0x20 || c.toNat = 0x7f

/-- The state behind an escape and a character that is no control. -/
def ControlState.afterEscape (c : Char) : ControlState :=
  if c = '[' then .sequence
  else if c = ']' then .title
  else if c = 'P' || c = 'X' || c = '^' || c = '_' then .string
  else if c.toNat < 0x30 then .escapeMore
  else if c.toNat < 0x7f then .ground
  else .escape

/-- The state behind a character, and whether the character is shown. -/
def ControlState.step (s : ControlState) (c : Char) : ControlState × Bool :=
  if c.toNat = 0x18 || c.toNat = 0x1a then (.ground, false)
  else if c.toNat = 0x1b then (.escape, false)
  else
    match s with
    | .ground => (.ground, !isControl c || isKeptControl c)
    | .string => (.string, false)
    | .title => (if c.toNat = 7 then .ground else .title, false)
    | .escape | .escapeMore | .sequence =>
      if isKeptControl c then (.ground, true)
      else if isControl c then (s, false)
      else
        match s with
        | .escape => (afterEscape c, false)
        | .escapeMore => (if 0x30 ≤ c.toNat && c.toNat < 0x7f then .ground else s, false)
        | _ => (if 0x40 ≤ c.toNat && c.toNat < 0x7f then .ground else s, false)

/-- The characters that are shown of a text read from a state on. -/
def shownFrom (s : ControlState) : Text → Text
  | [] => []
  | c :: r =>
    let (next, shown) := s.step c
    if shown then c :: shownFrom next r else shownFrom next r

/-- A text without control characters and control sequences. -/
def withoutControls (t : Text) : Text := shownFrom .ground t

/-- The part of a text in front of its first line feed, without a carriage return at its end. -/
def firstLine (t : Text) : Text :=
  let front := t.takeWhile (· ≠ '\n')
  if front.length < t.length && front.getLast? = some '\r' then front.dropLast else front

end Conformance.Text
