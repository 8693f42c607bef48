import Conformance.Machine.Tool.Regex

/-!
# Patterns of shells

A pattern is a word in which some characters are active: a star stands for any text, a question
mark for any byte and a bracket expression for the bytes that it lists.
-/

namespace Conformance.Machine.Shell

/-- Characters, each with whether it is active, that is, not quoted. -/
abbrev Marked := List (Char × Bool)

namespace Marked

/-- The characters alone. -/
def word (m : Marked) : Word := m.map (·.1)

end Marked

/-- An item of a pattern. -/
inductive PatternItem
  | char (c : Char)
  | any
  | star
  | set (negated : Bool) (ranges : List (Char × Char))
  deriving Repr

/-- A pattern. -/
abbrev Pattern := List PatternItem

namespace Pattern

/-- Reads the items of a pattern. -/
def ofMarked : Nat → Marked → Pattern
  | 0, _ | _ + 1, [] => []
  | fuel + 1, (c, active) :: rest =>
    if !active then .char c :: ofMarked fuel rest
    else
      match c with
      | '*' => .star :: ofMarked fuel rest
      | '?' => .any :: ofMarked fuel rest
      | '[' =>
        let (negated, inside) :=
          match rest with
          | ('!', true) :: r => (true, r)
          | r => (false, r)
        match Regex.readSet (inside.length + 1) true [] (Marked.word inside) with
        | .ok (ranges, after) =>
          .set negated ranges :: ofMarked fuel (inside.drop (inside.length - after.length))
        | .error _ => .char '[' :: ofMarked fuel rest
      | c => .char c :: ofMarked fuel rest

/-- All ends of a word, from the word itself to the empty one. -/
def ends : Word → List Word
  | [] => [[]]
  | c :: cs => (c :: cs) :: ends cs

/-- Whether a pattern matches the whole of a word. -/
def accepts : Pattern → Word → Bool
  | [], w => w.isEmpty
  | .star :: p, w => (ends w).any (accepts p)
  | _ :: _, [] => false
  | .char d :: p, c :: w => c == d && accepts p w
  | .any :: p, _ :: w => accepts p w
  | .set negated ranges :: p, c :: w => Regex.inRanges ranges c != negated && accepts p w

/-- The pattern of marked characters. -/
def of (m : Marked) : Pattern := ofMarked (m.length + 1) m

/-- A word without the shortest or the longest front that a pattern matches. -/
def cutFront (p : Pattern) (longest : Bool) (w : Word) : Word :=
  let lengths := List.range (w.length + 1)
  match (if longest then lengths.reverse else lengths).find? fun n => p.accepts (w.take n) with
  | some n => w.drop n
  | none => w

/-- A word without the shortest or the longest end that a pattern matches. -/
def cutBack (p : Pattern) (longest : Bool) (w : Word) : Word :=
  let lengths := List.range (w.length + 1)
  match (if longest then lengths else lengths.reverse).find? fun n => p.accepts (w.drop n) with
  | some n => w.take n
  | none => w

end Pattern

end Conformance.Machine.Shell
