import Conformance.Machine.Script

/-!
# Regular expressions

Basic and extended regular expressions over bytes.  A match begins as far to the left as it can
and, from there, goes on as far as it can.

The places at which a match can end are found as a set, so that the time it takes does not grow
with the number of ways to match.  Only the parts of a match, and expressions that refer back to a
part, need a search among those ways.
-/

namespace Conformance.Machine

/-- A regular expression. -/
inductive Regex
  | empty
  | char (c : Char)
  | any
  | set (negated : Bool) (ranges : List (Char × Char))
  | lineStart
  | lineEnd
  | textStart
  | textEnd
  | wordEdge
  | wordInside
  | wordStart
  | wordEnd
  | seq (a b : Regex)
  | alt (a b : Regex)
  | repeated (a : Regex) (least : Nat) (most : Option Nat)
  | group (number : Nat) (a : Regex)
  | back (number : Nat)
  deriving Repr, Inhabited

namespace Regex

/-! ## Classes of characters -/

/-- The blank characters. -/
def spaceRanges : List (Char × Char) := [('\t', '\r'), (' ', ' ')]

/-- The ranges of a named class. -/
def classRanges? (name : Word) : Option (List (Char × Char)) :=
  match String.ofList name with
  | "alpha" => some [('a', 'z'), ('A', 'Z')]
  | "digit" => some [('0', '9')]
  | "alnum" => some [('a', 'z'), ('A', 'Z'), ('0', '9')]
  | "upper" => some [('A', 'Z')]
  | "lower" => some [('a', 'z')]
  | "space" => some spaceRanges
  | "blank" => some [('\t', '\t'), (' ', ' ')]
  | "punct" => some [('!', '/'), (':', '@'), ('[', Char.ofNat 96), ('\x7b', '~')]
  | "xdigit" => some [('0', '9'), ('a', 'f'), ('A', 'F')]
  | "cntrl" => some [('\x00', '\x1f'), ('\x7f', '\x7f')]
  | "print" => some [(' ', '~')]
  | "graph" => some [('!', '~')]
  | _ => none

/-- The characters of words. -/
def wordRanges : List (Char × Char) := [('a', 'z'), ('A', 'Z'), ('0', '9'), ('_', '_')]

/-- Whether a character lies in one of the ranges. -/
def inRanges (ranges : List (Char × Char)) (c : Char) : Bool :=
  ranges.any fun (a, b) => a ≤ c && c ≤ b

/-- Whether a character belongs to words. -/
def isWordChar (c : Char) : Bool := inRanges wordRanges c

/-! ## Reading an expression -/

/-- How expressions are written: with bare operators or with operators behind backslashes, and
whether an operator that stands where it cannot is a fault. -/
structure Dialect where
  extended : Bool
  strict : Bool

/-- Why an expression cannot be read. -/
inductive Flaw
  | invalid
  | unmatchedBracket
  | unmatchedOpening
  | unmatchedClosing
  | unmatchedBrace
  | badBounds
  | badRange
  | badClass
  | badCollation
  | badReference
  | nothingToRepeat
  | trailingBackslash
  | tooBig
  /-- A class that lacks its outer brackets. -/
  | bareClass
  deriving DecidableEq, Repr

/-- What is said about an expression that cannot be read. -/
def Flaw.sentence : Flaw → String
  | invalid => "Invalid regular expression"
  | unmatchedBracket => "Unmatched [, [^, [:, [., or [="
  | unmatchedOpening => "Unmatched ( or \\("
  | unmatchedClosing => "Unmatched ) or \\)"
  | unmatchedBrace => "Unmatched \\\x7b"
  | badBounds => "Invalid content of \\\x7b\\\x7d"
  | badRange => "Invalid range end"
  | badClass => "Invalid character class name"
  | badCollation => "Invalid collation character"
  | badReference => "Invalid back reference"
  | nothingToRepeat => "Invalid preceding regular expression"
  | trailingBackslash => "Trailing backslash"
  | tooBig => "Regular expression too big"
  | bareClass => "character class syntax is [[:space:]], not [:space:]"

/-- An item inside of brackets: a single character, or a class of them. -/
inductive Item
  | single (c : Char)
  | many (ranges : List (Char × Char))

/-- Reads the name of an item up to a sign and a bracket. -/
def readNamed (sign : Char) (name : Word) : Word → Option (Word × Word)
  | [] => none
  | c :: r =>
    if c = sign && r.head? = some ']' then some (name.reverse, r.drop 1)
    else readNamed sign (c :: name) r

/-- Reads an item inside of brackets. -/
def readItem (w : Word) : Except Flaw (Item × Word) :=
  match w with
  | [] => .error .unmatchedBracket
  | c :: r =>
    let sign := r.headD ']'
    if c = '[' && (sign = ':' || sign = '.' || sign = '=') then
      match readNamed sign [] (r.drop 1) with
      | none => .error .unmatchedBracket
      | some (name, r) =>
        if sign = ':' then
          match classRanges? name with
          | some ranges => .ok (.many ranges, r)
          | none => .error .badClass
        else
          match name with
          | [c] => .ok (.single c, r)
          | _ => .error .badCollation
    else .ok (.single c, r)

/-- Reads the inside of brackets up to the closing one; `front` is true in front of the first
item. -/
def readSet : Nat → Bool → List (Char × Char) → Word → Except Flaw (List (Char × Char) × Word)
  | 0, _, _, _ => .error .unmatchedBracket
  | fuel + 1, front, ranges, w =>
    if w.head? = some ']' && !front then .ok (ranges, w.drop 1)
    else do
      let (item, r) ← readItem w
      match item with
      | .many more => readSet fuel false (ranges ++ more) r
      | .single a =>
        let ranged := r.head? = some '-' && (r.drop 1).head? ≠ some ']'
        if ranged then
          let (last, r) ← readItem (r.drop 1)
          match last with
          | .many _ => .error .badRange
          | .single b =>
            if b < a then .error .badRange else readSet fuel false (ranges ++ [(a, b)]) r
        else readSet fuel false (ranges ++ [(a, a)]) r

/-- Whether an expression in brackets is a class that lacks its outer brackets. -/
def isBareClass (w : Word) : Bool :=
  let inside := w.takeWhile (· ≠ ']')
  w.head? = some ':' && inside.length > 1 && inside.getLast? = some ':' &&
    inside.length < w.length

/-- Reads what follows an opening bracket. -/
def readBrackets (w : Word) : Except Flaw (Regex × Word) :=
  let negated := w.head? = some '^'
  let inside := if negated then w.drop 1 else w
  if inside.isEmpty then .error .invalid
  else if isBareClass w then .error .bareClass
  else (readSet (inside.length + 1) true [] inside).map fun (ranges, r) => (.set negated ranges, r)

/-- The greatest number of repetitions. -/
def greatestBound : Nat := 32767

/-- Reads bounds up to the brace that closes them: one number, or two with either missing. -/
def readBounds (closing : Word) (w : Word) : Except Flaw (Nat × Option Nat × Word) :=
  let number (d : Word) : Nat := d.foldl (fun n c => n * 10 + (c.toNat - 48)) 0
  let low := w.takeWhile Char.isDigit
  let behind := w.drop low.length
  let ranged := behind.head? = some ','
  let high := if ranged then (behind.drop 1).takeWhile Char.isDigit else low
  let behind := if ranged then behind.drop (high.length + 1) else behind
  let most := if high.isEmpty then none else some (number high)
  if behind.isEmpty then .error .unmatchedBrace
  else if !closing.isPrefixOf behind || (low.isEmpty && !ranged) then .error .badBounds
  else if most.any (· < number low) then .error .badBounds
  else if greatestBound < max (number low) (most.getD 0) then .error .tooBig
  else .ok (number low, most, behind.drop closing.length)

/-- Whether bounds are written as they should be, so that only their values can be at fault. -/
def isBounds (w : Word) : Bool :=
  let low := w.takeWhile Char.isDigit
  let behind := w.drop low.length
  if behind.head? = some ',' then ((behind.drop 1).dropWhile Char.isDigit).head? = some '\x7d'
  else !low.isEmpty && behind.head? = some '\x7d'

/-- A repetition: its bounds, and the sign that it is called by. -/
structure Repeat where
  least : Nat
  most : Option Nat
  sign : Word

/-- A repetition at the front, and what follows it. -/
def readRepeat (d : Dialect) (w : Word) : Except Flaw (Option (Repeat × Word)) :=
  let (operator, r) : Option Char × Word :=
    match w with
    | [] => (none, [])
    | c :: r =>
      if c = '*' then (some c, r)
      else if d.extended then (some c, r)
      else if c = '\\' && r.head? ≠ some '*' then (r.head?, r.drop 1)
      else (none, w)
  let bounds (closing : Word) : Except Flaw (Option (Repeat × Word)) :=
    (readBounds closing r).map fun (least, most, r) => some (⟨least, most, "\x7b...\x7d".toList⟩, r)
  match operator with
  | some '*' => .ok (some (⟨0, none, ['*']⟩, r))
  | some '+' => .ok (some (⟨1, none, ['+']⟩, r))
  | some '?' => .ok (some (⟨0, some 1, ['?']⟩, r))
  | some '\x7b' =>
    if !d.extended then bounds ['\\', '\x7d']
    else if d.strict || isBounds r then bounds ['\x7d']
    else .ok none
  | _ => .ok none

/-- Applies the repetitions that follow an atom. -/
def readRepeats (d : Dialect) : Nat → Bool → Regex → Word → Except Flaw (Regex × Word)
  | 0, _, a, w => .ok (a, w)
  | fuel + 1, first, a, w => do
    match ← readRepeat d w with
    | none => pure (a, w)
    | some (b, r) =>
      if !first && d.strict && !d.extended && b.sign = ['*'] then .error .nothingToRepeat
      else readRepeats d fuel false (.repeated a b.least b.most) r

/-- Applies the repetitions that follow an anchor at the front; their signs are told. -/
def idleRepeats (d : Dialect) : Nat → Regex → Word → Except Flaw (Regex × Word × List Word)
  | 0, a, w => .ok (a, w, [])
  | fuel + 1, a, w => do
    match ← readRepeat d w with
    | none => pure (a, w, [])
    | some (b, r) =>
      let (a, w, signs) ← idleRepeats d fuel (.repeated a b.least b.most) r
      pure (a, w, b.sign :: signs)

/-- Whether an expression says where something is, and takes no character. -/
def isAnchor : Regex → Bool
  | .lineStart | .lineEnd | .textStart | .textEnd | .wordStart | .wordEnd | .wordEdge
  | .wordInside => true
  | _ => false

/-- The expression for an escaped character. -/
def escaped (closed : List Nat) (c : Char) : Except Flaw Regex :=
  match c with
  | 'w' => .ok (.set false wordRanges)
  | 'W' => .ok (.set true wordRanges)
  | 's' => .ok (.set false spaceRanges)
  | 'S' => .ok (.set true spaceRanges)
  | 'b' => .ok .wordEdge
  | 'B' => .ok .wordInside
  | '<' => .ok .wordStart
  | '>' => .ok .wordEnd
  | '\'' => .ok .textEnd
  | c =>
    if c = Char.ofNat 96 then .ok .textStart
    else if c.isDigit && c ≠ '0' then
      let n := c.toNat - 48
      if closed.contains n then .ok (.back n) else .error .badReference
    else .ok (.char c)

/-- Where the reading of an expression is: what is left, the number of groups, those that are
closed, and the operators that had nothing to repeat. -/
structure Cursor where
  rest : Word
  groups : Nat
  closed : List Nat
  idle : List Word

/-- A sign that joins or encloses expressions. -/
inductive Sign
  | bar
  | opening
  | closing
  deriving DecidableEq

/-- The sign at the front, and what follows it. -/
def sign? (d : Dialect) (w : Word) : Option (Sign × Word) :=
  let (c, r) := if d.extended then (w.head?, w.drop 1) else ((w.drop 1).head?, w.drop 2)
  if !d.extended && w.head? ≠ some '\\' then none
  else
    match c with
    | some '|' => some (.bar, r)
    | some '(' => some (.opening, r)
    | some ')' => some (.closing, r)
    | _ => none

/-- Whether a dollar sign with this behind it is the end of a line. -/
def closesLine (d : Dialect) (r : Word) : Bool :=
  r.isEmpty || d.extended || ((sign? d r).map (·.1)).any (· ≠ .opening)

/-- Reads alternatives up to the end of the expression or, at a depth, of a group. -/
def readAlternatives (d : Dialect) : Nat → Nat → Cursor → Except Flaw (Regex × Cursor)
  | 0, _, _ => .error .tooBig
  | fuel + 1, depth, c => do
    let (first, c) ← readSequence fuel depth true .empty c
    match sign? d c.rest with
    | some (.bar, r) =>
      let (second, c) ← readAlternatives d fuel depth { c with rest := r }
      pure (.alt first second, c)
    | _ => pure (first, c)
where
  /-- Reads atoms with their repetitions one after another; `front` is true where an expression
  can be anchored. -/
  readSequence : Nat → Nat → Bool → Regex → Cursor → Except Flaw (Regex × Cursor)
  | 0, _, _, _, _ => .error .tooBig
  | fuel + 1, depth, front, sofar, c =>
    let next (a : Regex) (c : Cursor) : Except Flaw (Regex × Cursor) := do
      let (a, rest) ← readRepeats d (c.rest.length + 1) true a c.rest
      readSequence fuel depth false (.seq sofar a) { c with rest }
    let ordinary (a : Char) (r : Word) : Except Flaw (Regex × Cursor) :=
      next (.char a) { c with rest := r }
    let anchor (a : Regex) (r : Word) : Except Flaw (Regex × Cursor) := do
      if front && d.extended && !d.strict then
        let (a, rest, signs) ← idleRepeats d (r.length + 1) a r
        readSequence fuel depth true (.seq sofar a) { c with rest, idle := c.idle ++ signs }
      else if front || d.strict then
        readSequence fuel depth true (.seq sofar a) { c with rest := r }
      else next a { c with rest := r }
    match sign? d c.rest with
    | some (.bar, _) => .ok (sofar, c)
    | some (.closing, r) =>
      if depth ≠ 0 then .ok (sofar, c)
      else if d.extended && !d.strict then ordinary ')' r
      else .error .unmatchedClosing
    | some (.opening, r) => do
      let number := c.groups + 1
      let (inside, c) ← readAlternatives d fuel (depth + 1) { c with rest := r, groups := number }
      match sign? d c.rest with
      | some (.closing, r) =>
        next (.group number inside) { c with rest := r, closed := number :: c.closed }
      | _ => .error .unmatchedOpening
    | none =>
      match c.rest with
      | [] => .ok (sofar, c)
      | a :: r => do
        let idle ← if front && d.extended then readRepeat d (a :: r) else pure none
        let brace := a = '\\' && r.head? = some '\x7b'
        match idle with
        | some (b, behind) =>
          if d.strict then .error .nothingToRepeat
          else readSequence fuel depth true sofar { c with rest := behind, idle := c.idle ++ [b.sign] }
        | none =>
          if front && !d.extended && a = '*' then ordinary '*' r
          else if front && !d.extended && brace then
            if d.strict then .error .nothingToRepeat else ordinary '\x7b' (r.drop 1)
          else
          match a with
          | '\\' =>
            match r with
            | [] => .error .trailingBackslash
            | e :: r =>
              let a ← escaped c.closed e
              if a.isAnchor then anchor a r else next a { c with rest := r }
          | '[' =>
            let (a, r) ← readBrackets r
            next a { c with rest := r }
          | '.' => next .any { c with rest := r }
          | '^' =>
            if d.extended || front then anchor .lineStart r else ordinary '^' r
          | '$' =>
            if closesLine d r then anchor .lineEnd r else ordinary '$' r
          | a => if d.strict && d.extended && a = '\x7b' then .error .nothingToRepeat else ordinary a r

/-- Reads a whole expression; with it, the operators that had nothing to repeat. -/
def parse (d : Dialect) (w : Word) : Except Flaw (Regex × List Word) :=
  (readAlternatives d (2 * w.length + 4) 0 ⟨w, 0, [], []⟩).map fun (r, c) => (r, c.idle)

/-- An expression that matches a word literally. -/
def literal (w : Word) : Regex := w.foldl (fun r c => .seq r (.char c)) .empty

/-- The number of groups of an expression. -/
def groupCount : Regex → Nat
  | .group n a => max n (groupCount a)
  | .seq a b | .alt a b => max (groupCount a) (groupCount b)
  | .repeated a _ _ => groupCount a
  | _ => 0

/-! ## Matching -/

/-- A text in which matches are looked for; with `fold`, small and capital letters are the same,
and with `lines`, lines begin and end inside of the text too. -/
structure Subject where
  text : Array Char
  fold : Bool
  lines : Bool

namespace Subject

/-- The character at a position. -/
def at? (s : Subject) (p : Nat) : Option Char := s.text[p]?

/-- The character in front of a position. -/
def before? (s : Subject) (p : Nat) : Option Char := if p = 0 then none else s.text[p - 1]?

/-- The part of the text between two positions. -/
def part (s : Subject) (start stop : Nat) : Word := (s.text.extract start stop).toList

/-- A character, without regard to its being small or capital if that makes no difference. -/
def low (s : Subject) (c : Char) : Char := if s.fold then c.toLower else c

/-- Whether a character lies in one of the ranges. -/
def inside (s : Subject) (ranges : List (Char × Char)) (c : Char) : Bool :=
  inRanges ranges c || (s.fold && (inRanges ranges c.toLower || inRanges ranges c.toUpper))

/-- Whether words stand in front of and behind a position. -/
def words (s : Subject) (p : Nat) : Bool × Bool :=
  ((s.before? p).any isWordChar, (s.at? p).any isWordChar)

/-- Whether a line begins at a position. -/
def startsLine (s : Subject) (p : Nat) : Bool := p = 0 || (s.lines && s.before? p = some '\n')

/-- Whether a line ends at a position. -/
def endsLine (s : Subject) (p : Nat) : Bool :=
  s.text.size ≤ p || (s.lines && s.at? p = some '\n')

end Subject

/-- The end of an expression that matches one character or none, whatever was matched before. -/
def step? (s : Subject) (r : Regex) (p : Nat) : Option Nat :=
  let one (f : Char → Bool) : Option Nat := if (s.at? p).any f then some (p + 1) else none
  let here (b : Bool) : Option Nat := if b then some p else none
  match r with
  | .empty => some p
  | .char a => one fun c => s.low c == s.low a
  | .any => one fun _ => true
  | .set negated ranges => one fun c => s.inside ranges c != negated
  | .lineStart => here (s.startsLine p)
  | .lineEnd => here (s.endsLine p)
  | .textStart => here (p = 0)
  | .textEnd => here (s.text.size ≤ p)
  | .wordEdge => here ((s.words p).1 != (s.words p).2)
  | .wordInside => here ((s.words p).1 == (s.words p).2)
  | .wordStart => here (!(s.words p).1 && (s.words p).2)
  | .wordEnd => here ((s.words p).1 && !(s.words p).2)
  | _ => none

/-- Positions, the last one first and each once. -/
abbrev Positions := List Nat

/-- All positions of two sets. -/
def union : Positions → Positions → Positions
  | [], ys => ys
  | xs, [] => xs
  | x :: xs, y :: ys =>
    if x = y then x :: union xs ys
    else if y < x then x :: union xs (y :: ys)
    else y :: union (x :: xs) ys

/-- The positions of one set that are not in the other. -/
def without : Positions → Positions → Positions
  | [], _ => []
  | xs, [] => xs
  | x :: xs, y :: ys =>
    if x = y then without xs ys
    else if y < x then x :: without xs (y :: ys)
    else without (x :: xs) ys

/-- The ends that a step leads to from any of some positions. -/
def endsFrom (step : Nat → Positions) (ps : Positions) : Positions :=
  ps.foldl (fun done p => union (step p) done) []

/-- Applies a step a number of times, or until it makes no difference. -/
def stepTimes (step : Nat → Positions) : Nat → Positions → Positions
  | 0, ps => ps
  | n + 1, ps =>
    let next := endsFrom step ps
    if next = ps then ps else stepTimes step n next

/-- Everything that is reached by at most so many steps more; `fresh` was reached last. -/
def reach (step : Nat → Positions) : Nat → Positions → Positions → Positions
  | 0, _, done => done
  | fuel + 1, fresh, done =>
    let next := without (endsFrom step fresh) done
    if next.isEmpty then done else reach step fuel next (union next done)

/-- The ends of the matches that begin at a position, for an expression that does not refer
back. -/
def ends (s : Subject) : Regex → Nat → Positions
  | .seq a b, p => endsFrom (ends s b) (ends s a p)
  | .alt a b, p => union (ends s a p) (ends s b p)
  | .repeated a least most, p =>
    let front := stepTimes (ends s a) least [p]
    let left := (most.map (· - least)).getD (s.text.size + 1)
    reach (ends s a) (min left (s.text.size + 1)) front front
  | .group _ a, p => ends s a p
  | r, p => (step? s r p).toList

/-- The parts of a match by number, from where to where. -/
abbrev Groups := List (Nat × Nat × Nat)

/-- Repeats an expression that is matched by `step`, and goes on with `next`. -/
def runRepeated {β : Type} (step : Nat → Groups → (Nat → Groups → Option β) → Option β)
    (next : Nat → Groups → Option β) : Nat → Nat → Option Nat → Nat → Groups → Option β
  | 0, _, _, p, g => next p g
  | fuel + 1, least, most, p, g =>
    let again : Option β :=
      if most = some 0 then none
      else
        step p g fun q g =>
          if q = p then if least = 0 then none else next q g
          else runRepeated step next fuel (least - 1) (most.map (· - 1)) q g
    match again with
    | some m => some m
    | none => if least = 0 then next p g else none

/-- Matches an expression at a position and goes on with `next`. -/
def run {β : Type} (s : Subject) : Regex → Nat → Groups → (Nat → Groups → Option β) → Option β
  | .seq a b, p, g, next => run s a p g fun p g => run s b p g next
  | .alt a b, p, g, next =>
    match run s a p g next with
    | some m => some m
    | none => run s b p g next
  | .repeated a least most, p, g, next =>
    runRepeated (run s a) next (s.text.size + least + 1) least most p g
  | .group n a, p, g, next =>
    run s a p g fun q g => next q ((n, p, q) :: g.filter (·.1 != n))
  | .back n, p, g, next =>
    match g.find? (·.1 == n) with
    | none => none
    | some (_, i, j) =>
      let same := (List.range (j - i)).all fun k =>
        match s.at? (i + k), s.at? (p + k) with
        | some a, some b => s.low a == s.low b
        | _, _ => false
      if same then next (p + (j - i)) g else none
  | r, p, g, next =>
    match step? s r p with
    | some q => next q g
    | none => none

/-- Whether an expression refers back to a part of the match. -/
def refersBack : Regex → Bool
  | .back _ => true
  | .seq a b | .alt a b => refersBack a || refersBack b
  | .repeated a _ _ | .group _ a => refersBack a
  | _ => false

/-- The last end, behind `best`, of a match that refers back; only ends that are accepted count. -/
def lastEnd (s : Subject) (r : Regex) (p : Nat) (accepted : Nat → Bool) :
    Nat → Option Nat → Option Nat
  | 0, best => best
  | fuel + 1, best =>
    match run s r p [] fun q _ => if accepted q && best.all (· < q) then some q else none with
    | some q => lastEnd s r p accepted fuel (some q)
    | none => best

/-- The last accepted end of the matches that begin at a position. -/
def endAt (s : Subject) (r : Regex) (accepted : Nat → Bool) (p : Nat) : Option Nat :=
  if r.refersBack then lastEnd s r p accepted (s.text.size + 2) none
  else (ends s r p).find? accepted

/-- A match: from where to where, and its parts. -/
structure Match where
  start : Nat
  stop : Nat
  groups : Groups

/-- The parts of a match that begins and ends at known positions. -/
def groupsAt (s : Subject) (r : Regex) (start stop : Nat) : Groups :=
  (run s r start [] fun q g => if q = stop then some g else none).getD []

/-- The first match among so many positions from one on. -/
def search (s : Subject) (r : Regex) : Nat → Nat → Option Match
  | 0, _ => none
  | fuel + 1, p =>
    match endAt s r (fun _ => true) p with
    | some stop => some ⟨p, stop, groupsAt s r p stop⟩
    | none => search s r fuel (p + 1)

/-- The first match in a text from a position on. -/
def find? (s : Subject) (r : Regex) (start : Nat) : Option Match :=
  search s r (s.text.size + 1 - start) start

end Regex

end Conformance.Machine
