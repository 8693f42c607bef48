import Conformance.Machine.Tool.Quotation
import Conformance.Machine.Tool.Regex

/-!
# Programs of edits

A program is a list of commands, each for some lines only: those with certain numbers, or those
that regular expressions match.  Blocks and jumps are kept as the places they lead to.
-/

namespace Conformance.Machine.Edit

/-! ## What a program is -/

/-- A change of letters that goes on, or that is for one letter only. -/
inductive Letters
  | allUpper
  | allLower
  | oneUpper
  | oneLower
  | asTheyAre
  deriving DecidableEq, Repr

/-- A piece of what is written in place of a match. -/
inductive Piece
  | text (w : Word)
  | part (n : Nat)
  | letters (l : Letters)

/-- A regular expression, or the one that was used last. -/
inductive Pattern
  | regex (r : Regex) (fold lines : Bool)
  | last

/-- Which lines a command is for. -/
inductive Address
  | line (n : Nat)
  /-- Every line at a distance from the first. -/
  | every (first step : Nat)
  | last
  | pattern (p : Pattern)

/-- Where a range of lines ends. -/
inductive Stop
  | address (a : Address)
  /-- So many lines behind the first one. -/
  | after (n : Nat)
  /-- At a line whose number is a multiple. -/
  | multiple (n : Nat)

/-- The lines that a command is for. -/
inductive Range
  | all
  | single (a : Address)
  /-- From one address on; with `early`, the range is open before the first line. -/
  | span (early : Bool) (first : Address) (stop : Stop)

/-- How matches are replaced. -/
structure Substitution where
  pattern : Pattern
  pieces : List Piece
  every : Bool
  nth : Nat
  print : Bool
  output : Option Word

/-- What is done. -/
inductive Action
  /-- The beginning of a block; the commands behind it begin at a place. -/
  | block (stop : Nat)
  | nothing
  | equals
  | append (w : Word)
  | insert (w : Word)
  | change (w : Word)
  | branch (target : Nat)
  | branchIf (changed : Bool) (target : Nat)
  | delete
  | deleteFirst
  | hold (add : Bool)
  | get (add : Bool)
  | exchange
  | fileName
  | list (width : Option Nat)
  | next
  | nextAdd
  | print
  | printFirst
  | quit (silent : Bool) (code : Nat)
  | readFile (name : Word)
  | readLine (name : Word)
  | writeFile (first : Bool) (name : Word)
  | substitute (s : Substitution)
  | translate (table : List (Char × Char))
  | zap

/-- A command, with whether it is for all other lines instead. -/
structure Command where
  range : Range
  reversed : Bool
  action : Action

/-! ## Except Fault (a × Word) program -/

/-- Where a fault is: in front of what is left, at the start, or nowhere in particular. -/
inductive Spot
  | before (rest : Word)
  | start
  | nowhere

/-- Why a program cannot be read. -/
structure Fault where
  message : Word
  spot : Spot

/-- A fault in front of a rest. -/
def fault {α : Type} (m : String) (rest : Word) : Except Fault α :=
  .error ⟨m.toList, .before rest⟩

/-- Blanks at the front taken off. -/
def skipBlanks (w : Word) : Word := w.dropWhile fun c => c = ' ' || c = '\t'

/-- The number at the front. -/
def takeNumber (w : Word) : Option (Nat × Word) :=
  let digits := w.takeWhile Char.isDigit
  (Word.nat? digits).map fun n => (n, w.drop digits.length)

/-- How much of an expression in brackets was read. -/
inductive Bracket
  | outside
  | front
  | inside
  /-- In a class that ends with a sign and a bracket. -/
  | named (sign : Char)
  deriving DecidableEq

/-- Where the reading of brackets is behind one more character. -/
def Bracket.step (b : Bracket) (c : Char) (rest : Word) : Bracket :=
  match b with
  | .outside => if c = '[' then .front else .outside
  | .front => if c = '^' then .front else if c = '[' then behind rest else .inside
  | .inside => if c = ']' then .outside else if c = '[' then behind rest else .inside
  | .named sign => if c = sign && rest.head? = some ']' then .inside else .named sign
where
  /-- The state behind an opening bracket inside of brackets. -/
  behind (rest : Word) : Bracket :=
    match rest.head? with
    | some c => if c = ':' || c = '.' || c = '=' then .named c else .inside
    | none => .inside

/-- The text up to a delimiter, which is kept where a backslash stands in front of it and it means
something else there; in a `pattern`, brackets protect it.  Without a delimiter on the line, what is
left where it ends. -/
def upTo (pattern : Bool) (delimiter : Char) : Bracket → Word → Except Word (Word × Word)
  | _, [] => .error []
  | b, c :: r =>
    if c = delimiter && b = .outside then .ok ([], r)
    else if c = '\n' then .error (c :: r)
    else
      match c, r with
      | '\\', e :: r =>
        let own : Word :=
          if b ≠ .outside && e ≠ 'n' then ['\\', e]
          else if pattern && e = 'n' then ['\n']
          else if e = '\n' then (if pattern then ['\n'] else ['\\', '\n'])
          else if e = delimiter && (pattern || e ≠ '&') then [e]
          else ['\\', e]
        let b := if b = .outside then b else (b.step '\\' (e :: r)).step e r
        (upTo pattern delimiter b r).map fun (a, r) => (own ++ a, r)
      | c, r =>
        let b := if pattern then b.step c r else b
        (upTo pattern delimiter b r).map fun (a, r) => (c :: a, r)

/-- A byte by a number of digits in a base. -/
def numbered (base most : Nat) (w : Word) : Option (Char × Word) :=
  let value (c : Char) : Option Nat :=
    let n := if c.isDigit then c.toNat - 48 else if 'a' ≤ c.toLower && c.toLower ≤ 'f' then
      c.toLower.toNat - 87 else base
    if n < base then some n else none
  let digits := (w.take most).takeWhile fun c => (value c).isSome
  if digits.isEmpty then none
  else
    let n := digits.foldl (fun n c => n * base + (value c).getD 0) 0
    some (Char.ofNat (n % 256), w.drop digits.length)

/-- The byte that an escape stands for; the backslash has been read. -/
def escape? : Word → Option (Char × Word)
  | 'a' :: r => some ('\x07', r)
  | 'f' :: r => some ('\x0c', r)
  | 'v' :: r => some ('\x0b', r)
  | 't' :: r => some ('\t', r)
  | 'r' :: r => some ('\r', r)
  | 'x' :: r => numbered 16 2 r
  | 'o' :: r => numbered 8 3 r
  | 'd' :: r => numbered 10 3 r
  | 'c' :: c :: r => some (Char.ofNat (c.toUpper.toNat ^^^ 64), r)
  | _ => none

/-- The text of an expression with its escapes replaced; a byte that would mean something is
quoted. -/
def plainPattern : Nat → Word → Word
  | 0, w => w
  | _, [] => []
  | fuel + 1, '\\' :: r =>
    match escape? r with
    | some (c, rest) =>
      let special := "$*.[\\]^".toList.contains c
      (if special then ['\\', c] else [c]) ++ plainPattern fuel rest
    | none => '\\' :: r.take 1 ++ plainPattern fuel (r.drop 1)
  | fuel + 1, c :: r => c :: plainPattern fuel r

/-- Reads a pattern; an empty one is the one that was used last. -/
def readPattern (extended fold lines : Bool) (w rest : Word) : Except Fault Pattern :=
  if w.isEmpty then .ok .last
  else
    match Regex.parse ⟨extended, true⟩ (plainPattern w.length w) with
    | .ok (r, _) => .ok (.regex r fold lines)
    | .error .bareClass => .error ⟨Regex.Flaw.bareClass.sentence.toList, .nowhere⟩
    | .error e => fault e.sentence rest

/-- The flags behind the pattern of an address. -/
def addressFlags (fold lines : Bool) : Word → Bool × Bool × Word
  | 'I' :: r => addressFlags true lines r
  | 'M' :: r => addressFlags fold true r
  | r => (fold, lines, r)

/-- Reads an address, if there is one. -/
def readAddress (extended : Bool) (w : Word) : Except Fault (Option Address × Word) :=
  let pattern (delimiter : Char) (r : Word) : Except Fault (Option Address × Word) :=
    match upTo true delimiter .outside r with
    | .error left => fault "unterminated address regex" left
    | .ok (body, r) => do
      let (fold, lines, r) := addressFlags false false r
      let p ← readPattern extended fold lines body r
      pure (some (.pattern p), r)
  match w with
  | '$' :: r => .ok (some .last, r)
  | '/' :: r => pattern '/' r
  | '\\' :: c :: r => pattern c r
  | ['\\'] => fault "unterminated address regex" []
  | '+' :: r | '~' :: r =>
    match takeNumber r with
    | some _ => fault "invalid usage of +N or ~N as first address" (r.drop 1)
    | none => .ok (none, w)
  | w =>
    match takeNumber w with
    | none => .ok (none, w)
    | some (n, r) =>
      match skipBlanks r with
      | '~' :: more =>
        let (step, r) := (takeNumber (skipBlanks more)).getD (0, more)
        .ok (some (if step = 0 then .line n else .every n step), r)
      | _ => .ok (some (.line n), r)

/-- Reads the end of a range. -/
def readStop (extended : Bool) (w : Word) : Except Fault (Stop × Word) := do
  let number (r : Word) (f : Nat → Stop) : Except Fault (Stop × Word) :=
    match takeNumber r with
    | some (n, r) => .ok (f n, r)
    | none => fault "unexpected `,'" r
  match w with
  | '+' :: r => number r .after
  | '~' :: r => number r .multiple
  | w =>
    let (a, r) ← readAddress extended w
    match a with
    | some a => pure (.address a, r)
    | none => fault "unexpected `,'" (w.drop 1)

/-- Reads the lines that a command is for. -/
def readRange (extended : Bool) (w : Word) : Except Fault (Range × Word) := do
  let (first, r) ← readAddress extended w
  match first with
  | none => pure (.all, r)
  | some a =>
    let isZero :=
      match a with
      | .line 0 => true
      | _ => false
    match skipBlanks r with
    | ',' :: behind =>
      let (stop, r) ← readStop extended (skipBlanks behind)
      match isZero, stop with
      | true, .address (.pattern _) => pure (.span true a stop, r)
      | true, _ => fault "invalid usage of line address 0" (r.drop 1)
      | false, _ => pure (.span false a stop, r)
    | behind =>
      if isZero then fault "invalid usage of line address 0" (behind.drop 1)
      else pure (.single a, r)

/-- The parts of a replacement. -/
def readPieces : Nat → Word → List Piece
  | 0, _ => []
  | _, [] => []
  | fuel + 1, '\\' :: r =>
    match escape? r with
    | some (c, r) => .text [c] :: readPieces fuel r
    | none =>
      match r with
      | [] => [.text ['\\']]
      | c :: r =>
        let piece : Piece :=
          if c.isDigit then .part (c.toNat - 48)
          else
            match c with
            | 'U' => .letters .allUpper
            | 'L' => .letters .allLower
            | 'u' => .letters .oneUpper
            | 'l' => .letters .oneLower
            | 'E' => .letters .asTheyAre
            | 'n' => .text ['\n']
            | c => .text [c]
        piece :: readPieces fuel r
  | fuel + 1, '&' :: r => .part 0 :: readPieces fuel r
  | fuel + 1, c :: r => .text [c] :: readPieces fuel r

/-- What follows a command; it has to end there. -/
def readEnd (w : Word) : Except Fault Word :=
  match skipBlanks w with
  | [] => .ok []
  | c :: r =>
    if c = '\n' || c = ';' then .ok r
    else if c = '\x7d' || c = '#' then .ok (c :: r)
    else fault "extra characters after command" r

/-- The name of a file at the end of a line. -/
def readName (w : Word) : Except Fault (Word × Word) :=
  let w := skipBlanks w
  let name := w.takeWhile (· ≠ '\n')
  if name.isEmpty then fault "missing filename in r/R/w/W commands" w
  else .ok (name, w.drop (name.length + 1))

/-- The flags of a substitution. -/
structure Flags where
  every : Bool
  print : Bool
  fold : Bool
  lines : Bool
  nth : Option Nat
  output : Option Word

/-- Reads the flags behind a substitution, and the end of the command. -/
def readFlags : Nat → Flags → Word → Except Fault (Flags × Word)
  | 0, f, w => .ok (f, w)
  | _, f, [] => .ok (f, [])
  | fuel + 1, f, c :: r =>
    match c with
    | 'g' =>
      if f.every then fault "multiple `g' options to `s' command" r
      else readFlags fuel { f with every := true } r
    | 'p' =>
      if f.print then fault "multiple `p' options to `s' command" r
      else readFlags fuel { f with print := true } r
    | 'i' | 'I' => readFlags fuel { f with fold := true } r
    | 'm' | 'M' => readFlags fuel { f with lines := true } r
    | 'w' => (readName r).map fun (name, r) => ({ f with output := some name }, r)
    | '\x7d' | '#' => .ok (f, c :: r)
    | '\n' | ';' => .ok (f, r)
    | ' ' | '\t' | '\r' => readFlags fuel f r
    | c =>
      match takeNumber (c :: r) with
      | none => fault "unknown option to `s'" r
      | some (n, r) =>
        if f.nth.isSome then fault "multiple number options to `s' command" r
        else if n = 0 then fault "number option to `s' command may not be zero" r
        else readFlags fuel { f with nth := some n } r

/-- The greatest number of a part that a replacement asks for. -/
def greatestPart (ps : List Piece) : Nat :=
  ps.foldl (fun n p => match p with
    | .part m => max n m
    | _ => n) 0

/-- Reads a substitution behind its letter. -/
def readSubstitution (extended : Bool) (w : Word) : Except Fault (Action × Word) :=
  let unterminated (left : Word) : Except Fault (Action × Word) :=
    fault "unterminated `s' command" left
  match w with
  | [] => unterminated []
  | d :: r =>
    match upTo true d .outside r with
    | .error left => unterminated left
    | .ok (body, r) =>
      match upTo false d .outside r with
      | .error left => unterminated left
      | .ok (instead, r) => do
        let (f, r) ← readFlags (r.length + 1) ⟨false, false, false, false, none, none⟩ r
        let pattern ← readPattern extended f.fold f.lines body r
        let pieces := readPieces (instead.length + 1) instead
        let groups :=
          match pattern with
          | .regex x _ _ => x.groupCount
          | .last => 9
        if groups < greatestPart pieces then
          let n := Word.ofNat (greatestPart pieces)
          .error ⟨Word.lit "invalid reference \\" ++ n ++ Word.lit " on `s' command's RHS", .before r⟩
        else
          pure (.substitute ⟨pattern, pieces, f.every, f.nth.getD 1, f.print, f.output⟩, r)

/-- The characters of a set that is replaced one by one. -/
def setCharacters : Nat → Word → Word
  | 0, w => w
  | _, [] => []
  | fuel + 1, '\\' :: r =>
    match escape? r, r with
    | some (c, r), _ => c :: setCharacters fuel r
    | none, 'n' :: r => '\n' :: setCharacters fuel r
    | none, '\\' :: r => '\\' :: setCharacters fuel r
    | none, '\n' :: r => '\n' :: setCharacters fuel r
    | none, r => '\\' :: setCharacters fuel r
  | fuel + 1, c :: r => c :: setCharacters fuel r

/-- Reads a replacement of characters behind its letter. -/
def readTranslation (w : Word) : Except Fault (Action × Word) :=
  let unterminated (left : Word) : Except Fault (Action × Word) :=
    fault "unterminated `y' command" left
  match w with
  | [] => unterminated []
  | d :: r =>
    match upTo false d .outside r with
    | .error left => unterminated left
    | .ok (a, r) =>
      match upTo false d .outside r with
      | .error left => unterminated left
      | .ok (b, r) => do
        let a := setCharacters (a.length + 1) a
        let b := setCharacters (b.length + 1) b
        if a.length ≠ b.length then fault "strings for `y' command are different lengths" r
        else
          let r ← readEnd r
          pure (.translate (a.zip b), r)

/-- The lines of a text up to the first that no backslash goes on. -/
def takeText : Nat → Word → Word × Word
  | 0, w => ([], w)
  | _, [] => (['\n'], [])
  | _ + 1, '\n' :: r => (['\n'], r)
  | fuel + 1, '\\' :: r =>
    let (own, rest) : Word × Word :=
      match escape? r, r with
      | some (c, r), _ => ([c], r)
      | none, 'n' :: r => (['\n'], r)
      | none, r => (r.take 1, r.drop 1)
    let (more, rest) := takeText fuel rest
    (own ++ more, rest)
  | fuel + 1, c :: r =>
    let (more, rest) := takeText fuel r
    (c :: more, rest)

/-- Reads a text that is added. -/
def readText (w : Word) : Except Fault (Word × Word) :=
  let expected : Except Fault (Word × Word) := fault "expected \\ after `a', `c' or `i'" []
  match skipBlanks w with
  | [] => expected
  | '\\' :: r =>
    match skipBlanks r with
    | [] => .ok ([], [])
    | '\n' :: r => if r.isEmpty then .ok ([], []) else .ok (takeText (r.length + 1) r)
    | _ => .ok (takeText (r.length + 1) r)
  | w => .ok (takeText (w.length + 1) w)

/-- A label up to a blank, a semicolon or a brace. -/
def readLabel (w : Word) : Word × Word :=
  let w := skipBlanks w
  let name := w.takeWhile fun c => c ≠ ';' && c ≠ '\x7d' && c ≠ ' ' && !('\t' ≤ c && c ≤ '\r')
  (name, w.drop name.length)

/-- A command as it is read: jumps name their labels, and blocks end where a brace stands. -/
inductive Item
  | command (range : Range) (reversed : Bool) (action : Action)
  | jump (range : Range) (reversed : Bool) (condition : Option Bool) (label : Word)
  | label (name : Word)
  | opening (range : Range) (reversed : Bool)
  | closing

/-- A number behind a command that may have one. -/
def readCount (w : Word) : Except Fault (Option Nat × Word) := do
  let w := skipBlanks w
  let (n, r) : Option Nat × Word :=
    match takeNumber w with
    | some (n, r) => (some n, r)
    | none => (none, w)
  let r ← readEnd r
  pure (n, r)

/-- Reads a command behind its lines. -/
def readCommand (extended : Bool) (range : Range) (reversed : Bool) (w : Word) :
    Except Fault (Option Item × Word) := do
  let single :=
    match range with
    | .span .. => false
    | _ => true
  let free :=
    match range with
    | .all => true
    | _ => false
  let give (a : Action) (r : Word) : Except Fault (Option Item × Word) :=
    .ok (some (.command range reversed a), r)
  let plain (a : Action) (r : Word) : Except Fault (Option Item × Word) := do give a (← readEnd r)
  let named (f : Word → Action) (r : Word) : Except Fault (Option Item × Word) := do
    let (name, r) ← readName r
    give (f name) r
  let text (f : Word → Action) (r : Word) : Except Fault (Option Item × Word) := do
    let (t, r) ← readText r
    give (f t) r
  let jump (condition : Option Bool) (r : Word) : Except Fault (Option Item × Word) := do
    let (name, r) := readLabel r
    let r ← readEnd r
    pure (some (.jump range reversed condition name), r)
  match w with
  | [] => fault "missing command" []
  | c :: r =>
    match c with
    | '#' =>
      if free then pure (none, r.dropWhile (· ≠ '\n'))
      else fault "comments don't accept any addresses" r
    | ':' =>
      if !free then fault ": doesn't want any addresses" r
      else
        let (name, r) := readLabel r
        if name.isEmpty then fault "\":\" lacks a label" r else pure (some (.label name), r)
    | '\x7b' => pure (some (.opening range reversed), r)
    | '\x7d' =>
      if free then do
        let r ← readEnd r
        pure (some .closing, r)
      else fault "`\x7d' doesn't want any addresses" r
    | '=' => plain .equals r
    | 'a' => text .append r
    | 'i' => text .insert r
    | 'c' => text .change r
    | 'b' => jump none r
    | 't' => jump (some true) r
    | 'T' => jump (some false) r
    | 'd' => plain .delete r
    | 'D' => plain .deleteFirst r
    | 'h' => plain (.hold false) r
    | 'H' => plain (.hold true) r
    | 'g' => plain (.get false) r
    | 'G' => plain (.get true) r
    | 'x' => plain .exchange r
    | 'F' => plain .fileName r
    | 'l' => do
      let (n, r) ← readCount r
      give (.list n) r
    | 'n' => plain .next r
    | 'N' => plain .nextAdd r
    | 'p' => plain .print r
    | 'P' => plain .printFirst r
    | 'q' | 'Q' =>
      if !single then fault "command only uses one address" r
      else
        let (n, r) ← readCount r
        give (.quit (c = 'Q') (n.getD 0)) r
    | 'r' => named .readFile r
    | 'R' => named .readLine r
    | 'w' => named (.writeFile false) r
    | 'W' => named (.writeFile true) r
    | 's' => do
      let (a, r) ← readSubstitution extended r
      give a r
    | 'y' => do
      let (a, r) ← readTranslation r
      give a r
    | 'z' => plain .zap r
    | 'v' => pure (none, (readLabel r).2)
    | '\n' | ';' => fault "missing command" (if r.isEmpty then [] else c :: r)
    | c => .error ⟨Word.lit "unknown command: `" ++ [c, '\''], .before r⟩

/-- Reads items up to the end of the program. -/
def readItems (extended : Bool) : Nat → Nat → List Item → Word → Except Fault (List Item)
  | 0, _, done, _ => .ok done.reverse
  | fuel + 1, depth, done, w =>
    match w.dropWhile fun c => c = ' ' || c = ';' || ('\t' ≤ c && c ≤ '\r') with
    | [] =>
      if depth = 0 then .ok done.reverse else .error ⟨Word.lit "unmatched `\x7b'", .start⟩
    | w => do
      let (range, r) ← readRange extended w
      let r := skipBlanks r
      let reversed := r.head? = some '!'
      let r := if reversed then skipBlanks (r.drop 1) else r
      if reversed && r.head? = some '!' then fault "multiple `!'s" (r.drop 1)
      else
        let (item, r) ← readCommand extended range reversed r
        match item with
        | none => readItems extended fuel depth done r
        | some i =>
          match i with
          | .opening .. => readItems extended fuel (depth + 1) (i :: done) r
          | .closing =>
            match depth with
            | 0 => fault "unexpected `\x7d'" (w.drop 1)
            | depth + 1 => readItems extended fuel depth (i :: done) r
          | i => readItems extended fuel depth (i :: done) r

/-- The place behind the brace that closes a block, counted from `n` on. -/
def blockEnd : Nat → Nat → List Item → Nat
  | n, _, [] => n
  | n, depth, .closing :: is => if depth = 0 then n + 1 else blockEnd (n + 1) (depth - 1) is
  | n, depth, .opening .. :: is => blockEnd (n + 1) (depth + 1) is
  | n, depth, _ :: is => blockEnd (n + 1) depth is

/-- The commands of items, with the places that jumps and blocks lead to; `n` is the place of the
first. -/
def linkItems (all : List Item) : Nat → List Item → Except Fault (List Command)
  | _, [] => .ok []
  | n, i :: is => do
    let own : Command ←
      match i with
      | .command range reversed action => pure ⟨range, reversed, action⟩
      | .label _ | .closing => pure ⟨.all, false, .nothing⟩
      | .opening range reversed => pure ⟨range, reversed, .block (blockEnd (n + 1) 0 is)⟩
      | .jump range reversed condition label =>
        let target? :=
          if label.isEmpty then some all.length
          else all.findIdx? fun
            | .label name => name == label
            | _ => false
        match target?, condition with
        | none, _ =>
          .error ⟨Word.lit "can't find label for jump to `" ++ label ++ ['\''], .nowhere⟩
        | some t, none => pure ⟨range, reversed, .branch t⟩
        | some t, some changed => pure ⟨range, reversed, .branchIf changed t⟩
    let rest ← linkItems all (n + 1) is
    pure (own :: rest)

/-- Reads a program. -/
def readProgram (extended : Bool) (w : Word) : Except Fault (Array Command) := do
  let items ← readItems extended (w.length + 2) 0 [] w
  let commands ← linkItems items 0 items
  pure commands.toArray

/-- The files that a program writes. -/
def outputsOf (program : Array Command) : List Word :=
  (program.toList.filterMap fun c =>
    match c.action with
    | .writeFile _ name => some name
    | .substitute s => s.output
    | _ => none).eraseDups

end Conformance.Machine.Edit
