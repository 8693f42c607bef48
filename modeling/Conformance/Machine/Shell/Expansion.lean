import Conformance.Machine.Shell.Arithmetic
import Conformance.Machine.Shell.Pattern
import Conformance.Machine.Shell.Reader
import Conformance.Machine.Tool.Order

/-!
# Expansion of words

The pieces of a word are replaced by their values; then the word is cut into fields, and fields
with active signs become the names of the files that they match.
-/

namespace Conformance.Machine.Shell

/-- Where a character comes from. -/
inductive Origin
  | literal
  | quoted
  | value
  deriving DecidableEq, Repr

/-- What the pieces of a word expand to: characters, the place of a quoted text that may be empty,
an end of a field, and the place of parameters of which there are none. -/
inductive Item
  | char (c : Char) (origin : Origin)
  | hold
  | cut
  | vanish
  deriving Repr

namespace Item

/-- The characters of items, each with whether it is active; an end of a field is a blank. -/
def marked : List Item → Marked
  | [] => []
  | char c o :: r => (c, o != .quoted) :: marked r
  | cut :: r => (' ', false) :: marked r
  | _ :: r => marked r

/-- The items of a text. -/
def ofWord (o : Origin) (w : Word) : List Item := w.map (char · o)

end Item

/-- Runs a command substitution, in its older form or not: its output, and the state after it. -/
abbrev Substitute := Bool → Word → State → Routine (Word × State)

/-- What expansion gives: a value with the state after it, or a message. -/
abbrev Expanded (α : Type) := Except Word (α × State)

/-- The items of the parameters, each a field of its own. -/
def positionalItems (o : Origin) (ws : List Word) : List Item :=
  let one (w : Word) : List Item := (if o = .quoted then [.hold] else []) ++ Item.ofWord o w
  [Item.cut].intercalate (ws.map one)

/-- The items of a parameter. -/
def parameterItems (s : State) (name : Word) (quoted : Bool) : List Item :=
  let origin := if quoted then Origin.quoted else .value
  match name with
  | ['@'] =>
    if s.positional.isEmpty then [.vanish] else positionalItems origin s.positional
  | ['*'] =>
    if quoted then
      let between :=
        match s.value? (Word.lit "IFS") with
        | none => [' ']
        | some [] => []
        | some (c :: _) => [c]
      Item.ofWord .quoted (between.intercalate s.positional)
    else positionalItems origin s.positional
  | _ => Item.ofWord origin ((s.parameter? name).getD [])

/-- Whether a parameter has a value. -/
def isSet (s : State) (name : Word) : Bool :=
  match name with
  | ['@'] | ['*'] => !s.positional.isEmpty
  | _ => (s.parameter? name).isSome

/-- The value of a parameter as one word. -/
def parameterWord (s : State) (name : Word) : Word :=
  match name with
  | ['@'] | ['*'] => [' '].intercalate s.positional
  | _ => (s.parameter? name).getD []

/-- The message about a parameter without a value, if that is a fault. -/
def missingValue? (s : State) (name : Word) : Option Word :=
  if s.has 'u' && !isSet s name && name ≠ ['@'] && name ≠ ['*'] then
    some (name ++ Word.lit ": parameter not set")
  else none

/-- Why a value cannot be given to a name, if it cannot. -/
def assignmentFault? (s : State) (name : Word) : Option Word :=
  if !(name.head?.any isNameStart && name.all isNameChar) then
    some (name ++ Word.lit ": bad variable name")
  else if s.isFixed name then some (name ++ Word.lit ": is read only")
  else none

/-! ## Home directories -/

/-- The home directory that a tilde with a name stands for. -/
def home? (s : State) (user : Word) : Option Word :=
  if user.isEmpty then s.value? (Word.lit "HOME")
  else if user = Word.lit "root" then some (Word.lit "/root")
  else none

/-- The pieces of a text in which a tilde at the front stands for a home directory; `stops` are the
characters that end the name behind it, and `goesOn` says that something follows the text. -/
def tildeText (s : State) (stops : List Char) (goesOn : Bool) (w : Word) : Pieces :=
  match w with
  | '~' :: r =>
    let user := r.takeWhile fun c => !stops.contains c
    let behind := r.drop user.length
    if behind.isEmpty && goesOn then [.text w false]
    else
      match home? s user with
      | some home => [.text home true, .text behind false]
      | none => [.text w false]
  | w => [.text w false]

/-- A word in which a tilde at the front stands for a home directory. -/
def tildeWord (s : State) (p : Pieces) : Pieces :=
  match p with
  | .text w false :: rest => tildeText s ['/'] (!rest.isEmpty) w ++ rest
  | p => p

/-- The pieces of a text in which tildes behind colons stand for home directories. -/
def tildeParts (s : State) (goesOn : Bool) : List Word → Pieces
  | [] => []
  | [w] => tildeText s ['/', ':'] goesOn w
  | w :: rest => tildeText s ['/', ':'] false w ++ .text [':'] false :: tildeParts s goesOn rest

/-- A value in which a tilde at the front, and each behind a colon, stands for a home directory. -/
def tildeValue (s : State) (front : Bool) : Pieces → Pieces
  | [] => []
  | .text w false :: rest =>
    let goesOn := !rest.isEmpty
    let parts := w.splitOn ':'
    let own :=
      if !w.contains '~' then [.text w false]
      else if front then tildeParts s goesOn parts
      else
        match parts with
        | first :: r :: more => .text (first ++ [':']) false :: tildeParts s goesOn (r :: more)
        | _ => [.text w false]
    own ++ tildeValue s false rest
  | p :: rest => p :: tildeValue s false rest

/-- The items of a text. -/
def textItems : Piece → List Item
  | .text w quoted =>
    (if quoted then [.hold] else []) ++ Item.ofWord (if quoted then .quoted else .literal) w
  | _ => []

/-- The items of an operand in which a tilde at the front stands for a home directory. -/
def tildeItems (s : State) (operand : Pieces) (items : List Item) : List Item :=
  match operand with
  | .text ('~' :: w) false :: rest =>
    (tildeText s ['/'] (!rest.isEmpty) ('~' :: w)).flatMap textItems ++ items.drop (w.length + 1)
  | _ => items

/-! ## Pieces -/

mutual

/-- The items of a piece. -/
def expandPiece (substitute : Substitute) (p : Piece) (s : State) :
    Routine (Expanded (List Item)) :=
  match p with
  | .text w quoted => pure (.ok (textItems (.text w quoted), s))
  | .command source older quoted => do
    let (out, s) ← substitute older source s
    let text := (out.reverse.dropWhile (· = '\n')).reverse
    pure (.ok (Item.ofWord (if quoted then .quoted else .value) text, s))
  | .arithmetic body quoted => do
    match ← expandPieces substitute body s with
    | .error m => pure (.error m)
    | .ok (items, s) =>
      match Arith.value (Item.marked items).word s with
      | .error m => pure (.error m)
      | .ok (n, s) =>
        pure (.ok (Item.ofWord (if quoted then .quoted else .value) (Word.ofInt n), s))
  | .parameter name modifier operand quoted => do
    let own := parameterItems s name quoted
    let missing (orEmpty : Bool) : Bool :=
      !isSet s name || (orEmpty && (parameterWord s name).isEmpty)
    match modifier with
    | .unknown => pure (.error (Word.lit "Bad substitution"))
    | .value =>
      match missingValue? s name with
      | some m => pure (.error m)
      | none => pure (.ok (own, s))
    | .length =>
      if let some m := missingValue? s name then pure (.error m) else
      let n := match name with
        | ['@'] | ['*'] => s.positional.length
        | _ => (parameterWord s name).length
      pure (.ok (Item.ofWord (if quoted then .quoted else .value) (Word.ofNat n), s))
    | .default orEmpty =>
      if missing orEmpty then
        let r ← expandPieces substitute operand s
        pure (r.map fun (items, s) => (tildeItems s operand items, s))
      else pure (.ok (own, s))
    | .alternative orEmpty =>
      if missing orEmpty then pure (.ok ([], s))
      else
        let r ← expandPieces substitute operand s
        pure (r.map fun (items, s) => (tildeItems s operand items, s))
    | .assign orEmpty =>
      if missing orEmpty then
        match ← expandPieces substitute operand s with
        | .error m => pure (.error m)
        | .ok (items, s) =>
          match assignmentFault? s name with
          | some m => pure (.error m)
          | none =>
            let w := (Item.marked items).word
            pure (.ok (Item.ofWord (if quoted then .quoted else .value) w, s.assign name w))
      else pure (.ok (own, s))
    | .require orEmpty =>
      if missing orEmpty then
        match ← expandPieces substitute operand s with
        | .error m => pure (.error m)
        | .ok (items, _) =>
          let w := (Item.marked items).word
          let reason := if w.isEmpty then
              Word.lit (if orEmpty then "parameter not set or null" else "parameter not set")
            else w
          pure (.error (name ++ Word.lit ": " ++ reason))
      else pure (.ok (own, s))
    | .cutFront longest =>
      if let some m := missingValue? s name then pure (.error m) else
      match ← expandPieces substitute operand s with
      | .error m => pure (.error m)
      | .ok (items, s) =>
        let w := (Pattern.of (Item.marked items)).cutFront longest (parameterWord s name)
        pure (.ok (Item.ofWord (if quoted then .quoted else .value) w, s))
    | .cutBack longest =>
      if let some m := missingValue? s name then pure (.error m) else
      match ← expandPieces substitute operand s with
      | .error m => pure (.error m)
      | .ok (items, s) =>
        let w := (Pattern.of (Item.marked items)).cutBack longest (parameterWord s name)
        pure (.ok (Item.ofWord (if quoted then .quoted else .value) w, s))

/-- The items of pieces. -/
def expandPieces (substitute : Substitute) (ps : List Piece) (s : State) :
    Routine (Expanded (List Item)) :=
  match ps with
  | [] => pure (.ok ([], s))
  | p :: rest => do
    match ← expandPiece substitute p s with
    | .error m => pure (.error m)
    | .ok (items, s) =>
      match ← expandPieces substitute rest s with
      | .error m => pure (.error m)
      | .ok (more, s) => pure (.ok (items ++ more, s))

end

/-! ## Fields -/

/-- The state of cutting: the fields (last first), the current one (last first), whether it is
there even if it is empty, and whether a blank has just ended a field. -/
structure Cutting where
  fields : List Marked
  current : Marked
  kept : Bool
  ended : Bool

namespace Cutting

/-- The current field ends. -/
def close (k : Cutting) : Cutting := ⟨k.current.reverse :: k.fields, [], false, false⟩

/-- Takes one item. -/
def take (separators : Word) (k : Cutting) (i : Item) : Cutting :=
  match i with
  | .hold => { k with kept := true, ended := false }
  | .vanish => { k with kept := !k.current.isEmpty }
  | .cut => if k.kept then k.close else k
  | .char c .value =>
    if !separators.contains c then
      { k with current := (c, true) :: k.current, kept := true, ended := false }
    else if c = ' ' || c = '\t' || c = '\n' then
      if k.kept then { k.close with ended := true } else k
    else if k.ended then { k with ended := false }
    else k.close
  | .char c o =>
    { k with current := (c, o != .quoted) :: k.current, kept := true, ended := false }

end Cutting

/-- Cuts items into fields. -/
def cutFields (separators : Word) (items : List Item) : List Marked :=
  let k := items.foldl (Cutting.take separators) ⟨[], [], false, false⟩
  (if k.kept then k.close else k).fields.reverse

/-! ## Names of files -/

/-- Whether a field asks for the names of files. -/
def isGlob (m : Marked) : Bool := m.any fun (c, active) => active && "*?[".toList.contains c

/-- The parts of a field between slashes. -/
def splitSlashes (m : Marked) : List Marked :=
  m.foldr (fun (c, active) parts =>
    if c = '/' then [] :: parts
    else
      match parts with
      | [] => [[(c, active)]]
      | p :: r => ((c, active) :: p) :: r) [[]]

/-- The names in a directory that a pattern matches; those with a dot in front only if the pattern
has one too. -/
def matchingNames (m : Marked) (n : Node) : List Word :=
  match n with
  | .directory _ es =>
    let names := es.names.map Word.ofName
    (names.filter fun w =>
      (w.head? ≠ some '.' || (m.head?.map (·.1)) = some '.') && (Pattern.of m).accepts w).mergeSort
      Tool.bytewiseLe
  | _ => []

/-- The paths that the parts of a field match, in front of which others are known. -/
def expandPath : List Word → List Marked → Routine (List Word)
  | fronts, [] => pure fronts
  | fronts, part :: rest => do
    let behind (w : Word) : Word := if rest.isEmpty then w else w ++ ['/']
    if isGlob part then
      let found ← search behind part fronts
      expandPath found rest
    else expandPath (fronts.map fun f => f ++ behind part.word) rest
where
  /-- Goes through the known fronts. -/
  search (behind : Word → Word) (part : Marked) : List Word → Routine (List Word)
  | [] => pure []
  | f :: fs => do
    let dir := if f.isEmpty then ['.'] else f
    let more ← search behind part fs
    match ← Routine.inspect (Word.toPath dir) true with
    | .ok n => pure ((matchingNames part n).map (fun w => f ++ behind w) ++ more)
    | .error _ => pure more

/-- The paths that exist. -/
def keepExisting : List Word → Routine (List Word)
  | [] => pure []
  | w :: ws => do
    let rest ← keepExisting ws
    match ← Routine.inspect (Word.toPath w) false with
    | .ok _ => pure (w :: rest)
    | .error _ => pure rest

/-- The words that fields stand for. -/
def globFields : List Marked → Routine (List Word)
  | [] => pure []
  | m :: ms => do
    let own ←
      if isGlob m then do
        let found ← keepExisting (← expandPath [[]] (splitSlashes m))
        pure (if found.isEmpty then [m.word] else found)
      else pure [m.word]
    let rest ← globFields ms
    pure (own ++ rest)

/-! ## Words -/

/-- The words that the items of a word stand for. -/
def fieldsOf (items : List Item) (s : State) : Routine (List Word) :=
  let fields := cutFields s.separators items
  if s.has 'f' then pure (fields.map Marked.word) else globFields fields

/-- Expands words to fields. -/
def expandWords (substitute : Substitute) : List Pieces → State → Routine (Expanded (List Word))
  | [], s => pure (.ok ([], s))
  | p :: ps, s => do
    match ← expandPieces substitute (tildeWord s p) s with
    | .error m => pure (.error m)
    | .ok (items, s) =>
      let own ← fieldsOf items s
      match ← expandWords substitute ps s with
      | .error m => pure (.error m)
      | .ok (rest, s) => pure (.ok (own ++ rest, s))

/-- Expands a word to a single one. -/
def expandWord (substitute : Substitute) (p : Pieces) (s : State) : Routine (Expanded Word) := do
  match ← expandPieces substitute (tildeWord s p) s with
  | .error m => pure (.error m)
  | .ok (items, s) => pure (.ok ((Item.marked items).word, s))

/-- Expands the value of an assignment. -/
def expandValue (substitute : Substitute) (p : Pieces) (s : State) : Routine (Expanded Word) := do
  match ← expandPieces substitute (tildeValue s true p) s with
  | .error m => pure (.error m)
  | .ok (items, s) => pure (.ok ((Item.marked items).word, s))

/-- Expands the operands of a command that makes assignments: a word that looks like an assignment
is expanded to a single one. -/
def expandDeclarations (substitute : Substitute) :
    List Pieces → State → Routine (Expanded (List Word))
  | [], s => pure (.ok ([], s))
  | p :: ps, s => do
    let own : Expanded (List Word) ←
      match assignment? p with
      | none => expandWords substitute [p] s
      | some (name, value) => do
        match ← expandValue substitute value s with
        | .error m => pure (.error m)
        | .ok (w, s) => pure (.ok ([name ++ '=' :: w], s))
    match own with
    | .error m => pure (.error m)
    | .ok (ws, s) =>
      match ← expandDeclarations substitute ps s with
      | .error m => pure (.error m)
      | .ok (rest, s) => pure (.ok (ws ++ rest, s))

/-- Expands a word to a pattern. -/
def expandPattern (substitute : Substitute) (p : Pieces) (s : State) :
    Routine (Expanded Pattern) := do
  match ← expandPieces substitute (tildeWord s p) s with
  | .error m => pure (.error m)
  | .ok (items, s) => pure (.ok (Pattern.of (Item.marked items), s))

end Conformance.Machine.Shell
