import Conformance.Machine.Tool.Glob
import Conformance.Machine.Tool.Order
import Conformance.Machine.Tool.Paths
import Conformance.Machine.Tool.Permissions

/-!
# Listings of directories
-/

namespace Conformance.Machine.Tool

open Routine

namespace Listing

/-! ## What is listed -/

/-- How the entries of a listing are laid out. -/
inductive Form
  | single
  | long
  | columns
  | rows
  | commas
  deriving DecidableEq

/-- A file in a listing: the name that it is listed under, its path, what it is, and what a link
leads to. -/
structure Entry where
  name : Word
  path : Word
  node : Node
  target : Option Node

/-- How a listing is made. -/
structure Style where
  form : Form
  width : Nat
  tab : Nat
  given : Parsed

/-- The number of bytes of a file. -/
def sizeOf : Node → Nat
  | .file content _ => content.size
  | .directory .. => 4096
  | .link target => (Word.ofName target.bytes).length
  | .program _ | .device _ | .fifo => 0

/-- The number of blocks of 1024 bytes that a file takes. -/
def blocksOf : Node → Nat
  | .file content _ => (content.size + 4095) / 4096 * 4
  | .directory .. => 4
  | _ => 0

/-- The number of names of a file. -/
def linksOf : Node → Nat
  | .directory _ es => 2 + (es.toList.filter fun (_, n) => n.isDirectory).length
  | _ => 1

/-- The letter of a kind of file. -/
def kindLetter : Node → Char
  | .file .. | .program _ => '-'
  | .directory .. => 'd'
  | .link _ => 'l'
  | .device _ => 'c'
  | .fifo => 'p'

/-! ## Names -/

/-- A name with escapes for bytes without a shape and for some others. -/
def escapedName (others : List Char) (w : Word) : Word :=
  w.flatMap fun c =>
    if c = '\\' || others.contains c then ['\\', c] else if hasShape c then [c] else shapeless c

/-- A name as it is listed. -/
def nameShown (p : Parsed) (w : Word) : Word :=
  match p.last? "QbN" with
  | some 'Q' => '"' :: escapedName ['"'] w ++ ['"']
  | some 'b' => escapedName [' '] w
  | _ => if p.has 'q' then w.map fun c => if hasShape c then c else '?' else w

/-- The sign behind a name that tells what a file is. -/
def indicator (p : Parsed) (n : Node) : Word :=
  match p.last? "Fp" with
  | none => []
  | some style =>
    match n with
    | .directory .. => ['/']
    | .file _ true | .program _ => if style = 'F' then ['*'] else []
    | .link _ => if style = 'F' then ['@'] else []
    | .fifo => if style = 'F' then ['|'] else []
    | _ => []

/-- A number of bytes with a unit of 1024, rounded up. -/
def humanSize (n : Nat) : Word :=
  let rec scaled (unit : Nat) : List Char → Word
    | [] => Word.ofNat n
    | c :: rest =>
      let tenths := (n * 10 + unit - 1) / unit
      if tenths ≤ 99 then Word.ofNat (tenths / 10) ++ '.' :: Word.ofNat (tenths % 10) ++ [c]
      else
        let whole := (n + unit - 1) / unit
        if whole < 1024 || rest.isEmpty then Word.ofNat whole ++ [c] else scaled (unit * 1024) rest
  if n < 1024 then Word.ofNat n else scaled 1024 ['K', 'M', 'G', 'T', 'P', 'E']

/-- A number of bytes or of blocks as it is listed. -/
def sizeShown (p : Parsed) (bytes : Nat) (n : Nat) : Word :=
  if p.has 'h' then humanSize bytes else Word.ofNat n

/-- A word filled up at its front. -/
def fillFront (width : Nat) (w : Word) : Word := List.replicate (width - w.length) ' ' ++ w

/-- The greatest length of some words. -/
def widest (ws : List Word) : Nat := (ws.map List.length).foldl max 0

/-- The blocks of a file as they are listed. -/
def blocksShown (p : Parsed) (e : Entry) : Word :=
  sizeShown p (blocksOf e.node * 1024) (blocksOf e.node)

/-- A name with what stands around it. -/
def label (p : Parsed) (blocks : Nat) (e : Entry) : Word :=
  (if p.has 's' then fillFront blocks (blocksShown p e) ++ [' '] else []) ++
    nameShown p e.name ++ indicator p e.node

/-! ## Layouts -/

/-- The lines of a long listing. -/
def longLines (p : Parsed) (es : List Entry) : List Word :=
  let number (e : Entry) : Word := Word.ofNat (linksOf e.node)
  let size (e : Entry) : Word :=
    match e.node with
    | .device _ => Word.lit "1, 3"
    | n => sizeShown p (sizeOf n) (sizeOf n)
  let blocks := widest (es.map (blocksShown p))
  let links := widest (es.map number)
  let sizes := widest (es.map size)
  let owner := if p.has 'n' then ['0'] else Word.lit "root"
  es.map fun e =>
    let aim : Word :=
      match e.node with
      | .link target =>
        Word.lit " -> " ++ nameShown p (Word.ofName target.bytes) ++
          ((e.target.map (indicator p)).getD [])
      | n => indicator p n
    (if p.has 's' then fillFront blocks (blocksShown p e) ++ [' '] else []) ++
      kindLetter e.node :: Permissions.letters (Permissions.ofNode e.node) ++ [' '] ++
      fillFront links (number e) ++ [' '] ++
      (if p.has 'g' then [] else owner ++ [' ']) ++
      (if p.has 'o' || p.has 'G' then [] else owner ++ [' ']) ++
      fillFront sizes (size e) ++ Word.lit " Jan  1 00:00 " ++ nameShown p e.name ++ aim

/-- The widths of columns if there are so many of them, or nothing if they do not fit. -/
def columnWidths (width : Nat) (down : Bool) (lengths : List Nat) (count : Nat) :
    Option (List Nat) :=
  let perColumn := (lengths.length + count - 1) / count
  let columnOf (i : Nat) : Nat := if down then i / perColumn else i % count
  let widths := (List.range count).map fun c =>
    ((lengths.zipIdx.filter fun (_, i) => columnOf i == c).map fun (l, _) =>
      l + if c + 1 = count then 0 else 2).foldl max 3
  if widths.foldl (· + ·) 0 < width then some widths else none

/-- The widths of as many columns as fit. -/
def fitColumns (width : Nat) (down : Bool) (lengths : List Nat) : Nat → List Nat
  | 0 => [0]
  | 1 => [lengths.foldl max 3]
  | n + 1 => (columnWidths width down lengths (n + 1)).getD (fitColumns width down lengths n)

/-- Blanks and tabs from one column to another. -/
def indent (tab : Nat) : Nat → Nat → Nat → Word
  | 0, _, _ => []
  | fuel + 1, here, there =>
    if there ≤ here then []
    else if tab ≠ 0 && (here + 1) / tab < there / tab then
      '\t' :: indent tab fuel (here + tab - here % tab) there
    else ' ' :: indent tab fuel (here + 1) there

/-- A line of labels, each with the width of its column. -/
def columnLine (tab : Nat) : Nat → List (Word × Nat) → Word
  | _, [] => ['\n']
  | _, [(l, _)] => l ++ ['\n']
  | place, (l, w) :: rest =>
    l ++ indent tab (w + 1) (place + l.length) (place + w) ++ columnLine tab (place + w) rest

/-- Labels in columns, one below the other or one beside the other. -/
def inColumns (s : Style) (down : Bool) (labels : List Word) : Word :=
  let most := min labels.length ((s.width + 2) / 3)
  let widths := fitColumns s.width down (labels.map List.length) most
  let count := widths.length
  let lines := (labels.length + count - 1) / count
  (List.range lines).flatMap fun row =>
    columnLine s.tab 0 ((List.range count).filterMap fun c =>
      (labels[if down then c * lines + row else row * count + c]?).map fun l =>
        (l, widths.getD c 0))

/-- Labels with commas between them, in lines of a width. -/
def withCommas (width : Nat) (labels : List Word) : Word :=
  (labels.foldl (fun (done, place, first) l =>
    if first then (done ++ l, l.length, false)
    else if width = 0 || place + l.length + 2 < width then
      (done ++ ',' :: ' ' :: l, place + 2 + l.length, false)
    else (done ++ ',' :: '\n' :: l, l.length, false)) (([] : Word), 0, true)).1 ++ ['\n']

/-- The text of a listing. -/
def render (s : Style) (es : List Entry) : Word :=
  if es.isEmpty then []
  else
    let p := s.given
    let blocks := widest (es.map (blocksShown p))
    let labels := es.map (label p (if s.form = .commas then 0 else blocks))
    let ending := if p.has '\x80' then '\x00' else '\n'
    match s.form with
    | .single => labels.flatMap (· ++ [ending])
    | .long => (longLines p es).flatMap (· ++ [ending])
    | .columns | .rows =>
      if s.width = 0 then [' ', ' '].intercalate labels ++ ['\n']
      else inColumns s (s.form = .columns) labels
    | .commas => withCommas s.width labels

/-! ## Directories -/

/-- The ending of a name behind its last point. -/
def endingOf (w : Word) : Word :=
  if w.contains '.' then '.' :: (w.reverse.takeWhile (· ≠ '.')).reverse else []

/-- The entries in the order that is asked for. -/
def sortEntries (p : Parsed) (es : List Entry) : List Entry :=
  let byName (a b : Entry) : Ordering := compareBytes a.name b.name
  let order (a b : Entry) : Ordering :=
    match p.last? "SXvtUf" with
    | some 'S' => (compare (sizeOf b.node) (sizeOf a.node)).then (byName a b)
    | some 'X' => (compareBytes (endingOf a.name) (endingOf b.name)).then (byName a b)
    | some 'v' => (compareVersions a.name b.name).then (byName a b)
    | _ => byName a b
  let le (a b : Entry) : Bool := if p.has 'r' then order b a != .gt else order a b != .gt
  let sorted := match p.last? "SXvtUf" with
    | some 'U' | some 'f' => es
    | _ => es.mergeSort le
  if p.has '\x81' then
    let isDirectory (e : Entry) : Bool := (e.target.getD e.node).isDirectory
    sorted.filter isDirectory ++ sorted.filter (!isDirectory ·)
  else sorted

/-- Whether a name in a directory is listed. -/
def isListed (p : Parsed) (w : Word) : Bool :=
  let hidden := p.last? "aAf"
  let ignored (letter : Char) : Bool := (p.values letter).any fun g => globAccepts g w
  !ignored 'I' && !(p.has 'B' && w.getLast? = some '~') &&
    match hidden with
    | some 'A' => w ≠ ['.'] && w ≠ ['.', '.']
    | some _ => true
    | none => w.head? ≠ some '.' && !ignored '\x82'

/-- Looks at a path for a listing. -/
def entryOf (follow : Bool) (name path : Word) : Routine (Except SystemFault Entry) := do
  match ← inspect (Word.toPath path) follow with
  | .error e => pure (.error e)
  | .ok node =>
    let target ← match node with
      | .link _ => do
        match ← inspect (Word.toPath path) true with
        | .ok n => pure (some n)
        | .error _ => pure none
      | _ => pure none
    pure (.ok ⟨name, path, node, target⟩)

/-- Complains about a file that cannot be listed. -/
def inaccessible (name w : Word) (e : SystemFault) : Routine Unit :=
  complain name (Word.lit "cannot access " ++ shownQuoted w ++ [':', ' '] ++ reason e)

/-- Looks at the names in a directory; whether there was nothing to complain about. -/
def entriesOf (name : Word) (p : Parsed) (directory : Word) :
    List Word → Routine (List Entry × Bool)
  | [] => pure ([], true)
  | w :: rest => do
    let path := entryPath (if directory = ['.'] then [] else directory) w
    match ← entryOf (p.has 'L') w path with
    | .ok e =>
      let (es, fine) ← entriesOf name p directory rest
      pure (e :: es, fine)
    | .error fault =>
      inaccessible name path fault
      let own ← entryOf false w path
      let (es, _) ← entriesOf name p directory rest
      pure (own.toOption.toList ++ es, false)

/-- A directory that waits to be listed: its name and its path. -/
abbrev Waiting := Word × Word

/-- Lists directories, those below them too if that is asked for. -/
def listDirectories (name : Word) (s : Style) : Nat → Bool → Bool → Bool → List Waiting →
    Routine Bool
  | 0, _, _, fine, _ => pure fine
  | _ + 1, _, _, fine, [] => pure fine
  | fuel + 1, first, titled, fine, (title, path) :: rest => do
    let p := s.given
    match ← inspect (Word.toPath path) true with
    | .ok (.directory _ es) =>
      let dots : List Word := if (p.last? "aAf").any (· ≠ 'A') then [['.'], ['.', '.']] else []
      let names := (dots ++ es.names.map Word.ofName).filter (isListed p)
      let (entries, ok) ← entriesOf name p path names
      let sorted := sortEntries p entries
      let deep := p.has 'R'
      let heading : Word :=
        if titled || deep then (if first then [] else ['\n']) ++ nameShown p title ++ [':', '\n']
        else []
      let total := (sorted.map fun e => blocksOf e.node).foldl (· + ·) 0
      let sum : Word :=
        if s.form = .long || p.has 's' then
          Word.lit "total " ++ sizeShown p (total * 1024) total ++ ['\n']
        else []
      emit name (heading ++ sum ++ render s sorted)
      let inner := if !deep then [] else
        (sorted.filter fun e =>
            e.node.isDirectory && e.name ≠ ['.'] && e.name ≠ ['.', '.']).map fun e =>
          (entryPath title e.name, e.path)
      listDirectories name s fuel false true (fine && ok) (inner ++ rest)
    | .ok _ => listDirectories name s fuel first titled fine rest
    | .error e =>
      complain name (Word.lit "cannot open directory " ++ shownQuoted path ++ [':', ' '] ++
        reason e)
      listDirectories name s fuel first titled false rest

/-! ## Arguments -/

/-- The options of the tool. -/
def options : Options where
  plain := "aAbBcCdDfFgGhHiklLmnNopqQrRsStuUvxXZ1\x80\x81\x84\x85\x86\x87"
  valued := "ITw\x82\x88\x89\x8a\x8b\x8c"
  optional := "\x83"
  long := [("all", 'a'), ("almost-all", 'A'), ("author", '\x84'), ("escape", 'b'),
    ("block-size", '\x8c'), ("ignore-backups", 'B'), ("color", '\x83'), ("directory", 'd'),
    ("dired", 'D'), ("classify", 'F'), ("file-type", '\x85'), ("format", '\x88'),
    ("full-time", '\x86'), ("group-directories-first", '\x81'), ("no-group", 'G'),
    ("human-readable", 'h'), ("si", '\x87'), ("dereference-command-line", 'H'), ("hide", '\x82'),
    ("hyperlink", '\x83'), ("indicator-style", '\x89'), ("inode", 'i'), ("ignore", 'I'),
    ("kibibytes", 'k'), ("dereference", 'L'), ("numeric-uid-gid", 'n'), ("literal", 'N'),
    ("hide-control-chars", 'q'), ("show-control-chars", '\x84'), ("quote-name", 'Q'),
    ("quoting-style", '\x8a'), ("reverse", 'r'), ("recursive", 'R'), ("size", 's'),
    ("sort", '\x8b'), ("time", '\x83'), ("time-style", '\x83'), ("tabsize", 'T'), ("width", 'w'),
    ("context", 'Z'), ("zero", '\x80')]
  failure := 2

/-- The layout that options ask for; one line a file does not change a long listing. -/
def formOf (p : Parsed) : Form :=
  p.given.foldl (fun f (c, w) =>
    if "lgon".toList.contains c then .long
    else if c = '\x88' then
      match String.ofList w with
      | "long" | "verbose" => .long
      | "commas" => .commas
      | "horizontal" | "across" => .rows
      | "vertical" => .columns
      | _ => .single
    else if c = 'C' then .columns
    else if c = 'x' then .rows
    else if c = 'm' then .commas
    else if c = '1' && f ≠ .long then .single
    else f) .single

/-- The words that an option may have as its value, each with the option that it stands for. -/
def sortWords : List (String × Char) :=
  [("none", 'U'), ("time", 't'), ("size", 'S'), ("extension", 'X'), ("version", 'v'),
    ("width", 't')]

/-- The options with words for orders replaced by letters, or the word that is not known. -/
def withSortLetters : List (Char × Word) → Except Word (List (Char × Word))
  | [] => .ok []
  | (c, w) :: rest =>
    if c = '\x8b' then
      match sortWords.find? fun s => !w.isEmpty && w.isPrefixOf s.1.toList with
      | some (_, letter) => (withSortLetters rest).map ((letter, []) :: ·)
      | none => .error w
    else (withSortLetters rest).map ((c, w) :: ·)

/-- Looks at the operands: files and directories apart, and whether all could be looked at. -/
def operandEntries (name : Word) (p : Parsed) (long : Bool) :
    List Word → Routine (List Entry × Bool)
  | [] => pure ([], true)
  | w :: rest => do
    let plain := long || p.has 'd' || p.has 'F'
    let own ← entryOf (p.has 'L' || p.has 'H') w w
    match own with
    | .error e =>
      inaccessible name w e
      let (es, _) ← operandEntries name p long rest
      pure (es, false)
    | .ok e =>
      let e := match e.node, e.target with
        | .link _, some n@(.directory ..) =>
          if plain then e else { e with node := n, target := none }
        | _, _ => e
      let (es, fine) ← operandEntries name p long rest
      pure (e :: es, fine)

/-- Lists what the operands name. -/
def list (name : Word) (s : Style) : Routine Nat := do
  let p := s.given
  let operands := if p.operands.isEmpty then [['.']] else p.operands
  let (entries, fine) ← operandEntries name p (s.form = .long) operands
  let isOpened (e : Entry) : Bool := e.node.isDirectory && !p.has 'd'
  let files := sortEntries p (entries.filter (!isOpened ·))
  let directories := sortEntries p (entries.filter isOpened)
  emit name (render s files)
  let titled := !files.isEmpty || operands.length > 1
  let ok ← listDirectories name s rounds files.isEmpty titled true
    (directories.map fun e => (e.name, e.path))
  pure (if !fine then 2 else if !ok then 1 else 0)

end Listing

open Machine.Tool.Listing in
/-- Lists files and directories. -/
def ls : Tool := fun args _ =>
  withOptions Listing.options args fun name p => do
    match withSortLetters p.given with
    | .error w =>
      complain name (Word.lit "invalid argument " ++ inQuotes w ++ Word.lit " for '--sort'")
      putLine 2 (Word.lit "Valid arguments are:")
      for (known, _) in sortWords do putLine 2 (Word.lit "  - " ++ inQuotes known.toList)
      hint name
      pure 2
    | .ok given =>
      let number (c : Char) (usual : Nat) : Option Nat :=
        match p.value? c with
        | some w => Word.nat? w
        | none => some usual
      match number 'w' 80, number 'T' 8 with
      | none, _ =>
        complain name (Word.lit "invalid line width: " ++ inQuotes ((p.value? 'w').getD []))
        pure 2
      | _, none =>
        complain name (Word.lit "invalid tab size: " ++ inQuotes ((p.value? 'T').getD []))
        pure 2
      | some width, some tab =>
        let p := { p with given }
        list name ⟨if p.has '\x80' then .single else formOf p, width, tab, p⟩

end Conformance.Machine.Tool
