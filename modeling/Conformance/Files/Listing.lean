import Conformance.Files.Lookup

/-!
# Listings of files

A listing describes a file tree line by line.  A line names a node by a word and a path: `dir`,
`fifo`, `file` or `program`, or `link` with the path that it leads to behind an arrow.  The lines of
a file follow it, each behind a bar.
-/

namespace Conformance

namespace Listing

/-- An entry of a listing: the path of a node, and the node. -/
abbrev Entry := Path × Node

/-- The arrow between a link and the path that it leads to. -/
def arrow : Text := " -> ".toList

/-- A text cut at the first arrow. -/
def cutArrow : Text → Text × Text
  | [] => ([], [])
  | c :: r =>
    if arrow.isPrefixOf (c :: r) then ([], (c :: r).drop arrow.length)
    else
      let (a, b) := cutArrow r
      (c :: a, b)

/-- The text behind a word and a blank. -/
def behind? (word : String) (line : Text) : Option Text :=
  let front := word.toList ++ [' ']
  if front.isPrefixOf line then some (line.drop front.length) else none

/-- The entry that a line begins. -/
def entryOf? (line : Text) : Option Entry :=
  match behind? "dir" line, behind? "fifo" line, behind? "file" line, behind? "program" line,
    behind? "link" line with
  | some p, _, _, _, _ => some (.ofText p, .directory .full .nil)
  | _, some p, _, _, _ => some (.ofText p, .fifo)
  | _, _, some p, _, _ => some (.ofText p, .file .empty false)
  | _, _, _, some p, _ => some (.ofText p, .file .empty true)
  | _, _, _, _, some r =>
    let (p, target) := cutArrow r
    some (.ofText p, .link (.ofText target))
  | _, _, _, _, _ => none

/-- A file with one more line at its end. -/
def addLine (line : Text) : Node → Node
  | .file content executable =>
    .file (content ++ (String.ofList (line ++ ['\n'])).toUTF8) executable
  | n => n

/-- Reads the lines of a listing; the entries so far are in reverse. -/
def readFrom (done : List Entry) : List Text → List Entry
  | [] => done.reverse
  | ('|' :: line) :: rest =>
    match done with
    | (p, n) :: before => readFrom ((p, addLine line n) :: before) rest
    | [] => readFrom [] rest
  | line :: rest => readFrom ((entryOf? line).toList ++ done) rest

/-- The entries of a listing. -/
def read (t : Text) : List Entry := readFrom [] (Text.splitAt '\n' t)

end Listing

/-- The file system with the entries of a listing added in order. -/
def FileSystem.withEntries (fs : FileSystem) (entries : List Listing.Entry) : FileSystem :=
  entries.foldl (fun fs e => fs.create e.1 e.2) fs

end Conformance
