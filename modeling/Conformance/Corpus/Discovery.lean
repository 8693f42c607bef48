import Conformance.Corpus.Error
import Conformance.Files.Lookup

/-!
# Finding the source files

A corpus is the source files directly inside a directory, those anywhere below it, or a list given
by name.  A directory or a tree is filtered by file name and sorted by path; a list is taken as it
is and must be found completely.

In a directory alone every entry is looked up under its path.  In a tree an entry is what the
directory that holds it says, so that only directories are looked up, to be listed; those that
cannot be are passed over.
-/

namespace Conformance

/-- How the source files are chosen. -/
inductive CorpusPolicy
  | directory (dir : Path)
  | files (base : Path) (listed : List Path)
  | tree (dir : Path)
  deriving DecidableEq, Repr

namespace Corpus

/-- The ending of the name of a source file. -/
def sourceSuffix : Text := ['.', 'c', 'l']

/-- Whether a file's name is a text that ends as a source file's does and contains the filter if
there is one. -/
def eligible (filter : Option Text) (p : Path) : Bool :=
  match p.fileName? with
  | none => false
  | some name =>
    match Utf8.decode? name with
    | .error _ => false
    | .ok t => sourceSuffix.isSuffixOf t && filter.all (Text.contains · t)

/-- The files that were found, sorted, or the error for a directory that has none. -/
def sortedOrNone (dir : Path) (found : List Path) : Except CorpusError (List Path) :=
  if found.isEmpty then .error (.noSourceFiles dir) else .ok (Path.sort found)

/-- The source files directly inside a directory; links to files count. -/
def discoverDirectory (fs : FileSystem) (dir : Path) (filter : Option Text) :
    Except CorpusError (List Path) :=
  if fs.isDirectory dir then
    match fs.entries dir with
    | .error cause => .error (.unreadable dir cause)
    | .ok es =>
      sortedOrNone dir ((es.names.map fun name => dir.join ⟨name⟩).filter fun p =>
        fs.isFile p && eligible filter p)
  else .error (.directoryNotFound dir)

mutual

/-- The regular files at or below a node that is reached by a path.  Links are passed over, and so
are directories that cannot be listed: because the directory that holds them may not be searched,
because they may not be read, or because their path is too long. -/
def filesAt (searchable : Bool) (p : Path) : Node → List Path
  | .file .. => [p]
  | .program _ => [p]
  | .directory access es =>
    if searchable && access.readable && decide (p.bytes.length ≤ FileSystem.pathLimit) then
      filesBelow access.searchable p es
    else []
  | .device _ => []
  | .fifo => []
  | .link _ => []

/-- The regular files at or below the entries of the directory that is reached by a path. -/
def filesBelow (searchable : Bool) (dir : Path) : Entries → List Path
  | .nil => []
  | .cons name node rest =>
    filesAt searchable (dir.join ⟨name⟩) node ++ filesBelow searchable dir rest

end

/-- The source files anywhere below a directory. -/
def discoverTree (fs : FileSystem) (dir : Path) (filter : Option Text) :
    Except CorpusError (List Path) :=
  match fs.node? dir with
  | some (.directory access es) =>
    sortedOrNone dir ((filesAt true dir (.directory access es)).filter (eligible filter))
  | _ => .error (.directoryNotFound dir)

/-- A listed file: as it is given, or else taken from the base directory. -/
def resolveFile (fs : FileSystem) (base file : Path) : Except CorpusError Path :=
  if fs.isFile file then .ok file
  else if fs.isFile (base.join file) then .ok (base.join file)
  else .error (.sourceNotFound file)

/-- The listed files in order, or the error for the first that is not found. -/
def resolveFiles (fs : FileSystem) (base : Path) : List Path → Except CorpusError (List Path)
  | [] => .ok []
  | file :: rest =>
    match resolveFile fs base file with
    | .error e => .error e
    | .ok found => (resolveFiles fs base rest).map (found :: ·)

end Corpus

/-- The source files that a policy chooses; a list of files is not filtered. -/
def CorpusPolicy.discover (fs : FileSystem) (filter : Option Text) :
    CorpusPolicy → Except CorpusError (List Path)
  | .directory dir => Corpus.discoverDirectory fs dir filter
  | .files base listed => Corpus.resolveFiles fs base listed
  | .tree dir => Corpus.discoverTree fs dir filter

end Conformance
