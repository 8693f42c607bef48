import Conformance.Files.Node
import Conformance.SystemFault

/-!
# Finding files

A path is resolved from the root or from the working directory, one step at a time.  Symbolic
links are followed, at most forty of them, and every step needs a directory to start from in which
names may be looked up.
-/

namespace Conformance

/-- A file tree with the names that lead to the working directory. -/
structure FileSystem where
  root : Node
  workingDirectory : List Name

namespace FileSystem

/-- The steps of a path: its pieces between separators that are not empty, and an empty one for a
separator at the end, which asks for a directory. -/
def steps (p : Path) : List Name :=
  let ps := Text.splitAt Path.separator p.bytes
  ps.filter (· ≠ []) ++ if ps.length > 1 ∧ ps.getLast? = some [] then [[]] else []

/-- The number of links that one path may lead through. -/
def linkLimit : Nat := 40

/-- The greatest number of bytes in a name. -/
def nameLimit : Nat := 255

/-- The greatest number of bytes in a path. -/
def pathLimit : Nat := 4095

/-- Follows steps from a place: the place that they lead to and its node.  With `followLast` a
link at the end is followed as well. -/
def follow (root : Node) (followLast : Bool) (links : Nat) (place : List Name) :
    List Name → Except SystemFault (List Name × Node)
  | [] =>
    match root.at? place with
    | some n => .ok (place, n)
    | none => .error .noSuchFile
  | step :: rest =>
    match root.at? place with
    | some (.directory access es) =>
      if step = [] then follow root followLast links place rest
      else if !access.searchable then .error .noPermission
      else if step = Name.current then follow root followLast links place rest
      else if step = Name.parent then follow root followLast links place.dropLast rest
      else if nameLimit < step.length then .error .nameTooLong
      else
        match es.find? step with
        | none => .error .noSuchFile
        | some (.link target) =>
          if rest.isEmpty && !followLast then .ok (place ++ [step], .link target)
          else
            match links with
            | 0 => .error .tooManyLinks
            | links + 1 =>
              follow root followLast links (if target.isAbsolute then [] else place)
                (steps target ++ rest)
        | some _ => follow root followLast links (place ++ [step]) rest
    | some _ => .error .notDirectory
    | none => .error .noSuchFile
  termination_by ss => (links, ss.length)

/-- The place and the node that a path leads to. -/
def resolve (fs : FileSystem) (p : Path) (followLast : Bool) :
    Except SystemFault (List Name × Node) :=
  if p.bytes.isEmpty then .error .noSuchFile
  else if pathLimit < p.bytes.length then .error .nameTooLong
  else
    follow fs.root followLast linkLimit (if p.isAbsolute then [] else fs.workingDirectory) (steps p)

/-- The node that a path leads to through all links. -/
def node? (fs : FileSystem) (p : Path) : Option Node :=
  match fs.resolve p true with
  | .ok (_, n) => some n
  | .error _ => none

/-- Whether a path leads to a regular file. -/
def isFile (fs : FileSystem) (p : Path) : Bool := (fs.node? p).any Node.isFile

/-- Whether a path leads to a directory. -/
def isDirectory (fs : FileSystem) (p : Path) : Bool := (fs.node? p).any Node.isDirectory

/-- The entries of the directory that a path leads to, if they may be listed. -/
def entries (fs : FileSystem) (p : Path) : Except SystemFault Entries :=
  match fs.resolve p true with
  | .error e => .error e
  | .ok (_, .directory access es) => if access.readable then .ok es else .error .noPermission
  | .ok _ => .error .notDirectory

/-- The place where a file is made: links at the end are followed even if they lead nowhere yet. -/
def newPlace (root : Node) (links : Nat) (place ss : List Name) :
    Except SystemFault (List Name) :=
  match follow root true links place ss.dropLast with
  | .error e => .error e
  | .ok (dir, .directory _ es) =>
    match ss.getLast? with
    | none => .ok dir
    | some step =>
      match es.find? step with
      | some (.link target) =>
        match links with
        | 0 => .error .tooManyLinks
        | links + 1 => newPlace root links (if target.isAbsolute then [] else dir) (steps target)
      | _ => .ok (dir ++ [step])
  | .ok _ => .error .notDirectory

/-- Makes the directories of a path that are missing, one after another; the tree and the place
that is reached. -/
def makeDirectories (root : Node) (place : List Name) : List Name → Node × List Name
  | [] => (root, place)
  | step :: rest =>
    match follow root true linkLimit place [step] with
    | .ok (place, _) => makeDirectories root place rest
    | .error _ =>
      makeDirectories (root.put (place ++ [step]) (.directory .full .nil)) (place ++ [step]) rest

/-- The file system with a node written at a path taken from the working directory; directories
that are missing on the way are made.  A file is written where a link at the end leads. -/
def create (fs : FileSystem) (p : Path) (n : Node) : FileSystem :=
  let names := steps p
  let (root, parent) :=
    makeDirectories fs.root (if p.isAbsolute then [] else fs.workingDirectory) names.dropLast
  let place := parent ++ names.getLast?.toList
  match n with
  | .directory .. => { fs with root := (makeDirectories root parent names.getLast?.toList).1 }
  | .file .. =>
    match newPlace root linkLimit parent names.getLast?.toList with
    | .ok place => { fs with root := root.put place n }
    | .error _ => { fs with root := root.put place n }
  | _ => { fs with root := root.put place n }

end FileSystem

end Conformance
