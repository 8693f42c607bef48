import Conformance.Path.Basic

/-!
# Files and directories

A file tree as a value, as it is to one user.  A node is a regular file, a program of the system, a
device, a named pipe, a symbolic link or a directory; the entries of a directory are kept in the
order in which the system would enumerate them, with what the user may do with the directory.
-/

namespace Conformance

/-- The devices that programs use. -/
inductive Device
  | null
  | zero
  | descriptor (number : Nat)
  deriving DecidableEq, Repr

/-- What the user may do with a directory: list the names in it, and look a name up in it. -/
structure Access where
  readable : Bool
  searchable : Bool
  deriving DecidableEq, Repr

/-- A directory may be used without restriction. -/
def Access.full : Access := ⟨true, true⟩

mutual

/-- A node of a file tree. -/
inductive Node
  | file (content : ByteArray) (executable : Bool)
  | program (name : Text)
  | device (device : Device)
  | fifo
  | link (target : Path)
  | directory (access : Access) (entries : Entries)

/-- The entries of a directory: names with their nodes. -/
inductive Entries
  | nil
  | cons (name : Name) (node : Node) (rest : Entries)

end

instance : Inhabited Node := ⟨.fifo⟩

namespace Entries

/-- The entries as a list. -/
def toList : Entries → List (Name × Node)
  | nil => []
  | cons name node rest => (name, node) :: rest.toList

/-- The names in order. -/
def names (es : Entries) : List Name := es.toList.map (·.1)

/-- The node under a name. -/
def find? (es : Entries) (name : Name) : Option Node :=
  match es with
  | nil => none
  | cons n node rest => if n = name then some node else rest.find? name

/-- The entries with the node under a name changed; a new name is added at the end. -/
def update (name : Name) (f : Option Node → Node) : Entries → Entries
  | nil => cons name (f none) nil
  | cons n node rest =>
    if n = name then cons n (f (some node)) rest else cons n node (rest.update name f)

/-- The entries without the node under a name. -/
def erase (name : Name) : Entries → Entries
  | nil => nil
  | cons n node rest => if n = name then rest else cons n node (rest.erase name)

end Entries

namespace Node

/-- Whether a node is a regular file. -/
def isFile : Node → Bool
  | file .. | program _ => true
  | _ => false

/-- Whether a node is a directory. -/
def isDirectory : Node → Bool
  | directory .. => true
  | _ => false

/-- The node that is reached by names alone, through real directories only. -/
def at? : List Name → Node → Option Node
  | [], n => some n
  | name :: rest, directory _ es => (es.find? name).bind (at? rest)
  | _ :: _, _ => none

/-- Writes a node at a place, making the directories on the way that are missing.  Where something
other than a directory stands in the way, nothing changes. -/
def put : List Name → Node → Node → Node
  | [], _, new => new
  | name :: rest, directory access es, new =>
    directory access
      (es.update name fun old => put rest (old.getD (directory .full .nil)) new)
  | _ :: _, old, _ => old

/-- Takes the node at a place away. -/
def erase : List Name → Node → Node
  | [], n => n
  | [name], directory access es => directory access (es.erase name)
  | name :: rest, directory access es =>
    directory access (es.update name fun old => erase rest (old.getD (directory .full .nil)))
  | _ :: _, n => n

end Node

end Conformance
