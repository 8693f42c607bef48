import Conformance.Text.Utf8

/-!
# Paths

A path is any bytes, kept as they were written; they need not be the encoding of a text.  Its
components are what it means: separators that are doubled or trailing do not count, and neither does
a dot that is not at the front of a relative path.  Paths are compared and cut by components and
shown as written, with a sign in the place of bytes that are no character.
-/

namespace Conformance

/-- A name in a path: the bytes between two separators. -/
abbrev Name := List UInt8

namespace Name

/-- The name under which a directory holds itself, a dot. -/
def current : Name := [0x2E]

/-- The name under which a directory holds the one above it, two dots. -/
def parent : Name := [0x2E, 0x2E]

/-- A name as it is shown. -/
def shown (n : Name) : Text := Utf8.lossy n

/-- The order of names by their bytes. -/
def order : Name → Name → Ordering := List.compareLex (compareOn UInt8.toNat)

end Name

/-- A path as it was written. -/
structure Path where
  bytes : List UInt8
  deriving DecidableEq, Repr

namespace Path

/-- The byte between two names, a slash. -/
def separator : UInt8 := 0x2F

/-- The path that a text is. -/
def ofText (t : Text) : Path := ⟨Utf8.encode t⟩

/-- A path as it is shown. -/
def shown (p : Path) : Text := Utf8.lossy p.bytes

/-- One step of a path. -/
inductive Component
  | root
  | current
  | parent
  | name (name : Name)
  deriving DecidableEq, Repr

/-- The component that a piece between two separators stands for behind the front of a path. -/
def inner? (piece : Name) : Option Component :=
  if piece = [] ∨ piece = Name.current then none
  else if piece = Name.parent then some .parent
  else some (.name piece)

/-- The pieces of a path between its separators, each with the component that it stands for: an
empty piece in front of a separator is the root, a dot at the front the current directory. -/
def pieces (p : Path) : List (Option Component × Name) :=
  match Text.splitAt separator p.bytes with
  | [] => []
  | front :: rest =>
    let first :=
      if front = [] ∧ rest ≠ [] then some .root
      else if front = Name.current then some .current
      else inner? front
    (first, front) :: rest.map fun n => (inner? n, n)

/-- The components of a path in order. -/
def components (p : Path) : List Component := p.pieces.filterMap (·.1)

/-- Whether a path starts at the root. -/
def isAbsolute (p : Path) : Bool := p.bytes.head? == some separator

/-- A path taken from a directory: an absolute one stands for itself, any other is written behind
the directory with one separator between them. -/
def join (dir p : Path) : Path :=
  if p.isAbsolute then p
  else if dir.bytes.isEmpty ∨ dir.bytes.getLast? = some separator then ⟨dir.bytes ++ p.bytes⟩
  else ⟨dir.bytes ++ separator :: p.bytes⟩

/-- The last component, if it is a name. -/
def fileName? (p : Path) : Option Name :=
  match p.components.getLast? with
  | some (.name n) => some n
  | _ => none

/-- Whether two paths have the same components. -/
def same (p q : Path) : Bool := p.components == q.components

namespace Component

/-- The place of the kinds of component in the order. -/
def rank : Component → Nat
  | root => 0
  | current => 1
  | parent => 2
  | name _ => 3

/-- The order of components: the root, the current directory, the parent, then names. -/
def order : Component → Component → Ordering
  | name n, name m => n.order m
  | c, d => compare c.rank d.rank

/-- The lexicographic order of component lists. -/
def orderLists : List Component → List Component → Ordering
  | [], [] => .eq
  | [], _ :: _ => .lt
  | _ :: _, [] => .gt
  | c :: r, d :: s => (c.order d).then (orderLists r s)

end Component

/-- The order of paths by their components. -/
def order (p q : Path) : Ordering := Component.orderLists p.components q.components

/-- Paths sorted by their components. -/
def sort (ps : List Path) : List Path := ps.mergeSort fun p q => (p.order q).isLE

/-! ## Cutting a directory off a path -/

/-- The pieces behind the first `n` components. -/
def dropComponents : Nat → List (Option Component × Name) → List (Option Component × Name)
  | 0, ps => ps
  | _ + 1, [] => []
  | n + 1, (none, _) :: ps => dropComponents (n + 1) ps
  | n + 1, (some _, _) :: ps => dropComponents n ps

/-- Pieces without those at the end that stand for no component. -/
def trimEnd (ps : List (Option Component × Name)) : List (Option Component × Name) :=
  (ps.reverse.dropWhile (·.1.isNone)).reverse

/-- The bytes of consecutive pieces; the root alone is its separator. -/
def spell (ps : List (Option Component × Name)) : List UInt8 :=
  match ps with
  | [(some .root, _)] => [separator]
  | _ => Text.join [separator] (ps.map (·.2))

/-- What is left of a path behind the components of a directory; `none` if it does not start with
them. -/
def within? (p dir : Path) : Option Path :=
  let front := dir.components
  if front.isPrefixOf p.components then
    if front.isEmpty then some ⟨spell (trimEnd p.pieces)⟩
    else
      some ⟨spell (trimEnd ((dropComponents front.length p.pieces).dropWhile (·.1.isNone)))⟩
  else none

/-- The name under which a file is shown: its path from `root` if there is any, else its last
component, else the path as written. -/
def displayName (p : Path) (root : Option Path) : Text :=
  match root.bind p.within? with
  | some ⟨b :: r⟩ => shown ⟨b :: r⟩
  | _ => (p.fileName?.map Name.shown).getD p.shown

end Path

end Conformance
