import Conformance.Machine.Tool.Basic

/-!
# The order of bytes
-/

namespace Conformance.Machine.Tool

/-- How a word compares to another one, byte by byte. -/
def compareBytes : Word → Word → Ordering
  | [], [] => .eq
  | [], _ :: _ => .lt
  | _ :: _, [] => .gt
  | a :: as, b :: bs => if a < b then .lt else if b < a then .gt else compareBytes as bs

/-- Whether a word comes before another one or equals it, byte by byte. -/
def bytewiseLe (a b : Word) : Bool := compareBytes a b != .gt

/-! ## The order of versions

Names are compared part by part, a part without digits and a number in turn, so that `a9` comes
before `a10`.  The endings of file names count only where the rest is equal. -/

/-- The rank of a byte outside of numbers; the end of a name stands between a tilde and the rest. -/
def versionRank : Option Char → Int
  | none => -1
  | some c =>
    if c.isDigit then 0
    else if c.isAlpha then c.toNat
    else if c = '~' then -2
    else c.toNat + 256

/-- The first difference of two parts without digits, and what follows them. -/
def compareLetters : Nat → Word → Word → Ordering × Word × Word
  | 0, a, b => (.eq, a, b)
  | fuel + 1, a, b =>
    let isOpen (w : Word) : Bool := (w.head?).any fun c => !c.isDigit
    if isOpen a || isOpen b then
      match compare (versionRank a.head?) (versionRank b.head?) with
      | .eq => compareLetters fuel (a.drop 1) (b.drop 1)
      | o => (o, a, b)
    else (.eq, a, b)

/-- How two names compare part by part. -/
def compareParts : Nat → Word → Word → Ordering
  | 0, _, _ => .eq
  | fuel + 1, a, b =>
    if a.isEmpty && b.isEmpty then .eq
    else
      let (o, a, b) := compareLetters (a.length + b.length + 1) a b
      if o ≠ .eq then o
      else
        let (m, n) := (a.takeWhile Char.isDigit, b.takeWhile Char.isDigit)
        match compare ((Word.nat? m).getD 0) ((Word.nat? n).getD 0) with
        | .eq => compareParts fuel (a.drop m.length) (b.drop n.length)
        | o => o

/-- A file name without its endings, which begin with a point and a letter. -/
def withoutEndings (w : Word) : Word :=
  let isEnding (part : Word) : Bool :=
    match part with
    | c :: r => (c.isAlpha || c = '~') && r.all fun c => c.isAlphanum || c = '~'
    | [] => false
  match w.splitOn '.' with
  | [] => w
  | first :: parts =>
    let endings := parts.reverse.takeWhile isEnding
    let kept := parts.take (parts.length - endings.length)
    if first.isEmpty && kept.isEmpty then w else ['.'].intercalate (first :: kept)

/-- How two names compare as versions. -/
def compareVersions (a b : Word) : Ordering :=
  let class? (w : Word) : Nat :=
    if w.isEmpty then 0
    else if w = ['.'] then 1
    else if w = ['.', '.'] then 2
    else if w.head? = some '.' then 3
    else 4
  match compare (class? a) (class? b) with
  | .eq =>
    let drop (w : Word) : Word := if class? w = 3 then w.drop 1 else w
    let (x, y) := (drop a, drop b)
    let (p, q) := (withoutEndings x, withoutEndings y)
    let fuel := a.length + b.length + 2
    match compareParts fuel p q with
    | .eq => if p == q then (if x == y then .eq else compareParts fuel x y) else compareParts fuel x y
    | o => o
  | o => o

end Conformance.Machine.Tool
