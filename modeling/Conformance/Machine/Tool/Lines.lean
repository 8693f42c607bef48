import Conformance.Machine.Tool.Order
import Conformance.Machine.Tool.Quotation

/-!
# Tools that work on lines

Turning the order of lines, sorting them, dropping neighbours that are equal, and changing each
line or each byte.
-/

namespace Conformance.Machine.Tool

open Routine

/-- Reads all inputs, applies a function to each of them and writes the results. -/
def filterInputs (name : Word) (operands : List Word) (f : Word → Word) : Routine Nat := do
  let (contents, fine) ← readInputs (complainOf name) (inputs operands)
  emit name (contents.flatMap fun (_, w) => f w)
  pure (if fine then 0 else 1)

/-- The lines of a word without their line feeds. -/
def bareLines (w : Word) : List Word := (Word.splitLines w).map fun l => (Word.chomp l).1

/-- Lines with a line feed behind each. -/
def joinLines (ls : List Word) : Word := ls.flatMap (· ++ ['\n'])

/-- Lines from the last to the first.  A last line without a line feed runs into the line that
follows it. -/
def tac : Tool := fun args _ =>
  withOptions { plain := "", valued := "" } args fun name p =>
    filterInputs name p.operands fun w => (Word.splitLines w).reverse.flatten

/-- The bytes of each line in reverse. -/
def rev : Tool := fun args _ =>
  withOptions { plain := "", valued := "" } args fun name p =>
    filterInputs name p.operands fun w =>
      (Word.splitLines w).flatMap fun l =>
        let (text, ended) := Word.chomp l
        text.reverse ++ if ended then ['\n'] else []

/-- The lines that are not blank with their numbers. -/
def numberLines : Nat → List Word → List Word
  | _, [] => []
  | n, l :: ls =>
    if (Word.chomp l).1.isEmpty then (List.replicate 7 ' ' ++ l) :: numberLines n ls
    else
      let digits := Word.ofNat n
      (List.replicate (6 - digits.length) ' ' ++ digits ++ ['\t'] ++ l) :: numberLines (n + 1) ls

/-- The lines with numbers in front of those that are not blank. -/
def nl : Tool := fun args _ =>
  withOptions { plain := "", valued := "" } args fun name p =>
    filterInputs name p.operands fun w => (numberLines 1 (Word.splitLines w)).flatten

/-! ## Order -/

/-- The whole number at the front of a line; zero where there is none. -/
def leadingNumber (w : Word) : Int :=
  let w := w.dropWhile fun c => c = ' ' || c = '\t'
  let (negative, w) :=
    match w with
    | '-' :: r => (true, r)
    | w => (false, w)
  let n : Int := (Word.nat? (w.takeWhile Char.isDigit)).getD 0
  if negative then -n else n

/-- Equal neighbours dropped. -/
def dropRepeats : List Word → List Word
  | a :: b :: r => if a = b then dropRepeats (b :: r) else a :: dropRepeats (b :: r)
  | l => l

/-- The lines of all inputs in order. -/
def sort : Tool := fun args _ =>
  withOptions { plain := "nruf", valued := "", long := [("numeric-sort", 'n'), ("reverse", 'r'), ("unique", 'u')], failure := 2 } args
    fun name p => do
    let (contents, fine) ← readInputs (complainOf name) (inputs p.operands)
    if !fine then pure 2
    else
      let le (a b : Word) : Bool :=
        if p.has 'n' then
          let (m, n) := (leadingNumber a, leadingNumber b)
          m < n || (m == n && bytewiseLe a b)
        else bytewiseLe a b
      let order (a b : Word) : Bool := if p.has 'r' then le b a else le a b
      let sorted := (contents.flatMap fun (_, w) => bareLines w).mergeSort order
      emit name (joinLines (if p.has 'u' then dropRepeats sorted else sorted))
      pure 0

/-- Neighbours that are equal taken together, with their number. -/
def countRepeats : List Word → List (Nat × Word)
  | [] => []
  | l :: ls =>
    match countRepeats ls with
    | (n, m) :: r => if l = m then (n + 1, m) :: r else (1, l) :: (n, m) :: r
    | [] => [(1, l)]

/-- The lines with equal neighbours taken together. -/
def uniq : Tool := fun args _ =>
  withOptions { plain := "cdu", valued := "", long := [("count", 'c'), ("repeated", 'd'), ("unique", 'u')] } args
    fun name p =>
    filterInputs name (p.operands.take 1) fun w =>
      joinLines (((countRepeats (bareLines w)).filter fun (n, _) =>
        (!p.has 'd' || n > 1) && (!p.has 'u' || n = 1)).map fun (n, l) =>
          if p.has 'c' then
            let digits := Word.ofNat n
            List.replicate (7 - digits.length) ' ' ++ digits ++ [' '] ++ l
          else l)

/-! ## Parts of lines -/

/-- A range of positions: the first and, unless it is open, the last. -/
abbrev Span := Nat × Option Nat

/-- The pieces of a word between separators. -/
def splitOn (separator : Char) (w : Word) : List Word :=
  w.foldr (fun c acc =>
    if c = separator then [] :: acc
    else
      match acc with
      | [] => [[c]]
      | a :: r => (c :: a) :: r) [[]]

/-- Reads a list of ranges such as `1,3-5,7-`. -/
def spans? (w : Word) : Option (List Span) :=
  (splitOn ',' w).mapM fun part =>
    match splitOn '-' part with
    | [a] => (Word.nat? a).map fun n => (n, some n)
    | [a, b] =>
      let low := if a.isEmpty then some 1 else Word.nat? a
      let high := if b.isEmpty then some none else (Word.nat? b).map some
      match low, high with
      | some l, some h => if a.isEmpty && b.isEmpty then none else some (l, h)
      | _, _ => none
    | _ => none

/-- The items whose position, counted from one, lies in some range. -/
def selectSpans {α : Type} (spans : List Span) (xs : List α) : List α :=
  (xs.zipIdx 1).filterMap fun (x, i) =>
    if spans.any fun (a, b) => a ≤ i && b.all (i ≤ ·) then some x else none

/-- The chosen bytes or fields of every line. -/
def cut : Tool := fun args _ =>
  withOptions { plain := "sn", valued := "bcfd", long := [("fields", 'f'), ("bytes", 'b'), ("characters", 'c'),
    ("delimiter", 'd'), ("only-delimited", 's')] } args fun name p =>
    let bytes := (p.value? 'b').or (p.value? 'c')
    match bytes, p.value? 'f' with
    | some list, none =>
      match spans? list with
      | some spans =>
        filterInputs name p.operands fun w => joinLines ((bareLines w).map (selectSpans spans))
      | none => invalid name
    | none, some list =>
      match spans? list, (p.value? 'd').getD ['\t'] with
      | some spans, [d] =>
        filterInputs name p.operands fun w =>
          joinLines ((bareLines w).filterMap fun l =>
            if !l.contains d then if p.has 's' then none else some l
            else some ([d].intercalate (selectSpans spans (splitOn d l))))
      | _, _ => invalid name
    | _, _ => invalid name
where
  invalid (name : Word) : Routine Nat :=
    refuse name (Word.lit "you must specify a list of bytes, characters, or fields") 1

/-! ## Bytes for bytes -/

/-- The bytes of a named class. -/
def classBytes (name : Word) : Option (List Char) :=
  let all := (List.range 256).map Char.ofNat
  match String.ofList name with
  | "alpha" => some (all.filter Char.isAlpha)
  | "digit" => some (all.filter Char.isDigit)
  | "alnum" => some (all.filter Char.isAlphanum)
  | "upper" => some (all.filter Char.isUpper)
  | "lower" => some (all.filter Char.isLower)
  | "space" => some (all.filter fun c => c = ' ' || (9 ≤ c.toNat && c.toNat ≤ 13))
  | "blank" => some [' ', '\t']
  | "punct" => some (all.filter fun c => 33 ≤ c.toNat && c.toNat ≤ 126 && !c.isAlphanum)
  | "cntrl" => some (all.filter fun c => c.toNat < 32 || c.toNat = 127)
  | "print" => some (all.filter fun c => 32 ≤ c.toNat && c.toNat ≤ 126)
  | _ => none

/-- The value of up to three octal digits, and what follows them. -/
def octal (most : Nat) (w : Word) : Nat × Word :=
  let digits := (w.take most).takeWhile fun c => '0' ≤ c && c ≤ '7'
  (digits.foldl (fun n c => n * 8 + (c.toNat - 48)) 0, w.drop digits.length)

/-- The characters of a set before ranges and classes are expanded; the flag marks those that were
escaped. -/
def setItems : Nat → Word → List (Char × Bool)
  | 0, _ => []
  | _ + 1, [] => []
  | fuel + 1, '\\' :: c :: r =>
    if '0' ≤ c && c ≤ '7' then
      let (n, r) := octal 3 (c :: r)
      (Char.ofNat (n % 256), true) :: setItems fuel r
    else
      let d :=
        match c with
        | 'n' => '\n'
        | 't' => '\t'
        | 'r' => '\r'
        | 'a' => '\x07'
        | 'b' => '\x08'
        | 'f' => '\x0c'
        | 'v' => '\x0b'
        | c => c
      (d, true) :: setItems fuel r
  | fuel + 1, c :: r => (c, false) :: setItems fuel r

/-- The bytes that a set stands for, in order. -/
def expandSet : Nat → List (Char × Bool) → List Char
  | 0, _ => []
  | _ + 1, [] => []
  | fuel + 1, ('[', false) :: (':', false) :: r =>
    let name := (r.map (·.1)).takeWhile Char.isAlpha
    match classBytes name, r.drop name.length with
    | some bytes, (':', _) :: (']', _) :: r => bytes ++ expandSet fuel r
    | _, _ => '[' :: expandSet fuel ((':', false) :: r)
  | fuel + 1, (a, _) :: ('-', false) :: (b, _) :: r =>
    ((List.range (b.toNat + 1 - a.toNat)).map fun i => Char.ofNat (a.toNat + i)) ++
      expandSet fuel r
  | fuel + 1, (a, _) :: r => a :: expandSet fuel r

/-- The bytes that the text of a set stands for. -/
def setBytes (w : Word) : List Char := expandSet (w.length + 1) (setItems (w.length + 1) w)

/-- Runs of one byte of a set cut to a single one. -/
def squeeze (set : List Char) : Option Char → Word → Word
  | _, [] => []
  | last, c :: r =>
    if last = some c && set.contains c then squeeze set last r else c :: squeeze set (some c) r

/-- What is done with each byte and, behind it, which runs are cut. -/
structure ByteMap where
  image : Char → Option Char
  squeezed : List Char

/-- Sends the standard input through a map of bytes. -/
def mapBytes (name : Word) (m : ByteMap) : Nat → Option Char → Routine Nat
  | 0, _ => pure 0
  | fuel + 1, last => do
    match ← read 0 blockSize with
    | .error e =>
      complain name (Word.lit "read error: " ++ reason e)
      pure 1
    | .ok b =>
      if b.isEmpty then pure 0
      else
        let out := squeeze m.squeezed last ((Word.ofBytes b).filterMap m.image)
        emit name out
        mapBytes name m fuel (out.getLast?.or last)

/-- The standard input with bytes replaced, deleted or squeezed. -/
def tr : Tool := fun args _ =>
  withOptions { plain := "dscCt", valued := "", long := [("delete", 'd'), ("squeeze-repeats", 's'), ("complement", 'c')] }
    args fun name p =>
    let sets := p.operands.map setBytes
    let all := (List.range 256).map Char.ofNat
    let turned := p.has 'c' || p.has 'C'
    let first := sets.headD []
    let first := if turned then all.filter fun c => !first.contains c else first
    if sets.isEmpty then refuse name (Word.lit "missing operand") 1
    else if sets.length > 2 then
      refuse name (Word.lit "extra operand '" ++ p.operands.getD 2 [] ++ ['\'']) 1
    else
      match p.has 'd', sets.drop 1 with
      | true, rest =>
        mapBytes name ⟨fun c => if first.contains c then none else some c, rest.headD []⟩ rounds
          none
      | false, second :: _ =>
        let padded := second ++ List.replicate (first.length - second.length) (second.getLastD ' ')
        let table := first.zip padded
        mapBytes name
          ⟨fun c => some (((table.find? (·.1 == c)).map (·.2)).getD c),
            if p.has 's' then second else []⟩ rounds none
      | false, [] =>
        if p.has 's' && !sets.isEmpty then mapBytes name ⟨some, first⟩ rounds none
        else refuse name (Word.lit "missing operand") 1

end Conformance.Machine.Tool
