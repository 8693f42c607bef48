import Conformance.Machine.Tool.Quotation
import Conformance.Machine.Tool.Real

/-!
# Formatted output

Formats with conversions and escapes, written again and again until all arguments are used, and
the plain output of arguments with escapes.
-/

namespace Conformance.Machine.Format

/-- The manner of a program that formats: the precision of its real numbers, with the number of bits
in front of the point of their hexadecimal form, and whether it knows more escapes and
conversions than a shell does. -/
structure Manner where
  real : Real.Kind
  lead : Nat
  rich : Bool

/-- The manner of shells. -/
def Manner.shell : Manner := ⟨Real.double, 1, false⟩

/-- The manner of the tool. -/
def Manner.tool : Manner := ⟨Real.extended, 4, true⟩

/-! ## Escapes -/

/-- Reads at most so many octal digits: their value and what follows. -/
def octal : Nat → Word → Nat × Word
  | limit, w =>
    let digits := (w.take limit).takeWhile fun c => '0' ≤ c && c ≤ '7'
    (digits.foldl (fun n c => n * 8 + (c.toNat - 48)) 0, w.drop digits.length)

/-- The byte that an escape in a format stands for, and what follows it; the backslash has been
read.  What is no escape stands for the backslash itself. -/
def escape (rich : Bool) (w : Word) : Char × Word :=
  match w with
  | [] => ('\\', [])
  | c :: r =>
    match escapes.find? (·.1 == c) with
    | some (_, d) => (d, r)
    | none =>
      if '0' ≤ c && c ≤ '7' then
        let (n, r) := octal 3 w
        (Char.ofNat (n % 256), r)
      else if rich && c = '"' then ('"', r)
      else if rich && c = 'x' then
        let digits := (r.take 2).takeWhile fun d => (Real.hexValue? d).isSome
        if digits.isEmpty then ('\\', w)
        else
          let n := digits.foldl (fun n d => n * 16 + (Real.hexValue? d).getD 0) 0
          (Char.ofNat n, r.drop digits.length)
      else ('\\', w)
where
  /-- The escapes of one letter. -/
  escapes : List (Char × Char) :=
    [('\\', '\\'), ('a', '\x07'), ('b', '\x08'), ('e', '\x1b'), ('f', '\x0c'), ('n', '\n'),
      ('r', '\r'), ('t', '\t'), ('v', '\x0b')]

/-- The escapes in an argument replaced, and whether an escape asks to stop the output.  A zero in
front of octal digits does not count as one of them. -/
def unescape (rich : Bool) : Nat → Word → Word × Bool
  | 0, _ => ([], false)
  | _ + 1, [] => ([], false)
  | fuel + 1, c :: r =>
    if c ≠ '\\' then
      let (out, stop) := unescape rich fuel r
      (c :: out, stop)
    else if r.head? = some 'c' then ([], true)
    else
      let digit (c : Char) : Bool := '0' ≤ c && c ≤ '7'
      let r := if r.head? = some '0' && (r.drop 1).head?.any digit then r.drop 1 else r
      let (c, r) := escape rich r
      let (out, stop) := unescape rich fuel r
      (c :: out, stop)

/-! ## Conversions -/

/-- The flags, the width and the precision of a conversion. -/
structure Layout where
  left : Bool
  plus : Bool
  blank : Bool
  zero : Bool
  alternate : Bool
  width : Nat
  precision : Option Nat

/-- A text filled up to the width. -/
def Layout.pad (l : Layout) (w : Word) : Word :=
  let fill := List.replicate (l.width - w.length) ' '
  if l.left then w ++ fill else fill ++ w

/-- The text of an argument. -/
def Layout.text (l : Layout) (w : Word) : Word :=
  l.pad (match l.precision with
    | some n => w.take n
    | none => w)

/-- A number with a sign in front of its digits. -/
def Layout.number (l : Layout) (sign digits : Word) : Word :=
  let digits :=
    match l.precision with
    | some n => List.replicate (n - digits.length) '0' ++ digits
    | none =>
      if l.zero && !l.left then
        List.replicate (l.width - digits.length - sign.length) '0' ++ digits
      else digits
  l.pad (sign ++ digits)

/-- The sign of a number. -/
def Layout.sign (l : Layout) (negative : Bool) : Word :=
  if negative then ['-'] else if l.plus then ['+'] else if l.blank then [' '] else []

/-- A real number in the notation of a conversion. -/
def Layout.real (l : Layout) (m : Manner) (c : Char) (x : Real) : Word :=
  let (negative, digits) := Real.write m.lead m.real.bits ⟨c, l.precision, l.alternate⟩ x
  let front := if (c = 'a' || c = 'A') && x.isFinite then digits.take 2 else []
  { l with precision := none, zero := l.zero && x.isFinite }.number (l.sign negative ++ front)
    (digits.drop front.length)

/-- What is wrong with an argument that should be a number. -/
inductive Flaw
  | notNumeric
  | leftover
  | range
  deriving DecidableEq, Repr

/-- A number read from an argument, and what is wrong with the argument. -/
structure Numeral where
  value : Int
  flaw : Option Flaw

/-- An argument that was complained about. -/
structure Complaint where
  argument : Word
  flaw : Flaw

/-- The value of digits in a base, and what follows them. -/
def digitsIn (base : Nat) (w : Word) : Nat × Word :=
  let value (c : Char) : Nat :=
    if c.isDigit then c.toNat - 48
    else if 'a' ≤ c && c ≤ 'f' then c.toNat - 87
    else if 'A' ≤ c && c ≤ 'F' then c.toNat - 55
    else 99
  let digits := w.takeWhile fun c => value c < base
  (digits.foldl (fun n c => n * base + value c) 0, w.drop digits.length)

/-- The value of the constant at the front, in base sixteen behind `0x` and in base eight behind
another zero, and what follows it. -/
def constant (w : Word) : Nat × Word :=
  match w with
  | '0' :: 'x' :: r => digitsIn 16 r
  | '0' :: 'X' :: r => digitsIn 16 r
  | '0' :: r => digitsIn 8 ('0' :: r)
  | r => digitsIn 10 r

/-- Reads a number in the notation of constants, behind a sign if there is one; a quote asks for
the value of the byte behind it.  A number that 64 bits do not hold is brought to their end. -/
def numeral (signed : Bool) (w : Word) : Numeral :=
  match w with
  | '"' :: c :: _ => ⟨c.toNat, none⟩
  | '\'' :: c :: _ => ⟨c.toNat, none⟩
  | [] => ⟨0, none⟩
  | _ =>
    let body := w.dropWhile fun c => c = ' ' || ('\t' ≤ c && c ≤ '\r')
    let (negative, body) :=
      match body with
      | '-' :: r => (true, r)
      | '+' :: r => (false, r)
      | r => (false, r)
    let (n, rest) := constant body
    let value : Int := if negative then -(n : Int) else n
    let low : Int := if signed then -0x8000000000000000 else -0xFFFFFFFFFFFFFFFF
    let high : Int := if signed then 0x7FFFFFFFFFFFFFFF else 0xFFFFFFFFFFFFFFFF
    let kept := if signed then max low (min value high)
      else if value < low ∨ high < value then high else value
    if rest.length = body.length then ⟨0, some .notNumeric⟩
    else if value < low ∨ high < value then ⟨kept, some .range⟩
    else if rest.isEmpty then ⟨value, none⟩
    else ⟨value, some .leftover⟩

/-- A number as a word of 64 bits. -/
def unsigned (i : Int) : Nat := (i % 0x10000000000000000).toNat

/-! ## Formats -/

/-- The state of the output: what is written (last first), the arguments left, the complaints. -/
structure Progress where
  out : List Word
  args : List Word
  complaints : List Complaint
  stop : Bool

/-- How formatting ends. -/
structure Formatted where
  output : Word
  complaints : List Complaint
  /-- The conversion of the format that there is not; what stands in front of it is written. -/
  fault : Option Word
  /-- The arguments that were not used. -/
  unused : List Word

/-- The flags in front of a width. -/
def flags (l : Layout) : Word → Layout × Word
  | '-' :: r => flags { l with left := true } r
  | '+' :: r => flags { l with plus := true } r
  | ' ' :: r => flags { l with blank := true } r
  | '0' :: r => flags { l with zero := true } r
  | '#' :: r => flags { l with alternate := true } r
  | r => (l, r)

/-- The next argument, an empty one if there is none. -/
def Progress.next (p : Progress) : Word × Progress :=
  match p.args with
  | a :: rest => (a, { p with args := rest })
  | [] => ([], p)

/-- The next argument as a number. -/
def Progress.nextNumber (p : Progress) (signed : Bool) : Int × Progress :=
  let (a, p) := p.next
  let n := numeral signed a
  (n.value, { p with complaints := p.complaints ++ (n.flaw.map (⟨a, ·⟩)).toList })

/-- The next argument as a real number. -/
def Progress.nextReal (p : Progress) (k : Real.Kind) : Real × Progress :=
  let (a, p) := p.next
  let complain (f : Flaw) : Progress := { p with complaints := p.complaints ++ [⟨a, f⟩] }
  match a with
  | [] => (Real.ofInt 0, p)
  | '"' :: c :: _ => (Real.ofInt c.toNat, p)
  | '\'' :: c :: _ => (Real.ofInt c.toNat, p)
  | _ =>
    match Real.read? k a with
    | none => (Real.ofInt 0, complain .notNumeric)
    | some r =>
      (r.value, if r.outOfRange then complain .range else if r.rest.isEmpty then p else complain .leftover)

/-- A width or a precision: digits, or a star that takes an argument. -/
def measure (p : Progress) (w : Word) : Option Int × Progress × Word :=
  match w with
  | '*' :: r =>
    let (n, p) := p.nextNumber true
    (some n, p, r)
  | _ =>
    let digits := w.takeWhile Char.isDigit
    ((Word.nat? digits).map Int.ofNat, p, w.drop digits.length)

/-- The output of one conversion; none if there is no such conversion. -/
def convert (m : Manner) (l : Layout) (c : Char) (p : Progress) : Option Progress :=
  let add (p : Progress) (w : Word) : Progress := { p with out := w :: p.out }
  let inBase (base : Nat) (front : Word) (up : Bool) : Progress :=
    let (i, p) := p.nextNumber false
    let n := unsigned i
    let digits := Nat.toDigits base n
    let digits := if up then digits.map Char.toUpper else digits
    add p (l.number (if l.alternate && n ≠ 0 then front else []) digits)
  match c with
  | 's' =>
    let (a, p) := p.next
    some (add p (l.text a))
  | 'b' =>
    let (a, p) := p.next
    let (w, stop) := unescape m.rich (a.length + 1) a
    some { add p (l.text w) with stop }
  | 'c' =>
    let (a, p) := p.next
    some (add p (l.pad [a.headD '\x00']))
  | 'd' | 'i' =>
    let (i, p) := p.nextNumber true
    some (add p (l.number (l.sign (decide (i < 0))) (Word.ofNat i.natAbs)))
  | 'u' => some (inBase 10 [] false)
  | 'o' => some (inBase 8 ['0'] false)
  | 'x' => some (inBase 16 ['0', 'x'] false)
  | 'X' => some (inBase 16 ['0', 'X'] true)
  | 'q' =>
    if m.rich then
      let (a, p) := p.next
      some (add p (l.pad (Tool.shown a)))
    else none
  | c =>
    if "eEfFgGaA".toList.contains c then
      let (x, p) := p.nextReal m.real
      some (add p (l.real m c x))
    else none

/-- Writes a format once. -/
def pass (m : Manner) : Nat → Word → Progress → Progress × Option Word
  | 0, _, p => (p, none)
  | _ + 1, [], p => (p, none)
  | fuel + 1, c :: r, p =>
    if c = '\\' then
      if m.rich && r.head? = some 'c' then ({ p with stop := true }, none)
      else
        let (c, r) := escape m.rich r
        pass m fuel r { p with out := [c] :: p.out }
    else if c ≠ '%' then pass m fuel r { p with out := [c] :: p.out }
    else if r.head? = some '%' then pass m fuel (r.drop 1) { p with out := ['%'] :: p.out }
    else
      let (l, afterFlags) := flags ⟨false, false, false, false, false, 0, none⟩ r
      let (width, p, afterWidth) := measure p afterFlags
      let width := width.getD 0
      let l := { l with left := l.left || width < 0, width := width.natAbs }
      let (l, p, rest) :=
        match afterWidth with
        | '.' :: r =>
          let (n, p, r) := measure p r
          let n := n.getD 0
          ({ l with precision := if n < 0 then none else some n.toNat }, p, r)
        | r => (l, p, r)
      let rest := if m.rich then rest.dropWhile ("hlLjzt".toList.contains ·) else rest
      match rest with
      | [] => (p, some (if m.rich then '%' :: r else Word.lit "missing format character"))
      | c :: r' =>
        match convert m l c p with
        | none => (p, some ('%' :: r.take (r.length - r'.length)))
        | some p => if p.stop then (p, none) else pass m fuel r' p

/-- Writes a format until the arguments are used up, or once if it uses none. -/
def passes (m : Manner) (format : Word) : Nat → Progress → Progress × Option Word
  | 0, p => (p, none)
  | fuel + 1, p =>
    match pass m (format.length + 1) format p with
    | (q, some fault) => (q, some fault)
    | (q, none) =>
      if q.stop || q.args.isEmpty || q.args.length = p.args.length then (q, none)
      else passes m format fuel q

/-- Formats arguments. -/
def run (m : Manner) (format : Word) (args : List Word) : Formatted :=
  let (p, fault) := passes m format (args.length + 1) ⟨[], args, [], false⟩
  ⟨p.out.reverse.flatten, p.complaints, fault, if p.stop then [] else p.args⟩

/-- Arguments with blanks between them, their escapes replaced unless `plain`, and whether an escape
stopped the output. -/
def joined (rich plain : Bool) : List Word → Word × Bool
  | [] => ([], false)
  | a :: rest =>
    let (w, stop) := if plain then (a, false) else unescape rich (a.length + 1) a
    if stop then (w, true)
    else if rest.isEmpty then (w, false)
    else
      let (more, stop) := joined rich plain rest
      (w ++ ' ' :: more, stop)

/-- Arguments as a shell writes them, their escapes replaced; `-n` in front leaves out the line feed,
and so does an escape that stops the output. -/
def echo (args : List Word) : Word :=
  let bare := args.head? = some ['-', 'n']
  let (out, stop) := joined false false (if bare then args.drop 1 else args)
  out ++ if bare || stop then [] else ['\n']

/-- The letters of an option of the tool `echo`; none of any other word. -/
def echoLetters (w : Word) : Word :=
  match w with
  | '-' :: cs => if cs.all ("neE".toList.contains ·) then cs else []
  | _ => []

/-- Arguments as the tool writes them: with options that leave out the line feed or ask for
escapes. -/
def plainEcho (bare escapes : Bool) : List Word → Word
  | [] => if bare then [] else ['\n']
  | a :: rest =>
    let letters := echoLetters a
    if letters.isEmpty then
      let (out, stop) := joined true (!escapes) (a :: rest)
      out ++ if bare || stop then [] else ['\n']
    else
      let step (e : Bool) (c : Char) : Bool := if c = 'n' then e else decide (c = 'e')
      plainEcho (bare || letters.contains 'n') (letters.foldl step escapes) rest

end Conformance.Machine.Format
