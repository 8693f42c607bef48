import Conformance.Machine.Tool.Basic

/-!
# Permissions of files

Nine bits say who may read, write and run a file: its owner, its group and all others.  They are
written as an octal number or changed by clauses such as `u+x,go-w`.
-/

namespace Conformance.Machine.Permissions

/-- Reads an octal number. -/
def octal? (w : Word) : Option Nat :=
  if !w.isEmpty && w.all fun c => '0' ≤ c && c ≤ '7' then
    some (w.foldl (fun n c => n * 8 + (c.toNat - 48)) 0)
  else none

/-- The bits of the letters that say who. -/
def whoMask (who : Word) : Nat :=
  let bits (c : Char) : Nat := if who.contains c || who.contains 'a' || who.isEmpty then 7 else 0
  bits 'u' * 64 + bits 'g' * 8 + bits 'o'

/-- The bits of the letters that say what; `mode` are the bits so far. -/
def whatBits (mode : Nat) (what : Word) : Nat :=
  what.foldl (fun bits c =>
    bits ||| match c with
      | 'r' => 0o444
      | 'w' => 0o222
      | 'x' => 0o111
      | 'X' => if mode &&& 0o111 = 0 then 0 else 0o111
      | 'u' => (mode / 64 % 8) * 0o111
      | 'g' => (mode / 8 % 8) * 0o111
      | 'o' => (mode % 8) * 0o111
      | _ => 0) 0

/-- Applies the operations of a clause. -/
def operate (mask : Nat) : Nat → Word → Nat → Option Nat
  | 0, _, _ => none
  | _ + 1, [], mode => some mode
  | fuel + 1, op :: rest, mode =>
    let what := rest.takeWhile fun c => "rwxXugost".toList.contains c
    let bits := whatBits mode what &&& mask
    let rest := rest.drop what.length
    match op with
    | '+' => operate mask fuel rest (mode ||| bits)
    | '-' => operate mask fuel rest (mode - (mode &&& bits))
    | '=' => operate mask fuel rest ((mode - (mode &&& mask)) ||| bits)
    | _ => none

/-- Applies the clauses of a change. -/
def change? (w : Word) (mode : Nat) : Option Nat :=
  (w.splitOn ',').foldlM (fun mode clause =>
    let who := clause.takeWhile fun c => "ugoa".toList.contains c
    let rest := clause.drop who.length
    if rest.isEmpty then none else operate (whoMask who) (rest.length + 1) rest mode) mode

/-- The permissions as letters behind the owner, the group and all others. -/
def symbols (mode : Nat) : Word :=
  let part (n : Nat) : Word :=
    (if n / 4 % 2 = 1 then ['r'] else []) ++ (if n / 2 % 2 = 1 then ['w'] else []) ++
      (if n % 2 = 1 then ['x'] else [])
  Word.lit "u=" ++ part (mode / 64 % 8) ++ Word.lit ",g=" ++ part (mode / 8 % 8) ++
    Word.lit ",o=" ++ part (mode % 8)

/-- Permissions as nine letters. -/
def letters (mode : Nat) : Word :=
  (List.range 9).map fun i =>
    if mode.testBit (8 - i) then ['r', 'w', 'x'].getD (i % 3) '-' else '-'

/-- The permissions of a file, apart from those that cannot be told. -/
def ofNode : Node → Nat
  | .file _ executable => if executable then 0o755 else 0o644
  | .directory .. | .program _ => 0o755
  | .link _ => 0o777
  | .device _ => 0o666
  | .fifo => 0o644

end Conformance.Machine.Permissions
