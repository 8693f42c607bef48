import Conformance.Text.Basic

/-!
# UTF-8

`Utf8.decode?` reads bytes as the UTF-8 encoding of a text.  It takes one byte at a time and keeps
the sequence it is in the middle of; where the bytes are no encoding it reports the offset of the
first sequence that is at fault, and how many bytes of it could still have been a start.
`Utf8.lossy` reads any bytes as a text, with a sign in the place of each sequence at fault.
-/

namespace Conformance.Utf8

/-- The UTF-8 encoding of a text. -/
def encode (t : Text) : List UInt8 := t.flatMap String.utf8EncodeChar

/-- Why bytes are not UTF-8: the encoding is valid up to `index`, and the bytes from there on
either end too early (`length` is `none`) or start with `length` bytes that begin no character. -/
structure Fault where
  index : Nat
  length : Option Nat
  deriving DecidableEq, Repr

/-- The wording of a fault. -/
def Fault.message (f : Fault) : Text :=
  match f.length with
  | none => "incomplete utf-8 byte sequence from index ".toList ++ Text.ofNat f.index
  | some n =>
    "invalid utf-8 sequence of ".toList ++ Text.ofNat n ++ " bytes from index ".toList ++
      Text.ofNat f.index

/-- A sequence that has begun: `taken` of its bytes are read, `owed` are to come, the next one must
lie between `low` and `high`, and `value` holds the bits read so far. -/
structure Sequence where
  taken : Nat
  owed : Nat
  low : Nat
  high : Nat
  value : Nat
  deriving DecidableEq, Repr

/-- The sequence that a byte of at least `0x80` begins. -/
def Sequence.begin? (b : Nat) : Option Sequence :=
  if 0xC2 ≤ b ∧ b ≤ 0xDF then some ⟨1, 1, 0x80, 0xBF, b - 0xC0⟩
  else if b = 0xE0 then some ⟨1, 2, 0xA0, 0xBF, 0⟩
  else if b = 0xED then some ⟨1, 2, 0x80, 0x9F, 13⟩
  else if 0xE1 ≤ b ∧ b ≤ 0xEF then some ⟨1, 2, 0x80, 0xBF, b - 0xE0⟩
  else if b = 0xF0 then some ⟨1, 3, 0x90, 0xBF, 0⟩
  else if 0xF1 ≤ b ∧ b ≤ 0xF3 then some ⟨1, 3, 0x80, 0xBF, b - 0xF0⟩
  else if b = 0xF4 then some ⟨1, 3, 0x80, 0x8F, 4⟩
  else none

/-- The sequence with one more byte; every byte after the second is any continuation byte. -/
def Sequence.push (s : Sequence) (b : Nat) : Sequence :=
  ⟨s.taken + 1, s.owed - 1, 0x80, 0xBF, s.value * 64 + (b - 0x80)⟩

/-- Decodes from the byte at `index` on, in the middle of `pending` if there is one, behind the
reversed text `done`. -/
def decodeFrom (index : Nat) (pending : Option Sequence) (done : Text) :
    List UInt8 → Except Fault Text
  | [] =>
    match pending with
    | none => .ok done.reverse
    | some s => .error ⟨index - s.taken, none⟩
  | byte :: rest =>
    let b := byte.toNat
    match pending with
    | none =>
      if b < 0x80 then decodeFrom (index + 1) none (Char.ofNat b :: done) rest
      else
        match Sequence.begin? b with
        | none => .error ⟨index, some 1⟩
        | some s => decodeFrom (index + 1) (some s) done rest
    | some s =>
      if s.low ≤ b ∧ b ≤ s.high then
        let s' := s.push b
        if s'.owed = 0 then decodeFrom (index + 1) none (Char.ofNat s'.value :: done) rest
        else decodeFrom (index + 1) (some s') done rest
      else .error ⟨index - s.taken, some s.taken⟩

/-- The text that the bytes encode, or where and how they fail to encode one. -/
def decode? (bytes : List UInt8) : Except Fault Text := decodeFrom 0 none [] bytes

/-! ## Bytes that need not be an encoding -/

/-- The character that stands for bytes at fault. -/
def replacement : Char := '\uFFFD'

/-- What a byte gives that no sequence precedes: a character, or the sequence that it begins. -/
def opening (byte : UInt8) : Text × Option Sequence :=
  let b := byte.toNat
  if b < 0x80 then ([Char.ofNat b], none)
  else
    match Sequence.begin? b with
    | none => ([replacement], none)
    | some s => ([], some s)

/-- What a byte gives in the middle of a sequence: a byte that does not go on with it leaves the
sequence at fault and stands for itself. -/
def resume (s : Sequence) (byte : UInt8) : Text × Option Sequence :=
  let b := byte.toNat
  if s.low ≤ b ∧ b ≤ s.high then
    let s' := s.push b
    if s'.owed = 0 then ([Char.ofNat s'.value], none) else ([], some s')
  else
    let (text, pending) := opening byte
    (replacement :: text, pending)

/-- The text of bytes in the middle of `pending` if there is one. -/
def lossyFrom (pending : Option Sequence) : List UInt8 → Text
  | [] => if pending.isSome then [replacement] else []
  | byte :: rest =>
    let (text, pending) := (pending.elim opening resume) byte
    text ++ lossyFrom pending rest

/-- The text that bytes encode, with one sign in the place of each sequence at fault. -/
def lossy (bytes : List UInt8) : Text := lossyFrom none bytes

end Conformance.Utf8
