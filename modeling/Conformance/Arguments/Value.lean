import Conformance.Toolchain.Invocation

/-!
# Option values

The kinds of value that options and operands take, and how each is read from its text.
-/

namespace Conformance.Arguments

/-- A kind of value. -/
inductive Kind
  | text
  | path
  | seconds
  | command
  deriving DecidableEq, Repr

/-- A value that has been read. -/
inductive Value
  | text (value : Text)
  | path (value : Path)
  | seconds (value : Nat)
  | command (value : Invocation)
  deriving DecidableEq, Repr

/-- Why a text is no value of its kind. -/
inductive ValueFault
  | missing
  | invalid (reason : Text)
  deriving DecidableEq, Repr

/-- The greatest number of seconds. -/
def secondsLimit : Nat := 0xFFFFFFFFFFFFFFFF

/-- Reads digits from left to right behind a number that is already read; the first character that
is no digit, or the first digit that makes the number too large, decides the fault. -/
def readDigits (sofar : Nat) : Text → Except Text Nat
  | [] => .ok sofar
  | c :: r =>
    if c.isDigit then
      let n := sofar * 10 + (c.toNat - '0'.toNat)
      if secondsLimit < n then .error "number too large to fit in target type".toList
      else readDigits n r
    else .error "invalid digit found in string".toList

/-- Reads a number of seconds: decimal digits, with a plus sign in front if one likes. -/
def readSeconds : Text → Except Text Nat
  | [] => .error "cannot parse integer from empty string".toList
  | '+' :: c :: r => readDigits 0 (c :: r)
  | t => readDigits 0 t

/-- Reads a value of a kind. -/
def Kind.read : Kind → Text → Except ValueFault Value
  | text, t => .ok (.text t)
  | path, t => if t.isEmpty then .error .missing else .ok (.path (.ofText t))
  | seconds, t =>
    match readSeconds t with
    | .ok n => .ok (.seconds n)
    | .error reason => .error (.invalid reason)
  | command, t =>
    match Invocation.parse? t with
    | some i => .ok (.command i)
    | none => .error (.invalid Invocation.emptyMessage)

end Conformance.Arguments
