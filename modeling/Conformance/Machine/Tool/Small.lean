import Conformance.Machine.Tool.Format

/-!
# Small tools

Tools that answer from their arguments and their environment alone.
-/

namespace Conformance.Machine.Tool

open Routine

/-- Writes its arguments. -/
def echo : Tool := fun args _ => do
  emit (args.headD []) (Format.plainEcho false false args.tail)
  pure 0

/-- The complaint of the tool about an argument that should be a number. -/
def numeralComplaint (c : Format.Complaint) : Word :=
  inQuotes c.argument ++ Word.lit (match c.flaw with
    | .notNumeric => ": expected a numeric value"
    | .leftover => ": value not completely converted"
    | .range => ": Numerical result out of range")

/-- Writes its arguments in a format. -/
def printf : Tool := fun args _ => do
  let name := args.headD []
  let operands := if args[1]? = some ['-', '-'] then args.drop 2 else args.tail
  match operands with
  | [] => refuse name (Word.lit "missing operand") 1
  | format :: rest =>
    let f := Format.run .tool format rest
    emit name f.output
    for c in f.complaints do complain name (numeralComplaint c)
    match f.fault with
    | some m =>
      complain name (m ++ Word.lit ": invalid conversion specification")
      pure 1
    | none =>
      match f.unused with
      | w :: _ =>
        complain name (Word.lit "warning: ignoring excess arguments, starting with " ++ inQuotes w)
      | [] => pure ()
      pure (if f.complaints.isEmpty then 0 else 1)

end Conformance.Machine.Tool
