import Conformance.Session.Run

/-!
# What is shown

The items that are written while a session runs: results and the summary go to the standard
output, remarks about the run itself to the error output.  An item is a value; its text is made
last.
-/

namespace Conformance.Console

/-- A sign in front of a message. -/
inductive Mark
  | pass
  | fail
  | info
  | warn
  deriving DecidableEq, Repr

/-- The character of a sign. -/
def Mark.symbol : Mark → Char
  | pass => '✓'
  | fail => '✗'
  | info => '→'
  | warn => '!'

/-- One item. -/
inductive Item
  | blank
  | header (title : Text)
  | message (mark : Mark) (text : Text)
  | detail (label text : Text)
  | relayed (line : Text)
  | plain (line : Text)
  deriving DecidableEq, Repr

/-- The lines of an item. -/
def Item.lines : Item → List Text
  | blank => [[]]
  | header title => [[], "=== ".toList ++ title ++ " ===".toList]
  | message mark text => [mark.symbol :: ' ' :: text]
  | detail label text => [[' ', ' ', ' ', ' '] ++ label ++ ' ' :: text]
  | relayed line => [[' ', ' ', ' ', ' '] ++ line]
  | plain line => [line]

/-- The text of items: their lines, each ended by a line feed. -/
def render (items : List Item) : Text := items.flatMap fun i => i.lines.flatMap (· ++ ['\n'])

/-- The position and the name of a file. -/
def position (index total : Nat) (name : Text) : Text :=
  ['['] ++ Text.ofNat index ++ ['/'] ++ Text.ofNat total ++ "] ".toList ++ name

/-- What is shown below the result of a file that failed: the two lines that differ, or what the
compiler wrote. -/
def failureDetails (outcome : Outcome) : Failure → List Item
  | .mismatch (.line _ _ reference candidate) =>
    [.detail "Reference:".toList reference, .detail "Candidate:".toList candidate]
  | .mismatch (.length ..) => []
  | .pipeline .. => []
  | .compile _ stderr =>
    outcome.output.map .relayed ++ stderr.map (.detail "stderr:".toList)

/-- The items of a file that is done; in silence a file that passed is not mentioned. -/
def outcomeItems (silent : Bool) (index total : Nat) (outcome : Outcome) : List Item :=
  let title := position index total outcome.name
  match outcome.failure with
  | none =>
    if silent then []
    else .message .pass (title ++ " passed".toList) :: outcome.output.map .relayed
  | some failure =>
    .message .fail (title ++ ": ".toList ++ failure.message) :: failureDetails outcome failure

/-- The items of an event. -/
def eventItems (silent : Bool) : Event → List Item
  | .started .. => []
  | .finished index total outcome => outcomeItems silent index total outcome

/-- The result part of the summary. -/
def summaryItems (r : Report) : List Item :=
  .header "Test Summary".toList ::
    if r.allPassed then
      [.message .pass ("All ".toList ++ Text.ofNat r.passed ++ " file(s) passed!".toList)]
    else
      .plain (Text.ofNat r.failed ++ " of ".toList ++ Text.ofNat r.total ++
          " file(s) failed:".toList) ::
        r.failedNames.map fun name => .plain (' ' :: ' ' :: name)

/-- The remark on the files that were not run. -/
def summaryRemarks (r : Report) : List Item :=
  if r.notRun = 0 then []
  else
    [.message .warn ("stopped after first failure; ".toList ++ Text.ofNat r.notRun ++
      " file(s) not run".toList)]

end Conformance.Console
