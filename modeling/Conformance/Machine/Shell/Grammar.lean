import Conformance.Machine.Tool.Basic

/-!
# The grammar of shell programs

Words are kept as pieces, so that it stays known which characters were quoted.  The source of a
command substitution is kept as it is and read when it is run.
-/

namespace Conformance.Machine.Shell

/-- What is done with the value of a parameter; with `orEmpty`, an empty value counts as none. -/
inductive Modifier
  | value
  | length
  | default (orEmpty : Bool)
  | assign (orEmpty : Bool)
  | alternative (orEmpty : Bool)
  | require (orEmpty : Bool)
  | cutFront (longest : Bool)
  | cutBack (longest : Bool)
  /-- What is no modifier; it is found out when the word is expanded. -/
  | unknown
  deriving DecidableEq, Repr

/-- A piece of a word. -/
inductive Piece
  | text (w : Word) (quoted : Bool)
  | parameter (name : Word) (modifier : Modifier) (operand : List Piece) (quoted : Bool)
  /-- A command substitution, in its older form or not. -/
  | command (source : Word) (older quoted : Bool)
  | arithmetic (body : List Piece) (quoted : Bool)

/-- A word in pieces. -/
abbrev Pieces := List Piece

/-- How a file is attached to a number. -/
inductive RedirectKind
  | read
  | write
  /-- Writes even to a file that is there and kept from being overwritten. -/
  | overwrite
  | append
  | both
  | duplicate
  /-- Reads a text that stands in the program. -/
  | here
  deriving DecidableEq, Repr

/-- A redirection: the number that is set, and the word that says what to, or the text that is
read. -/
structure Redirect where
  number : Nat
  kind : RedirectKind
  target : Pieces

/-- A command of words, with the line that it stands on. -/
structure SimpleCommand where
  assignments : List (Word × Pieces)
  words : List Pieces
  redirects : List Redirect
  line : Nat

/-- A command. -/
inductive Command
  | simple (c : SimpleCommand)
  | pipeline (parts : List Command)
  | negated (c : Command)
  | both (a b : Command)
  | either (a b : Command)
  | sequence (a b : Command)
  | background (c : Command)
  | branch (condition yes : Command) (no : Option Command)
  | loop (reversed : Bool) (condition body : Command)
  | each (line : Nat) (name : Word) (items : Option (List Pieces)) (body : Command)
  | select (line : Nat) (subject : Pieces) (clauses : List (List Pieces × Option Command))
  | subshell (body : Command)
  | redirected (line : Nat) (body : Command) (redirects : List Redirect)
  | define (name : Word) (body : Command)
  | nothing

instance : Inhabited Command := ⟨.nothing⟩

/-- A token: a word, an operator, the beginning of a redirection, the text of one, the end of a line,
what could not be read, or the end of the program. -/
inductive Token
  | word (pieces : Pieces)
  | operator (text : Word)
  | redirect (number : Nat) (kind : RedirectKind)
  | body (pieces : Pieces) (closed : Bool)
  | newline
  | bad (message : Word)
  | stop

/-- A token with the line that it stands on. -/
structure Placed where
  token : Token
  line : Nat

/-- A message with the line that it is about. -/
structure Fault where
  line : Nat
  message : Word

end Conformance.Machine.Shell
