import Conformance.Machine.Shell.Tokens

/-!
# Reading shell programs

Tokens are read one complete command at a time: up to the line feed that ends it, so that what
stands in front of a fault has been run when the fault is found.
-/

namespace Conformance.Machine.Shell

/-! ## Tokens at the front -/

/-- The text of a word that is not quoted in any part. -/
def plainText : Pieces → Option Word
  | [.text w false] => some w
  | _ => none

/-- The words that are commands of the grammar. -/
def reserved : List String :=
  ["if", "then", "elif", "else", "fi", "while", "until", "for", "do", "done", "case", "in", "esac",
    "\x7b", "\x7d", "!"]

/-- The reserved word at the front. -/
def keyword? (ts : List Placed) : Option String :=
  match ts with
  | ⟨.word p, _⟩ :: _ => (plainText p).bind fun w => reserved.find? (·.toList == w)
  | _ => none

/-- How the token at the front is called in messages. -/
def describe (ts : List Placed) : Word :=
  let inQuotes (w : Word) : Word := '"' :: w ++ ['"']
  match ts with
  | [] => Word.lit "end of file"
  | t :: _ =>
    match t.token with
    | .stop => Word.lit "end of file"
    | .newline => Word.lit "newline"
    | .operator o => inQuotes o
    | .redirect .. | .body .. => Word.lit "redirection"
    | .bad m => m
    | .word _ =>
      match keyword? ts with
      | some k => inQuotes k.toList
      | none => Word.lit "word"

/-- The fault of a token that cannot stand where it does. -/
def unexpected (ts : List Placed) (expecting : String) : Fault :=
  let line := (ts.head?.map (·.line)).getD 1
  match ts with
  | ⟨.bad m, _⟩ :: _ => ⟨line, Word.lit "Syntax error: " ++ m⟩
  | _ =>
    let more :=
      if expecting.isEmpty then []
      else Word.lit " (expecting \"" ++ expecting.toList ++ Word.lit "\")"
    ⟨line, Word.lit "Syntax error: " ++ describe ts ++ Word.lit " unexpected" ++ more⟩

/-- The tokens behind line feeds. -/
def skipNewlines : List Placed → List Placed
  | ⟨.newline, _⟩ :: ts => skipNewlines ts
  | ts => ts

/-- Reads a reserved word. -/
def expect (k : String) (ts : List Placed) : Except Fault (List Placed) :=
  if keyword? ts = some k then .ok ts.tail else .error (unexpected ts k)

/-! ## Simple commands -/

/-- Reads redirections. -/
def readRedirects :
    Nat → List Redirect → List Placed → Except Fault (List Redirect × List Placed)
  | 0, done, ts => .ok (done, ts)
  | fuel + 1, done, ts =>
    match ts with
    | ⟨.redirect number kind, _⟩ :: ⟨.word target, _⟩ :: ts =>
      readRedirects fuel (done ++ [⟨number, kind, target⟩]) ts
    | ⟨.redirect .., _⟩ :: ts => .error (unexpected ts "")
    | ts => .ok (done, ts)

/-- The assignment that a word makes. -/
def assignment? (p : Pieces) : Option (Word × Pieces) :=
  match p with
  | .text w false :: rest =>
    let name := w.takeWhile isNameChar
    match w.drop name.length with
    | '=' :: v =>
      if name.head?.any isNameStart then
        some (name, if v.isEmpty then rest else .text v false :: rest)
      else none
    | _ => none
  | _ => none

/-- Reads the words and redirections of a simple command. -/
def readSimple (c : SimpleCommand) : Nat → List Placed → Except Fault (SimpleCommand × List Placed)
  | 0, ts => .ok (c, ts)
  | fuel + 1, ts =>
    match ts with
    | ⟨.word p, _⟩ :: ts =>
      match if c.words.isEmpty then assignment? p else none with
      | some a => readSimple { c with assignments := c.assignments ++ [a] } fuel ts
      | none => readSimple { c with words := c.words ++ [p] } fuel ts
    | ⟨.redirect .., _⟩ :: _ =>
      match readRedirects 1 [] ts with
      | .ok (rs, ts) => readSimple { c with redirects := c.redirects ++ rs } fuel ts
      | .error e => .error e
    | ⟨.bad .., _⟩ :: _ => .error (unexpected ts "")
    | ts => .ok (c, ts)

/-- Reads the words behind `in` up to the end of the line. -/
def readItems : Nat → List Pieces → List Placed → List Pieces × List Placed
  | 0, done, ts => (done, ts)
  | fuel + 1, done, ts =>
    match ts with
    | ⟨.word p, _⟩ :: ts => readItems fuel (done ++ [p]) ts
    | ts => (done, ts)

/-- Reads the patterns of a clause up to the closing parenthesis. -/
def readPatterns :
    Nat → List Pieces → List Placed → Except Fault (List Pieces × List Placed)
  | 0, _, ts => .error (unexpected ts "")
  | fuel + 1, done, ts =>
    match ts with
    | ⟨.word p, _⟩ :: ⟨.operator ['|'], _⟩ :: ts => readPatterns fuel (done ++ [p]) ts
    | ⟨.word p, _⟩ :: ⟨.operator [')'], _⟩ :: ts => .ok (done ++ [p], ts)
    | ⟨.word _, _⟩ :: ts => .error (unexpected ts ")")
    | ts => .error (unexpected ts "")

/-- The fault of a loop over words without the name of a variable. -/
def badVariable (ts : List Placed) : Fault :=
  ⟨(ts.head?.map (·.line)).getD 1, Word.lit "Syntax error: Bad for loop variable"⟩

/-- Whether the token at the front ends a list of commands: a closing sign, a reserved word that
goes on with a command, or the end of the program. -/
def endsList (ts : List Placed) : Bool :=
  match ts with
  | [] | ⟨.stop, _⟩ :: _ => true
  | ⟨.operator o, _⟩ :: _ => o = [')'] || o = [';', ';']
  | _ =>
    match keyword? ts with
    | some k => ["then", "elif", "else", "fi", "do", "done", "esac", "\x7d"].contains k
    | none => false

/-- Whether nothing but the end of the program is left. -/
def atStop (ts : List Placed) : Bool :=
  match ts with
  | [] | ⟨.stop, _⟩ :: _ => true
  | _ => false

/-! ## Commands -/

mutual

/-- Reads commands joined by `&&` and `||`. -/
def readAndOr : Nat → List Placed → Except Fault (Command × List Placed)
  | 0, ts => .error (unexpected ts "")
  | fuel + 1, ts => do
    let (c, ts) ← readPipeline fuel ts
    readOperands fuel c ts

/-- Reads what follows a command that may be joined to others. -/
def readOperands : Nat → Command → List Placed → Except Fault (Command × List Placed)
  | 0, c, ts => .ok (c, ts)
  | fuel + 1, c, ts =>
    match ts with
    | ⟨.operator ['&', '&'], _⟩ :: ts => do
      let (d, ts) ← readPipeline fuel (skipNewlines ts)
      readOperands fuel (.both c d) ts
    | ⟨.operator ['|', '|'], _⟩ :: ts => do
      let (d, ts) ← readPipeline fuel (skipNewlines ts)
      readOperands fuel (.either c d) ts
    | ts => .ok (c, ts)

/-- Reads commands joined by pipes. -/
def readPipeline : Nat → List Placed → Except Fault (Command × List Placed)
  | 0, ts => .error (unexpected ts "")
  | fuel + 1, ts => do
    if keyword? ts = some "!" then
      let (c, ts) ← readPipeline fuel ts.tail
      pure (.negated c, ts)
    else
      let (c, ts) ← readCommand fuel ts
      let (cs, ts) ← readPiped fuel [c] ts
      match cs with
      | [c] => pure (c, ts)
      | cs => pure (.pipeline cs, ts)

/-- Reads the further commands of a pipeline. -/
def readPiped : Nat → List Command → List Placed → Except Fault (List Command × List Placed)
  | 0, cs, ts => .ok (cs, ts)
  | fuel + 1, cs, ts =>
    match ts with
    | ⟨.operator ['|'], _⟩ :: ts => do
      let (c, ts) ← readCommand fuel (skipNewlines ts)
      readPiped fuel (cs ++ [c]) ts
    | ts => .ok (cs, ts)

/-- Reads one command with its redirections. -/
def readCommand : Nat → List Placed → Except Fault (Command × List Placed)
  | 0, ts => .error (unexpected ts "")
  | fuel + 1, ts => do
    let line := (ts.head?.map (·.line)).getD 0
    let withRedirects (c : Command) (ts : List Placed) : Except Fault (Command × List Placed) := do
      let (rs, ts) ← readRedirects (ts.length + 1) [] ts
      pure (if rs.isEmpty then c else .redirected line c rs, ts)
    match keyword? ts with
    | some "if" =>
      let (c, ts) ← readBranches fuel ts.tail
      withRedirects c ts
    | some "while" =>
      let (condition, ts) ← readList fuel ts.tail
      let ts ← expect "do" ts
      let (body, ts) ← readList fuel ts
      let ts ← expect "done" ts
      withRedirects (.loop false condition body) ts
    | some "until" =>
      let (condition, ts) ← readList fuel ts.tail
      let ts ← expect "do" ts
      let (body, ts) ← readList fuel ts
      let ts ← expect "done" ts
      withRedirects (.loop true condition body) ts
    | some "for" =>
      match ts.tail with
      | ⟨.word p, _⟩ :: ts =>
        let name := (plainText p).getD []
        if !(name.head?.any isNameStart && name.all isNameChar) then
          .error (badVariable ts)
        else
          let ts := skipNewlines ts
          let (items, ts) :=
            if keyword? ts = some "in" then
              let (items, ts) := readItems (ts.length + 1) [] ts.tail
              (some items, ts)
            else (none, ts)
          let ts :=
            match ts with
            | ⟨.operator [';'], _⟩ :: ts => ts
            | ts => ts
          let ts ← expect "do" (skipNewlines ts)
          let (body, ts) ← readList fuel ts
          let ts ← expect "done" ts
          withRedirects (.each line name items body) ts
      | ts => .error (badVariable ts)
    | some "case" =>
      match ts.tail with
      | ⟨.word subject, _⟩ :: ts =>
        let ts ← expect "in" (skipNewlines ts)
        let (clauses, ts) ← readClauses fuel [] ts
        withRedirects (.select line subject clauses) ts
      | ts => .error (unexpected ts "")
    | some "\x7b" =>
      let (body, ts) ← readList fuel ts.tail
      let ts ← expect "\x7d" ts
      withRedirects body ts
    | some _ => .error (unexpected ts "")
    | none =>
      match ts with
      | ⟨.operator ['('], _⟩ :: ts =>
        let (body, ts) ← readList fuel ts
        match ts with
        | ⟨.operator [')'], _⟩ :: ts => withRedirects (.subshell body) ts
        | ts => .error (unexpected ts ")")
      | ⟨.word p, _⟩ :: ⟨.operator ['('], _⟩ :: ⟨.operator [')'], _⟩ :: ts =>
        let (body, ts) ← readCommand fuel (skipNewlines ts)
        pure (.define ((plainText p).getD []) body, ts)
      | ⟨.word _, _⟩ :: _ | ⟨.redirect .., _⟩ :: _ =>
        let (c, ts) ← readSimple ⟨[], [], [], line⟩ (ts.length + 1) ts
        match ts with
        | ⟨.operator ['('], _⟩ :: _ => .error (unexpected ts "")
        | ts => pure (.simple c, ts)
      | ts => .error (unexpected ts "")

/-- Reads a condition and what is done, up to `fi`. -/
def readBranches : Nat → List Placed → Except Fault (Command × List Placed)
  | 0, ts => .error (unexpected ts "")
  | fuel + 1, ts => do
    let (condition, ts) ← readList fuel ts
    let ts ← expect "then" ts
    let (yes, ts) ← readList fuel ts
    match keyword? ts with
    | some "elif" =>
      let (no, ts) ← readBranches fuel ts.tail
      pure (.branch condition yes (some no), ts)
    | some "else" =>
      let (no, ts) ← readList fuel ts.tail
      let ts ← expect "fi" ts
      pure (.branch condition yes (some no), ts)
    | _ =>
      let ts ← expect "fi" ts
      pure (.branch condition yes none, ts)

/-- Reads the clauses of a selection, up to `esac`. -/
def readClauses : Nat → List (List Pieces × Option Command) → List Placed →
    Except Fault (List (List Pieces × Option Command) × List Placed)
  | 0, _, ts => .error (unexpected ts "esac")
  | fuel + 1, done, ts => do
    let ts := skipNewlines ts
    if keyword? ts = some "esac" then pure (done, ts.tail)
    else
      let ts :=
        match ts with
        | ⟨.operator ['('], _⟩ :: ts => ts
        | ts => ts
      let (patterns, ts) ← readPatterns (ts.length + 1) [] ts
      let inside := skipNewlines ts
      let (body, ts) ←
        match inside with
        | ⟨.operator [';', ';'], _⟩ :: _ => pure (none, inside)
        | _ =>
          if keyword? inside = some "esac" then pure (none, inside)
          else do
            let (c, ts) ← readList fuel inside
            pure (some c, ts)
      match ts with
      | ⟨.operator [';', ';'], _⟩ :: ts => readClauses fuel (done ++ [(patterns, body)]) ts
      | ts =>
        let ts ← expect "esac" ts
        pure (done ++ [(patterns, body)], ts)

/-- Reads commands up to a reserved word, a closing sign or the end of the program. -/
def readList : Nat → List Placed → Except Fault (Command × List Placed)
  | 0, ts => .error (unexpected ts "")
  | fuel + 1, ts => do
    let start := skipNewlines ts
    if atStop start then pure (.nothing, start)
    else
      let (c, ts) ← readAndOr fuel start
      let (c, separated, ts) :=
        match ts with
        | ⟨.operator ['&'], _⟩ :: ts => (Command.background c, true, ts)
        | ⟨.operator [';'], _⟩ :: ts => (c, true, ts)
        | ⟨.newline, _⟩ :: ts => (c, true, ts)
        | ts => (c, false, ts)
      let rest := skipNewlines ts
      if endsList rest || !separated then pure (c, rest)
      else
        let (d, ts) ← readList fuel rest
        pure (.sequence c d, ts)

end

/-- A complete command, the tokens behind it, and whether nothing at all follows it. -/
structure CompleteCommand where
  command : Command
  rest : List Placed
  last : Bool

/-- Reads commands up to the end of a line. -/
def readComplete : Nat → Option Command → List Placed → Except Fault CompleteCommand
  | 0, c, ts => .ok ⟨c.getD .nothing, ts, atStop ts⟩
  | fuel + 1, sofar, ts => do
    let (c, ts) ← readAndOr (4 * ts.length + 16) ts
    let add (c : Command) : Command :=
      match sofar with
      | some s => .sequence s c
      | none => c
    match ts with
    | ⟨.operator [';'], _⟩ :: ts => behind fuel (add c) ts
    | ⟨.operator ['&'], _⟩ :: ts => behind fuel (add (.background c)) ts
    | ⟨.newline, _⟩ :: ts => pure ⟨add c, ts, false⟩
    | ts => if atStop ts then pure ⟨add c, ts, true⟩ else .error (unexpected ts "")
where
  /-- Goes on behind a separator. -/
  behind (fuel : Nat) (c : Command) (ts : List Placed) : Except Fault CompleteCommand :=
    match ts with
    | ⟨.newline, _⟩ :: ts => .ok ⟨c, ts, false⟩
    | ts => if atStop ts then .ok ⟨c, ts, true⟩ else readComplete fuel (some c) ts

/-- The next complete command; none at the end of the program. -/
def nextCommand (ts : List Placed) : Except Fault (Option CompleteCommand) :=
  let ts := skipNewlines ts
  if atStop ts then .ok none else (readComplete (ts.length + 1) none ts).map some

/-! ## Whole programs -/

/-- Whether tokens can be read to the end. -/
def readsThrough : Nat → List Placed → Bool
  | 0, _ => false
  | fuel + 1, ts =>
    match nextCommand ts with
    | .error _ => false
    | .ok none => true
    | .ok (some c) => readsThrough fuel c.rest

/-- Whether a source holds complete commands; `depth` bounds the substitutions inside of each
other. -/
def isComplete : Nat → Word → Bool
  | 0, _ => false
  | depth + 1, w =>
    let (ts, closed) := tokensWith (isComplete depth) w
    closed && readsThrough (ts.length + 1) ts

/-- The greatest depth of substitutions whose ends are found by reading their commands. -/
def substitutionDepth : Nat := 8

/-- The tokens of a program, its end being the last one. -/
def tokens (w : Word) : List Placed := (tokensWith (isComplete substitutionDepth) w).1

/-! ## Other names for commands -/

/-- Whether a word stands behind a token as the name of a command does. -/
def opensCommand (t : Token) : Bool :=
  match t with
  | .newline => true
  | .operator o => o ≠ [';', ';']
  | .word p =>
    match plainText p with
    | some w => ["if", "then", "elif", "else", "while", "until", "do", "\x7b", "!"].any (·.toList == w)
    | none => false
  | _ => false

/-- Replaces the names of commands that stand for a text by the tokens of the text.  `expects` says
whether the name of a command comes next; `used` are the names that are being replaced. -/
def replaceNames (aliases : List (Word × Word)) :
    Nat → List Word → Bool → List Placed → List Placed
  | 0, _, _, ts => ts
  | _ + 1, _, _, [] => []
  | fuel + 1, used, expects, t :: rest =>
    match t.token with
    | .redirect .. =>
      match rest with
      | target :: rest => t :: target :: replaceNames aliases fuel used expects rest
      | [] => [t]
    | .word p =>
      let meant :=
        if expects then
          (plainText p).bind fun w =>
            (aliases.find? fun (n, _) => n == w && !used.contains w)
        else none
      match meant with
      | some (name, text) =>
        let inside := ((tokens text).filter fun u => !(u.token matches .stop)).map fun u =>
          { u with line := t.line }
        let goesOn := text.getLast?.any fun c => c = ' ' || c = '\t'
        replaceNames aliases fuel (name :: used) true inside ++
          replaceNames aliases fuel used goesOn rest
      | none =>
        t :: replaceNames aliases fuel used
          (opensCommand t.token || (expects && (assignment? p).isSome)) rest
    | token => t :: replaceNames aliases fuel used (opensCommand token) rest

/-- The next complete command, with some names standing for other texts. -/
def nextCommandWith (aliases : List (Word × Word)) (ts : List Placed) :
    Except Fault (Option CompleteCommand) :=
  if aliases.isEmpty then nextCommand ts
  else
    let ts := skipNewlines ts
    let stop : Placed := ⟨.stop, ((ts.getLast?).map (·.line)).getD 1⟩
    let rest :=
      match nextCommand ts with
      | .ok (some c) => c.rest
      | _ => []
    let front := ts.take (ts.length - rest.length)
    let replaced := replaceNames aliases (16 * ts.length + 64) [] true front
    match nextCommand (replaced ++ [stop]) with
    | .ok (some c) => .ok (some { c with rest := c.rest.dropLast ++ rest, last := c.last && atStop rest })
    | r => r

end Conformance.Machine.Shell
