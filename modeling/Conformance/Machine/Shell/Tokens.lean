import Conformance.Machine.Shell.Grammar

/-!
# Tokens of shell programs

A program is cut into tokens from left to right.  What cannot be read becomes a token of its own,
so that the commands in front of it are still run.  The text of a redirection stands behind the
line that asks for it.

A command substitution ends at the first closing parenthesis in front of which complete commands
stand; `complete` decides that.
-/

namespace Conformance.Machine.Shell

/-! ## Names -/

/-- Whether a character begins a name. -/
def isNameStart (c : Char) : Bool := c.isAlpha || c = '_'

/-- Whether a character goes on with a name. -/
def isNameChar (c : Char) : Bool := c.isAlphanum || c = '_'

/-- The parameters that are named by one sign. -/
def isSpecial (c : Char) : Bool := c.isDigit || "@*#?-$!".toList.contains c

/-- Whether a character ends a bare word. -/
def endsWord (c : Char) : Bool := " \t\n;&|<>()".toList.contains c

/-! ## Words -/

/-- What stands around the operand of a modifier: nothing, double quotes or the text of a
redirection. -/
inductive Around
  | nothing
  | quotes
  | text
  deriving DecidableEq

/-- Where pieces are read: in a bare word, in double quotes, in the text of a redirection, as the
operand of a modifier, or in an arithmetic expression. -/
inductive Context
  | bare
  | quotes
  | here
  | operand (around : Around)
  | arithmetic (depth : Nat)

/-- Whether the text of a context counts as quoted. -/
def Context.quoted : Context → Bool
  | bare => false
  | quotes => true
  | here => true
  | operand around => around ≠ .nothing
  | arithmetic _ => true

/-- What stands around an operand that is read in a context. -/
def Context.around : Context → Around
  | bare => .nothing
  | quotes => .quotes
  | here => .text
  | operand around => around
  | arithmetic _ => .text

/-- The complaint about a parameter that the text ends in. -/
def Context.unclosed (ctx : Context) : Word :=
  Word.lit (if ctx.around = .quotes then "Unterminated quoted string" else "Missing '\x7d'")

/-- Puts a text behind pieces, which are in reverse. -/
def addText (w : Word) (quoted : Bool) (done : Pieces) : Pieces :=
  match done with
  | .text v q :: rest => if q = quoted then .text (v ++ w) q :: rest else .text w quoted :: done
  | _ => .text w quoted :: done

/-- The text up to a closing single quote. -/
def singleQuoted (w : Word) : Except Word (Word × Word) :=
  match w.dropWhile (· ≠ '\'') with
  | _ :: rest => .ok (w.takeWhile (· ≠ '\''), rest)
  | [] => .error (Word.lit "Unterminated quoted string")

/-- The source of a command substitution up to the parenthesis that closes as many as were
opened. -/
def balancedSource : Nat → Nat → Word → Word → Except Word (Word × Word)
  | 0, _, _, _ | _ + 1, _, _, [] => .error (Word.lit "end of file unexpected (expecting \")\")")
  | fuel + 1, depth, done, c :: rest =>
    match c with
    | '\\' =>
      match rest with
      | d :: rest => balancedSource fuel depth (d :: '\\' :: done) rest
      | [] => balancedSource fuel depth ('\\' :: done) []
    | '\'' =>
      match singleQuoted rest with
      | .ok (body, rest) => balancedSource fuel depth ('\'' :: body.reverse ++ '\'' :: done) rest
      | .error e => .error e
    | '"' =>
      match doubleQuoted fuel rest with
      | some body => balancedSource fuel depth (body.reverse ++ '"' :: done) (rest.drop body.length)
      | none => .error (Word.lit "Unterminated quoted string")
    | '(' => balancedSource fuel (depth + 1) ('(' :: done) rest
    | ')' =>
      match depth with
      | 0 => .ok (done.reverse, rest)
      | depth + 1 => balancedSource fuel depth (')' :: done) rest
    | c => balancedSource fuel depth (c :: done) rest
where
  /-- The text up to a closing double quote and it too. -/
  doubleQuoted : Nat → Word → Option Word
  | 0, _ | _ + 1, [] => none
  | fuel + 1, '\\' :: c :: rest => (doubleQuoted fuel rest).map fun w => '\\' :: c :: w
  | _ + 1, '"' :: _ => some ['"']
  | fuel + 1, c :: rest => (doubleQuoted fuel rest).map (c :: ·)

/-- The text up to a closing parenthesis in front of which complete commands stand. -/
def completeSource (complete : Word → Bool) (done : Word) : Word → Option (Word × Word)
  | [] => none
  | '\\' :: c :: rest => completeSource complete (c :: '\\' :: done) rest
  | c :: rest =>
    if c = ')' && complete done.reverse then some (done.reverse, rest)
    else completeSource complete (c :: done) rest

/-- The source of a command substitution, and what follows it. -/
def commandSource (complete : Word → Bool) (w : Word) : Except Word (Word × Word) :=
  match completeSource complete [] w with
  | some r => .ok r
  | none => balancedSource (w.length + 1) 0 [] w

/-- The sign that encloses a command substitution of the older form. -/
def backquote : Char := Char.ofNat 96

/-- The source between backquotes: a backslash there quotes a backquote, a dollar or itself, and
inside of double quotes such a quote too. -/
def backquoted (quoted : Bool) : Nat → Word → Word → Except Word (Word × Word)
  | 0, _, _ | _ + 1, _, [] => .error (Word.lit "EOF in backquote substitution")
  | fuel + 1, done, '\\' :: c :: rest =>
    if c = backquote || c = '$' || c = '\\' || (quoted && c = '"') then
      backquoted quoted fuel (c :: done) rest
    else backquoted quoted fuel (c :: '\\' :: done) rest
  | fuel + 1, done, c :: rest =>
    if c = backquote then .ok (done.reverse, rest) else backquoted quoted fuel (c :: done) rest

/-- The modifier behind the name of a parameter. -/
def modifier? (w : Word) : Option (Modifier × Word) :=
  match w with
  | ':' :: '-' :: r => some (.default true, r)
  | ':' :: '=' :: r => some (.assign true, r)
  | ':' :: '+' :: r => some (.alternative true, r)
  | ':' :: '?' :: r => some (.require true, r)
  | '-' :: r => some (.default false, r)
  | '=' :: r => some (.assign false, r)
  | '+' :: r => some (.alternative false, r)
  | '?' :: r => some (.require false, r)
  | '#' :: '#' :: r => some (.cutFront true, r)
  | '#' :: r => some (.cutFront false, r)
  | '%' :: '%' :: r => some (.cutBack true, r)
  | '%' :: r => some (.cutBack false, r)
  | _ => none

/-- The name of a parameter at the front. -/
def parameterName (w : Word) : Option (Word × Word) :=
  match w with
  | c :: r =>
    if isNameStart c then some (w.takeWhile isNameChar, w.dropWhile isNameChar)
    else if c.isDigit then some (w.takeWhile Char.isDigit, w.dropWhile Char.isDigit)
    else if isSpecial c then some ([c], r)
    else none
  | [] => none

/-- Reads pieces up to the end of a context; `done` holds the pieces so far in reverse. -/
def readPieces (complete : Word → Bool) :
    Nat → Context → Pieces → Word → Except Word (Pieces × Word)
  | 0, _, _, _ => .error (Word.lit "Unterminated quoted string")
  | fuel + 1, ctx, done, w =>
    let quoted := ctx.quoted
    let literal (c : Char) (rest : Word) : Except Word (Pieces × Word) :=
      readPieces complete fuel ctx (addText [c] quoted done) rest
    match w with
    | [] =>
      match ctx with
      | .bare | .here => .ok (done.reverse, [])
      | .quotes => .error (Word.lit "Unterminated quoted string")
      | .operand _ => .error ctx.unclosed
      | .arithmetic _ => .error (Word.lit "Missing '))'")
    | '\\' :: rest =>
      match rest with
      | [] => literal '\\' []
      | '\n' :: rest => readPieces complete fuel ctx done rest
      | c :: more =>
        let special := "$\"\\".toList.contains c || c = backquote
        match ctx with
        | .here =>
          if special && c ≠ '"' then readPieces complete fuel ctx (addText [c] true done) more
          else literal '\\' rest
        | .bare | .operand .nothing =>
          readPieces complete fuel ctx (addText [c] true done) more
        | .operand _ =>
          if special || c = '\x7d' then readPieces complete fuel ctx (addText [c] true done) more
          else literal '\\' rest
        | _ =>
          if special then readPieces complete fuel ctx (addText [c] true done) more
          else literal '\\' rest
    | '\'' :: rest =>
      match ctx with
      | .bare | .operand .nothing =>
        match singleQuoted rest with
        | .ok (body, rest) => readPieces complete fuel ctx (addText body true done) rest
        | .error e => .error e
      | _ => literal '\'' rest
    | '"' :: rest =>
      match ctx with
      | .quotes => .ok (done.reverse, rest)
      | .here => literal '"' rest
      | .arithmetic _ => readPieces complete fuel ctx done rest
      | _ =>
        match readPieces complete fuel .quotes [.text [] true] rest with
        | .ok (inside, rest) => readPieces complete fuel ctx (inside.reverse ++ done) rest
        | .error e => .error e
    | '$' :: rest =>
      match rest with
      | '(' :: '(' :: more =>
        match readPieces complete fuel (.arithmetic 0) [] more with
        | .ok (body, rest) => readPieces complete fuel ctx (.arithmetic body quoted :: done) rest
        | .error e => .error e
      | '(' :: more =>
        match commandSource complete more with
        | .ok (source, rest) =>
          readPieces complete fuel ctx (.command source false quoted :: done) rest
        | .error e => .error e
      | '\x7b' :: '#' :: '\x7d' :: more =>
        readPieces complete fuel ctx (.parameter ['#'] .value [] quoted :: done) more
      | '\x7b' :: '#' :: more =>
        match parameterName more with
        | some (name, '\x7d' :: rest) =>
          readPieces complete fuel ctx (.parameter name .length [] quoted :: done) rest
        | _ => unknownModifier fuel ctx done more
      | '\x7b' :: more =>
        match parameterName more with
        | none => unknownModifier fuel ctx done more
        | some (name, '\x7d' :: rest) =>
          readPieces complete fuel ctx (.parameter name .value [] quoted :: done) rest
        | some (name, rest) =>
          match modifier? rest with
          | none => unknownModifier fuel ctx done rest
          | some (m, rest) =>
            let inner :=
              match m with
              | .cutFront _ | .cutBack _ => .nothing
              | _ => ctx.around
            match readPieces complete fuel (.operand inner) [] rest with
            | .ok (operand, rest) =>
              readPieces complete fuel ctx (.parameter name m operand quoted :: done) rest
            | .error e => .error e
      | _ =>
        match parameterName (match rest with
          | c :: r => if c.isDigit then [c] else c :: r
          | [] => []) with
        | some (name, _) =>
          readPieces complete fuel ctx (.parameter name .value [] quoted :: done)
            (rest.drop name.length)
        | none => literal '$' rest
    | c :: rest =>
      if c = backquote then
        match backquoted quoted (rest.length + 1) [] rest with
        | .ok (source, rest) =>
          readPieces complete fuel ctx (.command source true quoted :: done) rest
        | .error e => .error e
      else
        match ctx with
        | .bare => if endsWord c then .ok (done.reverse, w) else literal c rest
        | .quotes | .here => literal c rest
        | .operand _ => if c = '\x7d' then .ok (done.reverse, rest) else literal c rest
        | .arithmetic depth =>
          if c = '(' then
            readPieces complete fuel (.arithmetic (depth + 1)) (addText [c] quoted done) rest
          else if c = ')' then
            match depth, rest with
            | 0, ')' :: rest => .ok (done.reverse, rest)
            | 0, _ => .error (Word.lit "Missing '))'")
            | depth + 1, _ =>
              readPieces complete fuel (.arithmetic depth) (addText [c] quoted done) rest
          else literal c rest
where
  /-- Goes on behind a parameter whose modifier is not known. -/
  unknownModifier (fuel : Nat) (ctx : Context) (done : Pieces) (w : Word) :
      Except Word (Pieces × Word) :=
    match w.dropWhile (· ≠ '\x7d') with
    | _ :: rest => readPieces complete fuel ctx (.parameter [] .unknown [] ctx.quoted :: done) rest
    | [] => .error ctx.unclosed

/-! ## Tokens -/

/-- The operators, the longer ones first. -/
def operators : List String := ["&&", "||", ";;", "&", "|", ";", "(", ")"]

/-- The beginnings of redirections, with the number that each is for. -/
def redirections : List (String × RedirectKind × Nat) :=
  [("<<-", .here, 0), ("<<", .here, 0), (">>", .append, 1), (">&", .duplicate, 1),
    (">|", .overwrite, 1), ("<&", .duplicate, 0), ("<>", .both, 0), (">", .write, 1),
    ("<", .read, 0)]

/-- A redirection at the front, without its number. -/
def redirection? (w : Word) : Option (RedirectKind × Nat × Word) :=
  (redirections.find? fun (s, _) => s.toList.isPrefixOf w).map fun (s, kind, number) =>
    (kind, number, w.drop s.length)

/-- What is known of a text that a redirection asks for: the line behind it, whether tabs are taken
off its lines, and whether it is kept as it is. -/
structure Asked where
  mark : Word
  untabbed : Bool
  plain : Bool

/-- The text that a word asks for. -/
def Asked.of (untabbed : Bool) (p : Pieces) : Asked where
  mark := p.flatMap fun
    | .text w _ => w
    | _ => []
  untabbed
  plain := p.any fun
    | .text _ quoted => quoted
    | _ => false

/-- Takes the lines up to the line that ends a text: the text, what follows that line, and whether
there is one. -/
def takeText (a : Asked) : Nat → Word → Word × Word × Bool
  | 0, w => ([], w, false)
  | fuel + 1, w =>
    if w.isEmpty then ([], [], false)
    else
      let raw := w.takeWhile (· ≠ '\n')
      let behind := w.drop raw.length
      let line := if a.untabbed then raw.dropWhile (· = '\t') else raw
      if line = a.mark then ([], behind.drop 1, true)
      else
        let (more, rest, closed) := takeText a fuel (behind.drop 1)
        (line ++ behind.take 1 ++ more, rest, closed)

/-- Takes the texts that were asked for, as tokens; what cannot be read is one too. -/
def takeTexts (complete : Word → Bool) : List Asked → Word → List Token × Word
  | [], w => ([], w)
  | a :: rest, w =>
    let (text, w, closed) := takeText a (w.length + 1) w
    let token :=
      if a.plain then .body [.text text true] closed
      else
        match readPieces complete (2 * text.length + 2) .here [] text with
        | .ok (pieces, _) => .body pieces closed
        | .error e => .bad e
    let (tokens, w) := takeTexts complete rest w
    (token :: tokens, w)

/-- What could not be read among tokens. -/
def badToken? (ts : List Token) : Option Word :=
  ts.findSome? fun
    | .bad m => some m
    | _ => none

/-- Cuts a program into tokens; `total` is the number of its line feeds, `asked` are the texts that
have to follow the line, and `untabbed` is known behind the beginning of a redirection that asks
for one. -/
def tokensFrom (complete : Word → Bool) (total : Nat) :
    Nat → List Asked → Option Bool → Word → List Placed
  | 0, _, _, _ => [⟨.stop, total + 1⟩]
  | fuel + 1, asked, untabbed, w =>
    let line := total - w.count '\n' + 1
    let next (t : Token) (rest : Word) : List Placed :=
      ⟨t, line⟩ :: tokensFrom complete total fuel asked none rest
    match w with
    | [] => asked.map (fun _ => ⟨.body [] false, line⟩) ++ [⟨.stop, line⟩]
    | '\n' :: rest =>
      let (texts, rest) := takeTexts complete asked rest
      match badToken? texts with
      | some m => [⟨.bad m, line + 1⟩, ⟨.stop, line + 1⟩]
      | none => ⟨.newline, line⟩ :: texts.map (⟨·, line⟩) ++ tokensFrom complete total fuel [] none rest
    | '\\' :: '\n' :: rest => tokensFrom complete total fuel asked untabbed rest
    | c :: rest =>
      if c = ' ' || c = '\t' then tokensFrom complete total fuel asked untabbed rest
      else if c = '#' then
        tokensFrom complete total fuel asked untabbed (rest.dropWhile (· ≠ '\n'))
      else
        match operators.find? fun s => s.toList.isPrefixOf w with
        | some s => next (.operator s.toList) (w.drop s.length)
        | none =>
          let digits := w.takeWhile Char.isDigit
          match redirection? (w.drop digits.length) with
          | some (kind, number, rest) =>
            let token := Token.redirect ((Word.nat? digits).getD number) kind
            if kind = .here then
              ⟨token, line⟩ :: tokensFrom complete total fuel asked
                (some ((Word.lit "<<-").isPrefixOf (w.drop digits.length))) rest
            else next token rest
          | none =>
            match readPieces complete (2 * w.length + 2) .bare [] w with
            | .error e => [⟨.bad e, line⟩, ⟨.stop, line⟩]
            | .ok (pieces, rest) =>
              let asked := asked ++ (untabbed.map fun u => Asked.of u pieces).toList
              ⟨.word pieces, line⟩ :: tokensFrom complete total fuel asked none rest

/-- Puts the texts of redirections in the places of the words that asked for them. -/
def placeTexts : List Placed → List Pieces → List Placed
  | ⟨.redirect n .here, line⟩ :: ⟨.word _, place⟩ :: rest, texts =>
    ⟨.redirect n .here, line⟩ :: ⟨.word (texts.headD []), place⟩ :: placeTexts rest texts.tail
  | ⟨.body .., _⟩ :: rest, texts => placeTexts rest texts
  | t :: rest, texts => t :: placeTexts rest texts
  | [], _ => []

/-- The texts of redirections among tokens, each with whether it is closed. -/
def textsOf (ts : List Placed) : List (Pieces × Bool) :=
  ts.filterMap fun t =>
    match t.token with
    | .body p closed => some (p, closed)
    | _ => none

/-- The tokens of a program, its end being the last one, and whether the texts of its redirections
are all closed. -/
def tokensWith (complete : Word → Bool) (w : Word) : List Placed × Bool :=
  let ts := tokensFrom complete (w.count '\n') (w.length + 1) [] none w
  let texts := textsOf ts
  (if texts.isEmpty then ts else placeTexts ts (texts.map (·.1)), texts.all (·.2))

end Conformance.Machine.Shell
