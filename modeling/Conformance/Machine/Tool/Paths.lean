import Conformance.Machine.Tool.Quotation

/-!
# Paths

The parts of paths, the places that they lead to, and the tools that write them.
-/

namespace Conformance.Machine.Tool

open Routine

/-! ## Parts of paths -/

/-- A path without the separators at its end. -/
def trimEnd (w : Word) : Word :=
  match (w.reverse.dropWhile (· = '/')).reverse with
  | [] => if w.isEmpty then [] else ['/']
  | r => r

/-- The last component of a path. -/
def lastComponent (w : Word) : Word :=
  match trimEnd w with
  | ['/'] => ['/']
  | r => (r.reverse.takeWhile (· ≠ '/')).reverse

/-- A path without its last component. -/
def withoutLast (w : Word) : Word :=
  let r := trimEnd w
  let front := (r.reverse.dropWhile (· ≠ '/')).reverse
  if r = ['/'] then r else if front.isEmpty then ['.'] else trimEnd front

/-- The path of an entry of a directory. -/
def entryPath (directory name : Word) : Word :=
  if directory.isEmpty then name
  else if directory.getLast? = some '/' then directory ++ name
  else directory ++ '/' :: name

/-- The path of a place. -/
def placePath (place : List Name) : Word :=
  if place.isEmpty then ['/'] else place.flatMap fun n => '/' :: Word.ofName n

/-- A path from the root without empty steps, dots and steps back. -/
def plainPath (w : Word) : Word :=
  let steps := (w.splitOn '/').foldl (fun done step =>
    if step.isEmpty || step = ['.'] then done
    else if step = ['.', '.'] then done.drop 1
    else step :: done) []
  if steps.isEmpty then ['/'] else steps.reverse.flatMap ('/' :: ·)

/-- What stands behind each answer of a tool. -/
def Parsed.ending (p : Parsed) : Char := if p.has 'z' then '\x00' else '\n'

/-- A name without an ending, unless it is nothing else. -/
def withoutEnding (ending base : Word) : Word :=
  if ending ≠ base && !ending.isEmpty && ending.isSuffixOf base then
    base.take (base.length - ending.length)
  else base

/-- Writes the last components of paths, without an ending if one is given. -/
def basename : Tool := fun args _ =>
  withOptions { plain := "az", valued := "s", inOrder := true
                long := [("multiple", 'a'), ("suffix", 's'), ("zero", 'z')] } args fun name p => do
    let many := p.has 'a' || p.has 's'
    match p.operands with
    | [] => refuse name (Word.lit "missing operand") 1
    | path :: rest =>
      if !many && rest.length > 1 then extraOperand name (rest.getD 1 []) 1
      else
        let ending := if many then (p.value? 's').getD [] else rest.headD []
        let paths := if many then path :: rest else [path]
        emit name (paths.flatMap fun w => withoutEnding ending (lastComponent w) ++ [p.ending])
        pure 0

/-- Writes paths without their last components. -/
def dirname : Tool := fun args _ =>
  withOptions { plain := "z", valued := "", long := [("zero", 'z')] } args fun name p => do
    if p.operands.isEmpty then refuse name (Word.lit "missing operand") 1
    else
      emit name (p.operands.flatMap fun w => withoutLast w ++ [p.ending])
      pure 0

/-! ## Places -/

/-- The place of the working directory. -/
def workingPlace : Routine (List Name) := do
  match ← locate ⟨Name.current⟩ true with
  | .ok (place, _) => pure place
  | .error _ => pure []

/-- How much of a path has to exist. -/
inductive Existence
  | whole
  | allButLast
  | nothing

/-- The path without links that a path stands for. -/
def realPath (e : Existence) : Nat → Word → Routine (Except SystemFault Word)
  | 0, _ => pure (.error .tooManyLinks)
  | fuel + 1, w => do
    match ← locate (Word.toPath w) true with
    | .ok (place, _) => pure (.ok (placePath place))
    | .error fault =>
      match e, w with
      | .whole, _ | _, [] => pure (.error fault)
      | _, _ =>
        match ← locate (Word.toPath w) false with
        | .ok (place, .link target) =>
          let next := Word.ofName target.bytes
          realPath e fuel
            (if target.isAbsolute then next else entryPath (placePath place.dropLast) next)
        | _ =>
          let missing : Bool := (e matches .nothing) || fault == .noSuchFile
          let parent ← locate (Word.toPath (withoutLast w)) true
          match e, parent with
          | _, .ok (place, .directory ..) =>
            pure (if missing then .ok (entryPath (placePath place) (lastComponent w)) else .error fault)
          | .nothing, _ =>
            let here ← workingPlace
            pure (.ok (plainPath
              (if w.head? = some '/' then w else entryPath (placePath here) w)))
          | _, _ => pure (.error fault)

/-- What of a path the options ask to exist. -/
def existence (p : Parsed) (default : Existence) : Existence :=
  match p.last? "fem" with
  | some 'f' => .allButLast
  | some 'e' => .whole
  | some _ => .nothing
  | none => default

/-- Writes where links lead. -/
def readlink : Tool := fun args _ =>
  withOptions { plain := "femnqsvz", valued := "",
                long := [("canonicalize", 'f'), ("canonicalize-existing", 'e'),
                  ("canonicalize-missing", 'm'), ("no-newline", 'n'), ("quiet", 'q'),
                  ("silent", 's'), ("verbose", 'v'), ("zero", 'z')] } args fun name p => do
    let real := (p.last? "fem").isSome
    let mut fine := true
    if p.operands.isEmpty then refuse name (Word.lit "missing operand") 1
    else
      for w in p.operands do
        let answer : Except SystemFault Word ←
          if real then realPath (existence p .allButLast) 41 w
          else do
            match ← inspect (Word.toPath w) false with
            | .ok (.link target) => pure (.ok (Word.ofName target.bytes))
            | .ok _ => pure (.error (.code 22))
            | .error e => pure (.error e)
        match answer with
        | .ok r => emit name (r ++ if p.has 'n' && p.operands.length = 1 then [] else [p.ending])
        | .error e =>
          fine := false
          if p.has 'v' then complainOf name w e
      pure (if fine then 0 else 1)

/-- Writes the paths without links that paths stand for. -/
def realpath : Tool := fun args _ =>
  withOptions { plain := "emLPqsz", valued := "",
                long := [("canonicalize-existing", 'e'), ("canonicalize-missing", 'm'),
                  ("logical", 'L'), ("physical", 'P'), ("quiet", 'q'), ("strip", 's'),
                  ("no-symlinks", 's'), ("zero", 'z')] } args fun name p => do
    let mut fine := true
    if p.operands.isEmpty then refuse name (Word.lit "missing operand") 1
    else
      for w in p.operands do
        let answer : Except SystemFault Word ←
          if p.has 's' then do
            let here ← workingPlace
            pure (.ok (plainPath
              (if w.head? = some '/' then w else entryPath (placePath here) w)))
          else realPath (existence p .allButLast) 41 w
        match answer with
        | .ok r => emit name (r ++ [p.ending])
        | .error e =>
          fine := false
          if !p.has 'q' then complainOf name w e
      pure (if fine then 0 else 1)

/-- Writes the place of the working directory. -/
def pwd : Tool := fun args env =>
  withOptions { plain := "LP", valued := "", long := [("logical", 'L'), ("physical", 'P')] } args
    fun name p => do
    if !p.operands.isEmpty then complain name (Word.lit "ignoring non-option arguments")
    match ← locate ⟨Name.current⟩ true with
    | .ok (place, _) =>
      let logical := if p.last? "LP" = some 'L' then (env.find? (·.1 == Word.lit "PWD")).map (·.2)
        else none
      emit name (logical.getD (placePath place) ++ ['\n'])
      pure 0
    | .error e =>
      complain name (reason e)
      pure 1

end Conformance.Machine.Tool
