import Conformance.Machine.Tool.Paths
import Conformance.Machine.Tool.Permissions

/-!
# Tools that change the file tree

Making, removing, copying, moving and linking files and directories.
-/

namespace Conformance.Machine.Tool

open Routine

/-- The exit code of a tool that may have had to complain. -/
def codeOf (fine : Bool) : Nat := if fine then 0 else 1

/-! ## Making and removing -/

/-- The paths that lead to a path step by step, itself the last. -/
def leadingPaths (w : Word) : List Word :=
  let ends := (List.range w.length).filter fun i =>
    w[i]? = some '/' && i ≠ 0 && w[i - 1]? ≠ some '/'
  let fronts := ends.map fun i => w.take i
  if trimEnd w = fronts.getLastD [] then fronts else fronts ++ [w]

/-- Makes the directories on a path that are missing. -/
def makeAll (name : Word) (told : Bool) : List Word → Routine Bool
  | [] => pure true
  | w :: rest => do
    match ← change (.makeDirectory (Word.toPath w)) with
    | .ok () =>
      if told then emit name (name ++ Word.lit ": created directory " ++ shownQuoted w ++ ['\n'])
      makeAll name told rest
    | .error e =>
      match ← inspect (Word.toPath w) true with
      | .ok (.directory ..) => makeAll name told rest
      | old =>
        let e := if old matches .ok _ then if rest.isEmpty then e else .notDirectory else e
        complain name
          (Word.lit "cannot create directory " ++ shownQuoted w ++ [':', ' '] ++ reason e)
        pure false

/-- Makes directories. -/
def mkdir : Tool := fun args _ =>
  withOptions { plain := "pvZ", valued := "m",
                long := [("mode", 'm'), ("parents", 'p'), ("verbose", 'v')] } args fun name p => do
    let mut fine := true
    let mode := p.value? 'm'
    let known (w : Word) : Bool :=
      (Permissions.octal? w).isSome || (Permissions.change? w 511).isSome
    if p.operands.isEmpty then refuse name (Word.lit "missing operand") 1
    else if !(mode.map known).getD true then
      complain name (Word.lit "invalid mode " ++ inQuotes (mode.getD []))
      pure 1
    else
      for w in p.operands do
        if p.has 'p' then
          let ok ← makeAll name (p.has 'v') (leadingPaths w)
          fine := fine && ok
        else
          match ← change (.makeDirectory (Word.toPath w)) with
          | .ok () =>
            if p.has 'v' then
              emit name (name ++ Word.lit ": created directory " ++ shownQuoted w ++ ['\n'])
          | .error e =>
            fine := false
            complain name
              (Word.lit "cannot create directory " ++ shownQuoted w ++ [':', ' '] ++ reason e)
      pure (codeOf fine)

/-- Makes named pipes. -/
def mkfifo : Tool := fun args _ =>
  withOptions { plain := "Z", valued := "m", long := [("mode", 'm')] } args fun name p => do
    let mut fine := true
    if p.operands.isEmpty then refuse name (Word.lit "missing operand") 1
    else
      for w in p.operands do
        match ← change (.makeFifo (Word.toPath w)) with
        | .ok () => pure ()
        | .error e =>
          fine := false
          complain name (Word.lit "cannot create fifo " ++ shownQuoted w ++ [':', ' '] ++ reason e)
      pure (codeOf fine)

/-- Removes directories that are empty, each with those on its path if they are asked for. -/
def rmdir : Tool := fun args _ =>
  withOptions { plain := "pv\x80", valued := "",
                long := [("ignore-fail-on-non-empty", '\x80'), ("parents", 'p'),
                  ("verbose", 'v')] } args fun name p => do
    let mut fine := true
    if p.operands.isEmpty then refuse name (Word.lit "missing operand") 1
    else
      for w in p.operands do
        let paths := if p.has 'p' then (leadingPaths w).reverse else [w]
        let mut going := true
        let mut first := true
        for d in paths do
          if going then
            if p.has 'v' then
              emit name (name ++ Word.lit ": removing directory, " ++ shownQuoted d ++ ['\n'])
            match ← change (.removeDirectory (Word.toPath d)) with
            | .ok () => pure ()
            | .error e =>
              going := false
              if !(p.has '\x80' && e = .code 39) then
                fine := false
                complain name (Word.lit (if first then "failed to remove " else
                  "failed to remove directory ") ++ shownQuoted d ++ [':', ' '] ++ reason e)
            first := false
      pure (codeOf fine)

/-- Something to be removed: a file or a directory with what is in it, or a directory that was
emptied. -/
inductive Removal
  | all (path : Word)
  | emptied (path : Word)

/-- Removes everything that is waiting to be removed; whether that could be done. -/
def removeAll (name : Word) (p : Parsed) : Nat → Bool → List Removal → Routine Bool
  | 0, fine, _ => pure fine
  | _ + 1, fine, [] => pure fine
  | fuel + 1, fine, item :: rest => do
    let deep := p.has 'r' || p.has 'R'
    let failed (w : Word) (e : SystemFault) : Routine Bool := do
      complain name (Word.lit "cannot remove " ++ shownQuoted w ++ [':', ' '] ++ reason e)
      removeAll name p fuel false rest
    let told (what : String) (w : Word) : Routine Bool := do
      if p.has 'v' then emit name (Word.lit what ++ shownQuoted w ++ ['\n'])
      removeAll name p fuel fine rest
    match item with
    | .emptied w =>
      match ← change (.removeDirectory (Word.toPath w)) with
      | .ok () => told "removed directory " w
      | .error e => failed w e
    | .all w =>
      match ← inspect (Word.toPath w) false with
      | .error e =>
        if p.has 'f' && (e = .noSuchFile || e = .notDirectory) then removeAll name p fuel fine rest
        else failed w e
      | .ok (.directory _ es) =>
        let last := lastComponent w
        if deep && (last = ['.'] || last = ['.', '.']) then
          complain name (Word.lit "refusing to remove '.' or '..' directory: skipping " ++
            shownQuoted w)
          removeAll name p fuel false rest
        else if deep then
          let inner := es.names.map fun n => Removal.all (entryPath w (Word.ofName n))
          removeAll name p fuel fine (inner ++ .emptied w :: rest)
        else if p.has 'd' then removeAll name p fuel fine (.emptied w :: rest)
        else failed w .isDirectory
      | .ok _ =>
        match ← change (.remove (Word.toPath w)) with
        | .ok () => told "removed " w
        | .error e => failed w e

/-- Removes files, and directories with what is in them. -/
def rm : Tool := fun args _ =>
  withOptions { plain := "dfirRvI\x80\x81", valued := "", optional := "\x82",
                long := [("force", 'f'), ("interactive", '\x82'), ("one-file-system", '\x80'),
                  ("no-preserve-root", '\x81'), ("preserve-root", '\x82'), ("recursive", 'r'),
                  ("dir", 'd'), ("verbose", 'v')] } args fun name p => do
    if p.operands.isEmpty then
      if p.has 'f' then pure 0 else refuse name (Word.lit "missing operand") 1
    else
      let fine ← removeAll name p rounds true (p.operands.map .all)
      pure (codeOf fine)

/-- Removes one file. -/
def unlink : Tool := fun args _ =>
  withOptions { plain := "", valued := "" } args fun name p => do
    match p.operands with
    | [] => refuse name (Word.lit "missing operand") 1
    | [w] =>
      match ← change (.remove (Word.toPath w)) with
      | .ok () => pure 0
      | .error e =>
        complain name (Word.lit "cannot unlink " ++ shownQuoted w ++ [':', ' '] ++ reason e)
        pure 1
    | _ :: w :: _ => extraOperand name w 1

/-- Makes files that are missing. -/
def touch : Tool := fun args _ =>
  withOptions { plain := "acfhm", valued := "drt\x80",
                long := [("time", '\x80'), ("no-create", 'c'), ("date", 'd'), ("reference", 'r'),
                  ("no-dereference", 'h')] } args fun name p => do
    let mut fine := true
    if p.operands.isEmpty then refuse name (Word.lit "missing file operand") 1
    else
      for w in p.operands do
        if !p.has 'c' then
          match ← openFile (Word.toPath w) .append with
          | .ok file => close file
          | .error e =>
            if e ≠ .isDirectory || w.getLast? = some '/' && !(← isDirectory w) then
              fine := false
              complain name (Word.lit "cannot touch " ++ shownQuoted w ++ [':', ' '] ++ reason e)
      pure (codeOf fine)
where
  /-- Whether a path leads to a directory. -/
  isDirectory (w : Word) : Routine Bool := do
    match ← inspect (Word.toPath w) true with
    | .ok (.directory ..) => pure true
    | _ => pure false

/-! ## Permissions -/

/-- Permissions as four digits and as letters. -/
def modeShown (mode : Nat) : Word :=
  let digits := Nat.toDigits 8 mode
  List.replicate (4 - digits.length) '0' ++ digits ++ [' ', '('] ++ Permissions.letters mode ++ [')']

/-- The paths at and below some paths, a directory in front of what is in it. -/
def pathsBelow : Nat → List Word → List Word → Routine (List Word)
  | 0, done, _ => pure done.reverse
  | _ + 1, done, [] => pure done.reverse
  | fuel + 1, done, w :: rest => do
    match ← inspect (Word.toPath w) false with
    | .ok (.directory _ es) =>
      pathsBelow fuel (w :: done) (es.names.map (fun n => entryPath w (Word.ofName n)) ++ rest)
    | _ => pathsBelow fuel (w :: done) rest

/-- The new permissions that an operand asks for. -/
def newMode? (w : Word) (old : Nat) : Option Nat :=
  match Permissions.octal? w with
  | some n => if n ≤ 0o7777 then some (n % 512) else none
  | none => (Permissions.change? w old).map (· % 512)

/-- Sets whether files may be run. -/
def chmod : Tool := fun args _ =>
  let isMode (w : Word) : Bool :=
    w.head? = some '-' && w.length > 1 && (w.drop 1).all "rwxXst+-=,ugoa".toList.contains
  let (asked, others) := (args.drop 1).partition isMode
  let operands := if asked.isEmpty then others else Word.lit "--" :: asked.take 1 ++ others
  withOptions { plain := "cfvR\x80\x81", valued := "\x82",
                long := [("changes", 'c'), ("recursive", 'R'), ("no-preserve-root", '\x80'),
                  ("preserve-root", '\x81'), ("quiet", 'f'), ("reference", '\x82'),
                  ("silent", 'f'), ("verbose", 'v')] } (args.headD [] :: operands) fun name p => do
    let mut fine := true
    let example? := p.value? '\x82'
    let own ← match example? with
      | some w => do
        match ← inspect (Word.toPath w) true with
        | .ok n => pure (some (Nat.toDigits 8 (Permissions.ofNode n)))
        | .error _ => pure none
      | none => pure p.operands.head?
    let paths := if example?.isSome then p.operands else p.operands.drop 1
    match own with
    | none =>
      match example? with
      | some w =>
        complain name (Word.lit "failed to get attributes of " ++ shownQuoted w ++
          Word.lit ": No such file or directory")
        pure 1
      | none => refuse name (Word.lit "missing operand") 1
    | some mode =>
      if paths.isEmpty then refuse name (Word.lit "missing operand after " ++ inQuotes mode) 1
      else if (newMode? mode 0).isNone then
        refuse name (Word.lit "invalid mode: " ++ inQuotes mode) 1
      else
        let all ← if p.has 'R' then pathsBelow rounds [] paths else pure paths
        for w in all do
          match ← inspect (Word.toPath w) true with
          | .error e =>
            fine := false
            if !p.has 'f' then
              complain name (Word.lit "cannot access " ++ shownQuoted w ++ [':', ' '] ++ reason e)
          | .ok n =>
            let old := Permissions.ofNode n
            let new := (newMode? mode old).getD old
            let _ ← change (.permit (Word.toPath w) (new &&& 0o111 ≠ 0))
            if old ≠ new && (p.has 'v' || p.has 'c') then
              emit name (Word.lit "mode of " ++ shownQuoted w ++ Word.lit " changed from " ++
                modeShown old ++ Word.lit " to " ++ modeShown new ++ ['\n'])
            else if p.has 'v' then
              emit name (Word.lit "mode of " ++ shownQuoted w ++ Word.lit " retained as " ++
                modeShown old ++ ['\n'])
        pure (codeOf fine)

/-! ## Copying, moving and linking -/

/-- The number of bytes that a numeral with a unit stands for. -/
def sizeNumber? (w : Word) : Option Nat :=
  let digits := w.takeWhile Char.isDigit
  let unit := String.ofList (w.drop digits.length)
  let scale : Option Nat :=
    match unit with
    | "" => some 1
    | "b" => some 512
    | "kB" | "KB" => some 1000
    | "k" | "K" | "KiB" => some 1024
    | "MB" => some 1000000
    | "m" | "M" | "MiB" => some 1048576
    | "GB" => some 1000000000
    | "G" | "GiB" => some 1073741824
    | _ => none
  match Word.nat? digits, scale with
  | some n, some s => some (n * s)
  | none, some s => if digits.isEmpty && !unit.isEmpty then some s else none
  | _, none => none

/-- Cuts or lengthens files. -/
def truncate : Tool := fun args _ =>
  withOptions { plain := "co", valued := "sr",
                long := [("no-create", 'c'), ("io-blocks", 'o'), ("reference", 'r'),
                  ("size", 's')] } args fun name p => do
    let mut fine := true
    match p.value? 's' with
    | none =>
      refuse name (Word.lit "you must specify either '--size' or '--reference'") 1
    | some w =>
      let (sign, numeral) :=
        match w with
        | c :: r => if "+-<>/%".toList.contains c then (some c, r) else (none, w)
        | [] => (none, [])
      match sizeNumber? numeral with
      | none =>
        complain name (Word.lit "Invalid number: " ++ inQuotes w)
        pure 1
      | some n =>
        if p.operands.isEmpty then refuse name (Word.lit "missing file operand") 1
        else
          for f in p.operands do
            let made ← if p.has 'c' then pure none else do
              match ← openFile (Word.toPath f) .append with
              | .ok file =>
                close file
                pure none
              | .error e => pure (some e)
            match made with
            | some e =>
              fine := false
              complain name (Word.lit "cannot open " ++ shownQuoted f ++
                Word.lit " for writing: " ++ reason e)
            | none =>
              let old ← match ← inspect (Word.toPath f) true with
                | .ok (.file content _) => pure content.size
                | _ => pure 0
              let size :=
                match sign with
                | none => n
                | some '+' => old + n
                | some '-' => old - n
                | some '<' => min old n
                | some '>' => max old n
                | some '/' => if n = 0 then old else old / n * n
                | some _ => if n = 0 then old else (old + n - 1) / n * n
              let _ ← change (.resize (Word.toPath f) size)
          pure (codeOf fine)

/-- Where operands go: into a directory, or to a name of their own. -/
inductive Destination
  | into (directory : Word)
  | exactly (path : Word)

/-- The operands and where they go, or the exit code if that is not clear. -/
def destination (name : Word) (p : Parsed) : Routine (Except Nat (List Word × Destination)) := do
  let failed (r : Routine Nat) : Routine (Except Nat (List Word × Destination)) := do
    pure (.error (← r))
  let told (w : Word) (e : SystemFault) : Routine (Except Nat (List Word × Destination)) := do
    complain name (Word.lit "target " ++ shownQuoted w ++ [':', ' '] ++ reason e)
    pure (.error 1)
  match p.value? 't', p.operands with
  | none, [] => failed (refuse name (Word.lit "missing file operand") 1)
  | some _, [] => failed (refuse name (Word.lit "missing file operand") 1)
  | some d, all =>
    match ← inspect (Word.toPath d) true with
    | .ok (.directory ..) => pure (.ok (all, .into d))
    | .ok _ => told d .notDirectory
    | .error e => told d e
  | none, [w] =>
    failed (refuse name (Word.lit "missing destination file operand after " ++ shownQuoted w) 1)
  | none, all =>
    let target := all.getLastD []
    let sources := all.dropLast
    if p.has 'T' then
      match sources with
      | [_] => pure (.ok (sources, .exactly target))
      | _ => failed (refuse name (Word.lit "extra operand " ++ shownQuoted (all.getD 2 [])) 1)
    else
      match ← inspect (Word.toPath target) true with
      | .ok (.directory ..) => pure (.ok (sources, .into target))
      | .ok _ =>
        if sources.length = 1 then pure (.ok (sources, .exactly target))
        else told target .notDirectory
      | .error e =>
        if sources.length = 1 then pure (.ok (sources, .exactly target)) else told target e

/-- Where one operand goes. -/
def Destination.of (d : Destination) (source : Word) : Word :=
  match d with
  | .into directory => entryPath directory (lastComponent source)
  | .exactly path => path

/-- Copies the rest of an open file to another. -/
def copyOpen (source target : Nat) : Nat → Routine Unit
  | 0 => pure ()
  | fuel + 1 => do
    match ← read source blockSize with
    | .ok b =>
      if b.isEmpty then pure ()
      else
        let _ ← write target b
        copyOpen source target fuel
    | .error _ => pure ()

/-- How files are copied. -/
structure CopyWay where
  deep : Bool
  keepLinks : Bool
  told : Bool
  keepOld : Bool

/-- Copies what is waiting to be copied, each with its destination; `true` stands with what was
named as an operand.  Whether all could be copied. -/
def copyAll (name : Word) (c : CopyWay) : Nat → Bool → List (Word × Word × Bool) → Routine Bool
  | 0, fine, _ => pure fine
  | _ + 1, fine, [] => pure fine
  | fuel + 1, fine, (source, target, named) :: rest => do
    let failed (m : Word) : Routine Bool := do
      complain name m
      copyAll name c fuel false rest
    let tell : Routine Unit := do
      if c.told then
        emit name (shownQuoted source ++ Word.lit " -> " ++ shownQuoted target ++ ['\n'])
    let follow := !c.keepLinks && (named || !c.deep)
    match ← locate (Word.toPath source) follow with
    | .error e =>
      failed (Word.lit "cannot stat " ++ shownQuoted source ++ [':', ' '] ++ reason e)
    | .ok (place, node) =>
      let old ← locate (Word.toPath target) true
      let same := match old with
        | .ok (there, _) => there == place
        | .error _ => false
      match node with
      | .directory _ es =>
        if !c.deep then
          failed (Word.lit "-r not specified; omitting directory " ++ shownQuoted source)
        else
          let parent ← locate (Word.toPath (withoutLast target)) true
          let inside := match parent with
            | .ok (there, _) => place.isPrefixOf there
            | .error _ => false
          let inner := es.names.map fun n =>
            (entryPath source (Word.ofName n), entryPath target (Word.ofName n), false)
          match old with
          | .ok (_, .directory ..) =>
            if inside then
              failed (Word.lit "cannot copy a directory, " ++ shownQuoted source ++
                Word.lit ", into itself, " ++ shownQuoted target)
            else copyAll name c fuel fine (inner ++ rest)
          | .ok _ =>
            failed (Word.lit "cannot overwrite non-directory " ++ shownQuoted target ++
              Word.lit " with directory " ++ shownQuoted source)
          | .error _ =>
            if inside then
              failed (Word.lit "cannot copy a directory, " ++ shownQuoted source ++
                Word.lit ", into itself, " ++ shownQuoted target)
            else
              match ← change (.makeDirectory (Word.toPath target)) with
              | .error e =>
                failed (Word.lit "cannot create directory " ++ shownQuoted target ++ [':', ' '] ++
                  reason e)
              | .ok () =>
                tell
                copyAll name c fuel fine (inner ++ rest)
      | node =>
        if same && !(node matches .link _) then
          failed (shownQuoted source ++ Word.lit " and " ++ shownQuoted target ++
            Word.lit " are the same file")
        else
          match old with
          | .ok (_, .directory ..) =>
            failed (Word.lit "cannot overwrite directory " ++ shownQuoted target ++
              Word.lit " with non-directory")
          | old =>
            if c.keepOld && (old matches .ok _) then copyAll name c fuel fine rest
            else
              match node with
              | .link aim =>
                if old matches .ok _ then
                  let _ ← change (.remove (Word.toPath target))
                match ← change (.link aim (Word.toPath target)) with
                | .ok () =>
                  tell
                  copyAll name c fuel fine rest
                | .error e =>
                  failed (Word.lit "cannot create symbolic link " ++ shownQuoted target ++
                    [':', ' '] ++ reason e)
              | node =>
                match ← openFile (Word.toPath source) .read with
                | .error e =>
                  failed (Word.lit "cannot open " ++ shownQuoted source ++
                    Word.lit " for reading: " ++ reason e)
                | .ok input =>
                  match ← openFile (Word.toPath target) .write with
                  | .error e =>
                    close input
                    let e := if e = .isDirectory then .notDirectory else e
                    failed (Word.lit "cannot create regular file " ++ shownQuoted target ++
                      [':', ' '] ++ reason e)
                  | .ok output =>
                    copyOpen input output rounds
                    close input
                    close output
                    if !(old matches .ok _) then
                      let executable := Permissions.ofNode node &&& 0o100 ≠ 0
                      let _ ← change (.permit (Word.toPath target) executable)
                    tell
                    copyAll name c fuel fine rest

/-- Copies files, and directories with what is in them. -/
def cp : Tool := fun args _ =>
  withOptions { plain := "abdfHilLnPprRsTuvxZ\x80", valued := "St\x81\x82", optional := "\x83\x84",
                long := [("archive", 'a'), ("attributes-only", '\x80'), ("backup", '\x83'),
                  ("dereference", 'L'), ("force", 'f'), ("interactive", 'i'), ("link", 'l'),
                  ("no-clobber", 'n'), ("no-dereference", 'P'), ("no-target-directory", 'T'),
                  ("preserve", '\x83'), ("recursive", 'r'), ("suffix", 'S'),
                  ("symbolic-link", 's'), ("target-directory", 't'), ("update", '\x84'),
                  ("verbose", 'v')] } args fun name p => do
    match ← destination name p with
    | .error code => pure code
    | .ok (sources, d) =>
      let links := match p.last? "aLPdH" with
        | some c => c = 'a' || c = 'P' || c = 'd'
        | none => false
      let way : CopyWay :=
        ⟨p.has 'r' || p.has 'R' || p.has 'a', links, p.has 'v', p.has 'n'⟩
      if p.has 'n' then
        complain name (Word.lit ("warning: behavior of -n is non-portable and may change in future;"
          ++ " use --update=none instead"))
      let fine ← copyAll name way rounds true (sources.map fun w => (w, d.of w, true))
      pure (codeOf fine)

/-- Moves one file or directory; whether that could be done. -/
def moveOne (name : Word) (p : Parsed) (source target : Word) : Routine Bool := do
  let failed (m : Word) : Routine Bool := do
    complain name m
    pure false
  match ← locate (Word.toPath source) false with
  | .error e => failed (Word.lit "cannot stat " ++ shownQuoted source ++ [':', ' '] ++ reason e)
  | .ok (place, node) =>
    let old ← locate (Word.toPath target) false
    let directory := node matches .directory ..
    let move : Routine Bool := do
      match ← change (.rename (Word.toPath source) (Word.toPath target) false) with
      | .ok () =>
        if p.has 'v' then
          emit name (Word.lit "renamed " ++ shownQuoted source ++ Word.lit " -> " ++
            shownQuoted target ++ ['\n'])
        pure true
      | .error e =>
        if e = .code 22 then
          failed (Word.lit "cannot move " ++ shownQuoted source ++
            Word.lit " to a subdirectory of itself, " ++ shownQuoted target)
        else if e = .code 39 then
          failed (Word.lit "cannot overwrite " ++ shownQuoted target ++ [':', ' '] ++ reason e)
        else
          failed (Word.lit "cannot move " ++ shownQuoted source ++ Word.lit " to " ++
            shownQuoted target ++ [':', ' '] ++ reason e)
    match old with
    | .error _ => move
    | .ok (there, n) =>
      if there == place then
        failed (shownQuoted source ++ Word.lit " and " ++ shownQuoted target ++
          Word.lit " are the same file")
      else if p.has 'n' then failed (Word.lit "not replacing " ++ shownQuoted target)
      else
        match n with
        | .directory .. =>
          if directory then move
          else
            failed (Word.lit "cannot overwrite directory " ++ shownQuoted target ++
              Word.lit " with non-directory " ++ shownQuoted source)
        | _ =>
          if directory then
            failed (Word.lit "cannot overwrite non-directory " ++ shownQuoted target ++
              Word.lit " with directory " ++ shownQuoted source)
          else move

/-- Moves files and directories. -/
def mv : Tool := fun args _ =>
  withOptions { plain := "bfinTuvZ", valued := "St", optional := "\x83\x84",
                long := [("backup", '\x83'), ("force", 'f'), ("interactive", 'i'),
                  ("no-clobber", 'n'), ("no-target-directory", 'T'), ("suffix", 'S'),
                  ("target-directory", 't'), ("update", '\x84'), ("verbose", 'v')] } args
    fun name p => do
    match ← destination name p with
    | .error code => pure code
    | .ok (sources, d) =>
      let mut fine := true
      for w in sources do
        let ok ← moveOne name p w (d.of w)
        fine := fine && ok
      pure (codeOf fine)

/-- Gives one file a second name; whether that could be done. -/
def linkOne (name : Word) (p : Parsed) (source target : Word) : Routine Bool := do
  let symbolic := p.has 's'
  let failed (m : Word) : Routine Bool := do
    complain name m
    pure false
  let fault : Option Word ←
    if symbolic then pure none
    else do
      match ← inspect (Word.toPath source) false with
      | .error e =>
        pure (some (Word.lit "failed to access " ++ shownQuoted source ++ [':', ' '] ++ reason e))
      | .ok (.directory ..) =>
        pure (some (shown source ++ Word.lit ": hard link not allowed for directory"))
      | .ok _ => pure none
  match fault with
  | some m => failed m
  | none =>
    if p.has 'f' then
      match ← inspect (Word.toPath target) false with
      | .ok (.directory ..) | .error _ => pure ()
      | .ok _ =>
        let _ ← change (.remove (Word.toPath target))
    let request : Change :=
      if symbolic then .link (Word.toPath source) (Word.toPath target)
      else .rename (Word.toPath source) (Word.toPath target) true
    let r ← if symbolic && source.isEmpty then pure (.error .noSuchFile) else change request
    match r with
    | .ok () =>
      if p.has 'v' then
        emit name (shownQuoted target ++ Word.lit (if symbolic then " -> " else " => ") ++
          shownQuoted source ++ ['\n'])
      pure true
    | .error e =>
      let kind := if symbolic then "symbolic" else "hard"
      let aim := if symbolic && e = .noSuchFile then Word.lit " -> " ++ shownQuoted source else []
      failed (Word.lit ("failed to create " ++ kind ++ " link ") ++ shownQuoted target ++ aim ++
        [':', ' '] ++ reason e)

/-- Gives files second names. -/
def ln : Tool := fun args _ =>
  withOptions { plain := "bdFfiLnPrsTv", valued := "St", optional := "\x83",
                long := [("backup", '\x83'), ("directory", 'd'), ("no-dereference", 'n'),
                  ("no-target-directory", 'T'), ("force", 'f'), ("interactive", 'i'),
                  ("suffix", 'S'), ("target-directory", 't'), ("logical", 'L'),
                  ("physical", 'P'), ("relative", 'r'), ("symbolic", 's'), ("verbose", 'v')] }
    args fun name p => do
    let p := if p.operands.length = 1 && (p.value? 't').isNone then
        { p with given := p.given ++ [('t', ['.'])] }
      else p
    let p := if p.has 'n' && p.operands.length = 2 then { p with given := ('T', []) :: p.given }
      else p
    match ← destination name p with
    | .error code => pure code
    | .ok (sources, d) =>
      let mut fine := true
      for w in sources do
        let ok ← linkOne name p w (d.of w)
        fine := fine && ok
      pure (codeOf fine)

/-- Gives one file a second name. -/
def link : Tool := fun args _ =>
  withOptions { plain := "", valued := "" } args fun name p => do
    match p.operands with
    | [] => refuse name (Word.lit "missing operand") 1
    | [w] => refuse name (Word.lit "missing operand after " ++ inQuotes w) 1
    | [a, b] =>
      match ← change (.rename (Word.toPath a) (Word.toPath b) true) with
      | .ok () => pure 0
      | .error e =>
        complain name (Word.lit "cannot create link " ++ shownQuoted b ++ Word.lit " to " ++
          shownQuoted a ++ [':', ' '] ++ reason e)
        pure 1
    | _ :: _ :: w :: _ => extraOperand name w 1

/-! ## Temporary files -/

/-- The letters of names that are made up. -/
def nameLetters : Word := "abcdefghijklmnopqrstuvwxyzABCDEFGHIJKLMNOPQRSTUVWXYZ0123456789".toList

/-- The name that a template and a number make. -/
def madeName (template : Word) (n : Nat) : Word :=
  let marks := (template.reverse.dropWhile (· ≠ 'X')).takeWhile (· = 'X')
  let tail := (template.reverse.takeWhile (· ≠ 'X')).reverse
  let front := template.take (template.length - marks.length - tail.length)
  let letter (i : Nat) : Char :=
    nameLetters.getD ((n * 7919 + 104729) / Nat.pow nameLetters.length i % nameLetters.length) 'a'
  front ++ (List.range marks.length).map letter ++ tail

/-- Makes a file or a directory under a name that nothing has. -/
def makeUnder (p : Parsed) (template : Word) : Nat → Nat → Routine (Except SystemFault Word)
  | 0, _ => pure (.error .fileExists)
  | fuel + 1, n => do
    let w := madeName template n
    match ← inspect (Word.toPath w) false with
    | .ok _ => makeUnder p template fuel (n + 1)
    | .error _ =>
      if p.has 'u' then pure (.ok w)
      else if p.has 'd' then do
        let r ← change (.makeDirectory (Word.toPath w))
        pure (r.map fun _ => w)
      else
        match ← openFile (Word.toPath w) .write with
        | .ok file =>
          close file
          pure (.ok w)
        | .error e => pure (.error e)

/-- Makes a file or a directory with a new name. -/
def mktemp : Tool := fun args env =>
  withOptions { plain := "dqtuV", valued := "p\x80", optional := "\x81",
                long := [("directory", 'd'), ("quiet", 'q'), ("dry-run", 'u'), ("suffix", '\x80'),
                  ("tmpdir", '\x81')] } args fun name p => do
    let place := ((env.find? (·.1 == Word.lit "TMPDIR")).map (·.2)).getD (Word.lit "/tmp")
    let given := p.operands.head?
    let template := given.getD (Word.lit "tmp.XXXXXXXXXX")
    let directory := (p.value? 'p').or ((p.value? '\x81').map fun w =>
      if w.isEmpty then place else w)
    let inside := directory.or (if given.isNone || p.has 't' then some place else none)
    let full := (inside.map fun d => entryPath d template).getD template
    let full := full ++ (p.value? '\x80').getD []
    let marks := (template.reverse.dropWhile (· ≠ 'X')).takeWhile (· = 'X')
    if p.operands.length > 1 then refuse name (Word.lit "too many templates") 1
    else if marks.length < 3 then
      complain name (Word.lit "too few X's in template " ++ inQuotes template)
      pure 1
    else
      let (id, _) ← identity
      match ← makeUnder p full 1000 (id * 1000) with
      | .ok w =>
        emit name (w ++ ['\n'])
        pure 0
      | .error e =>
        if !p.has 'q' then
          complain name (Word.lit (if p.has 'd' then "failed to create directory via template "
            else "failed to create file via template ") ++ inQuotes full ++ [':', ' '] ++ reason e)
        pure 1

end Conformance.Machine.Tool
