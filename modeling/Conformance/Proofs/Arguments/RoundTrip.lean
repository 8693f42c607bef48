import Mathlib.Data.List.Nodup
import Conformance.Proofs.Arguments.Written

/-!
# Command lines are read back

Every way of writing a command line is read as the command line (`read_written`): the global flags
in front of the command or behind it, the options of the command and its operands in any order, each
item spelled in any way, and what has its default written or left out.
-/

namespace Conformance

open Arguments CommandLine

namespace CommandLine

/-! ## What is written for a command line -/

/-- The flag that asks for the metrics. -/
def metricsFlag : Opt := ⟨metricsName, none, .flag⟩

/-- The flag that asks for a comparison as it is. -/
def noNormalizeFlag : Opt := ⟨noNormalizeName, none, .flag⟩

/-- The global flags that are set. -/
def globals (line : CommandLine) : List Item :=
  (if line.metrics then [.flag metricsFlag] else []) ++
    (if line.verbose then [.flag verboseFlag] else []) ++
    if line.silent then [.flag silentFlag] else []

end CommandLine

/-- The toolchain options before anything is chosen. -/
def ToolchainOptions.default : ToolchainOptions where
  referenceLexer := .ofProgram Settings.defaultLexer
  referenceParser := .ofProgram Settings.defaultReferenceParser
  candidateLexer := .ofProgram Settings.defaultLexer
  candidateParser := .ofProgram Settings.defaultCandidateParser
  noNormalize := false
  timeout := Settings.defaultTimeoutSeconds

/-- What is written for toolchain options. -/
def ToolchainOptions.items (o : ToolchainOptions) : List Item :=
  [.option referenceLexerName (.command o.referenceLexer),
    .option referenceParserName (.command o.referenceParser),
    .option candidateLexerName (.command o.candidateLexer),
    .option candidateParserName (.command o.candidateParser),
    .option timeoutName (.seconds o.timeout)] ++
    if o.noNormalize then [.flag noNormalizeFlag] else []

/-- What is written for a filter; there may be none. -/
def filterItems (filter : Option Text) : List Item :=
  filter.toList.map fun t => .option filterName (.text t)

namespace Command

/-- The word of a command. -/
def verb : Command → Verb
  | dir .. => .dir
  | files .. => .files
  | smoke .. => .smoke

/-- What is written for a command. -/
def items : Command → List Item
  | dir d filter o => .operands [d] :: filterItems filter ++ o.items
  | files listed corpus o => .operands listed :: .option corpusName (.path corpus) :: o.items
  | smoke d compiler filter timeout =>
    [.operands [d], .option compilerName (.command compiler),
      .option timeoutName (.seconds timeout)] ++ filterItems filter

/-- Whether a command compares the lines as they are. -/
def raw : Command → Bool
  | dir _ _ o | files _ _ o => o.noNormalize
  | smoke .. => false

/-- Whether a command has a filter. -/
def filtered : Command → Bool
  | dir _ filter _ | smoke _ _ filter _ => filter.isSome
  | files .. => false

end Command

namespace CommandLine

/-- What a command has if it is not written. -/
def Verb.defaults : Verb → List Item
  | .dir => .operands [.ofText Settings.defaultCorpusDir] :: ToolchainOptions.default.items
  | .files =>
    .option corpusName (.path (.ofText Settings.defaultCorpusDir)) :: ToolchainOptions.default.items
  | .smoke =>
    [.operands [.ofText Settings.defaultCorpusDir],
      .option compilerName (.command (.ofProgram Settings.defaultCompiler)),
      .option timeoutName (.seconds Settings.defaultTimeoutSeconds)]

/-- Where the items of a command line stand: global flags in front of the command or behind it,
all others behind it, and some that have their default nowhere. -/
structure Placed (line : CommandLine) (before after left : List Item) : Prop where
  perm : (before ++ after ++ left).Perm (line.globals ++ line.command.items)
  before : before ⊆ line.globals
  left : left ⊆ line.command.verb.defaults

/-- An argument list writes a command line: its items stand in any order, each spelled in any
way. -/
def Writes (line : CommandLine) (args : List Text) : Prop :=
  ∃ before after left front back, args = front ++ line.command.verb.name :: back ∧
    Written before front ∧ Written after back ∧ Placed line before after left

/-! ## The slots of what is written -/

/-- The slots of a command line. -/
def slots (line : CommandLine) : List Slot := (line.globals ++ line.command.items).map Item.slot

/-- A command line with nothing but the given parts set. -/
def skeleton (verb : Verb) (metrics verbose silent filtered raw : Bool) : CommandLine where
  metrics := metrics
  verbose := verbose
  silent := silent
  command :=
    let filter := if filtered then some [] else none
    let toolchains := { ToolchainOptions.default with noNormalize := raw }
    match verb with
    | .dir => .dir ⟨[]⟩ filter toolchains
    | .files => .files [] ⟨[]⟩ toolchains
    | .smoke => .smoke ⟨[]⟩ (.ofProgram []) filter 0

theorem slots_eq_skeleton (line : CommandLine) :
    line.slots = (skeleton line.command.verb line.metrics line.verbose line.silent
      line.command.filtered line.command.raw).slots := by
  obtain ⟨metrics, verbose, silent, command⟩ := line
  rw [slots, slots, List.map_append, List.map_append]
  refine congrArg _ ?_
  cases command with
  | dir d filter o =>
    obtain ⟨_, _, _, _, noNormalize, _⟩ := o
    cases filter <;> cases noNormalize <;> rfl
  | files listed corpus o =>
    obtain ⟨_, _, _, _, noNormalize, _⟩ := o
    cases noNormalize <;> rfl
  | smoke d compiler filter timeout => cases filter <;> rfl

theorem skeleton_slots (verb : Verb) : ∀ metrics verbose silent filtered raw,
    let slots := (skeleton verb metrics verbose silent filtered raw).slots
    slots.Nodup ∧ (.option metricsName ∈ slots ↔ metrics = true) ∧
      (.option verboseName ∈ slots ↔ verbose = true) ∧
      (.option silentName ∈ slots ↔ silent = true) ∧
      (.option filterName ∈ slots → filtered = true) ∧
      (.option noNormalizeName ∈ slots → raw = true) := by
  cases verb <;> decide

theorem slots_nodup (line : CommandLine) : line.slots.Nodup := by
  rw [slots_eq_skeleton]
  exact (skeleton_slots ..).1

theorem mem_slots_metrics {line : CommandLine} :
    .option metricsName ∈ line.slots ↔ line.metrics = true := by
  rw [slots_eq_skeleton]
  exact (skeleton_slots ..).2.1

theorem mem_slots_verbose {line : CommandLine} :
    .option verboseName ∈ line.slots ↔ line.verbose = true := by
  rw [slots_eq_skeleton]
  exact (skeleton_slots ..).2.2.1

theorem mem_slots_silent {line : CommandLine} :
    .option silentName ∈ line.slots ↔ line.silent = true := by
  rw [slots_eq_skeleton]
  exact (skeleton_slots ..).2.2.2.1

theorem filtered_of_mem_slots {line : CommandLine} (h : .option filterName ∈ line.slots) :
    line.command.filtered = true := by
  rw [slots_eq_skeleton] at h
  exact (skeleton_slots ..).2.2.2.2.1 h

theorem raw_of_mem_slots {line : CommandLine} (h : .option noNormalizeName ∈ line.slots) :
    line.command.raw = true := by
  rw [slots_eq_skeleton] at h
  exact (skeleton_slots ..).2.2.2.2.2 h

theorem Verb.defaults_nodup (verb : Verb) : (verb.defaults.map Item.slot).Nodup := by
  cases verb <;> decide

theorem Verb.grammar_conflicts (verb : Verb) : verb.grammar.conflicts = exclusions := by
  cases verb <;> rfl

/-- Flags and the filter have no default. -/
theorem Verb.defaults_slots (verb : Verb) :
    ∀ name ∈ [metricsName, verboseName, silentName, filterName, noNormalizeName],
      ∀ i ∈ verb.defaults, i.slot ≠ .option name := by
  cases verb <;> decide

/-! ## The grammars know what is written -/

theorem globals_known {g : Grammar} (hmetrics : g.Flag metricsFlag) (hverbose : g.Flag verboseFlag)
    (hsilent : g.Flag silentFlag) (line : CommandLine) : ∀ i ∈ line.globals, g.Knows i := by
  intro i hi
  simp only [globals, List.mem_append, List.mem_ite_nil_right, List.mem_singleton] at hi
  obtain (⟨-, rfl⟩ | ⟨-, rfl⟩) | ⟨-, rfl⟩ := hi
  · exact ⟨hmetrics, by decide, by decide⟩
  · exact ⟨hverbose, by decide, by decide⟩
  · exact ⟨hsilent, by decide, by decide⟩

theorem outerGrammar_knows (line : CommandLine) : ∀ i ∈ line.globals, outerGrammar.Knows i :=
  globals_known (by constructor <;> decide) outerGrammar_verbose outerGrammar_silent line

theorem toolchains_known (verb : Verb) (hverb : verb ≠ .smoke) (o : ToolchainOptions) :
    ∀ i ∈ o.items, verb.grammar.Knows i := by
  intro i hi
  simp only [ToolchainOptions.items, List.mem_append, List.mem_cons, List.not_mem_nil, or_false,
    List.mem_ite_nil_right] at hi
  cases verb with
  | smoke => exact absurd rfl hverb
  | _ =>
    obtain (rfl | rfl | rfl | rfl | rfl) | ⟨-, rfl⟩ := hi
    all_goals first
      | exact ⟨_, rfl, rfl, by decide, by decide⟩
      | exact ⟨by constructor <;> decide, by decide, by decide⟩

theorem filterItems_known (verb : Verb) (hverb : verb ≠ .files) (filter : Option Text) :
    ∀ i ∈ filterItems filter, verb.grammar.Knows i := by
  intro i hi
  obtain ⟨t, -, rfl⟩ := List.mem_map.mp hi
  cases verb with
  | files => exact absurd rfl hverb
  | _ => exact ⟨_, rfl, rfl, by decide, by decide⟩

theorem items_known (c : Command) : ∀ i ∈ c.items, c.verb.grammar.Knows i := by
  cases c with
  | dir d filter o =>
    refine List.forall_mem_cons.mpr ⟨⟨directoryOperand, rfl, .inr rfl⟩, fun i hi => ?_⟩
    obtain hi | hi := List.mem_append.mp hi
    · exact filterItems_known .dir (by decide) filter i hi
    · exact toolchains_known .dir (by decide) o i hi
  | files listed corpus o =>
    exact List.forall_mem_cons.mpr ⟨⟨filesOperand, rfl, .inl rfl⟩, List.forall_mem_cons.mpr
      ⟨⟨_, rfl, rfl, by decide, by decide⟩, toolchains_known .files (by decide) o⟩⟩
  | smoke d compiler filter timeout =>
    exact List.forall_mem_cons.mpr ⟨⟨directoryOperand, rfl, .inr rfl⟩, List.forall_mem_cons.mpr
      ⟨⟨_, rfl, rfl, by decide, by decide⟩, List.forall_mem_cons.mpr
        ⟨⟨_, rfl, rfl, by decide, by decide⟩, filterItems_known .smoke (by decide) filter⟩⟩⟩

theorem line_known (line : CommandLine) :
    ∀ i ∈ line.globals ++ line.command.items, line.command.verb.grammar.Knows i := by
  intro i hi
  obtain hi | hi := List.mem_append.mp hi
  · refine globals_known ?_ (Verb.grammar_verbose _) (Verb.grammar_silent _) line i hi
    cases line.command.verb <;> constructor <;> decide
  · exact items_known line.command i hi

/-! ## From what was given to the command -/

/-- The readings that give a command: each of its items was given, or has its default and was left
out, and nothing else was. -/
structure Fills (inner : Reading) (c : Command) : Prop where
  given : ∀ i ∈ c.items, inner.find? i.slot = some i.values ∨
    i ∈ c.verb.defaults ∧ inner.find? i.slot = none
  unfiltered : c.filtered = false → inner.find? (.option filterName) = none
  normalized : c.raw = false → inner.find? (.option noNormalizeName) = none

namespace Fills

variable {inner : Reading} {c : Command} {name : Text}

/-- The value of an option was given, or it is the default. -/
theorem option {v d : Value} (h : Fills inner c) (hv : .option name v ∈ c.items)
    (hd : .option name d ∈ c.verb.defaults) :
    inner.find? (.option name) = some [v] ∨ v = d ∧ inner.find? (.option name) = none := by
  refine (h.given _ hv).imp_right fun ⟨hdefault, hnone⟩ => ⟨?_, hnone⟩
  have heq := List.inj_on_of_nodup_map c.verb.defaults_nodup hdefault hd rfl
  exact (Item.option.inj heq).2

theorem command {i : Invocation} {default : Text} (h : Fills inner c)
    (hv : .option name (.command i) ∈ c.items)
    (hd : .option name (.command (.ofProgram default)) ∈ c.verb.defaults) :
    commandOf inner name default = i := by
  obtain hfind | ⟨heq, hfind⟩ := h.option hv hd
  · rw [commandOf, hfind]
  · rw [commandOf, hfind, Value.command.inj heq]

theorem seconds {n default : Nat} (h : Fills inner c) (hv : .option name (.seconds n) ∈ c.items)
    (hd : .option name (.seconds default) ∈ c.verb.defaults) :
    secondsOf inner name default = n := by
  obtain hfind | ⟨heq, hfind⟩ := h.option hv hd
  · rw [secondsOf, hfind]
  · rw [secondsOf, hfind, Value.seconds.inj heq]

theorem path {p : Path} {default : Text} (h : Fills inner c)
    (hv : .option name (.path p) ∈ c.items)
    (hd : .option name (.path (.ofText default)) ∈ c.verb.defaults) :
    pathOf inner name default = p := by
  obtain hfind | ⟨heq, hfind⟩ := h.option hv hd
  · rw [pathOf, hfind]
  · rw [pathOf, hfind, Value.path.inj heq]

theorem operandsOf_eq {inner : Reading} {ps : List Path}
    (h : inner.find? .operand = some (ps.map .path)) : operandsOf inner = ps := by
  rw [operandsOf, h, Option.getD_some, List.filterMap_map]
  exact (List.filterMap_eq_map ▸ List.map_id ps :)

/-- The operand of a command that takes a directory. -/
theorem directory {d : Path} (h : Fills inner c) (hv : .operands [d] ∈ c.items)
    (hd : .operands [.ofText Settings.defaultCorpusDir] ∈ c.verb.defaults) :
    (operandsOf inner).head?.getD (.ofText Settings.defaultCorpusDir) = d := by
  obtain hfind | ⟨hdefault, hfind⟩ := h.given _ hv
  · rw [operandsOf_eq hfind]
    rfl
  · have heq := List.inj_on_of_nodup_map c.verb.defaults_nodup hdefault hd rfl
    have hnone : operandsOf inner = [] := by
      rw [operandsOf, show inner.find? .operand = none from hfind]
      rfl
    rw [hnone, ← (List.cons.inj (Item.operands.inj heq)).1]
    rfl

theorem filter {f : Option Text} (h : Fills inner c) (hv : filterItems f ⊆ c.items)
    (hc : c.filtered = f.isSome) : textOf inner filterName = f := by
  cases f with
  | none => rw [textOf, h.unfiltered hc]
  | some t =>
    have hmem : .option filterName (.text t) ∈ c.items := hv List.mem_cons_self
    have hnone := c.verb.defaults_slots filterName (by decide)
    obtain hfind | ⟨hdefault, -⟩ := h.given _ hmem
    · rw [textOf, show inner.find? (.option filterName) = some [.text t] from hfind]
    · exact absurd rfl (hnone _ hdefault)

theorem toolchains {o : ToolchainOptions} (h : Fills inner c) (hv : o.items ⊆ c.items)
    (hd : ToolchainOptions.default.items ⊆ c.verb.defaults) (hc : c.raw = o.noNormalize) :
    toolchainsOf inner = o := by
  have hflag : inner.has (.option noNormalizeName) = o.noNormalize := by
    rw [Reading.has_eq_isSome_find?]
    cases hraw : o.noNormalize with
    | false =>
      rw [h.normalized (hc.trans hraw)]
      rfl
    | true =>
      have hmem : .flag noNormalizeFlag ∈ c.items := hv (by simp [ToolchainOptions.items, hraw])
      have hnone := c.verb.defaults_slots noNormalizeName (by decide)
      obtain hfind | ⟨hdefault, -⟩ := h.given _ hmem
      · rw [show inner.find? (.option noNormalizeName) = some [] from hfind]
        rfl
      · exact absurd rfl (hnone _ hdefault)
  have hv := fun i hi => hv (List.mem_append_left _ (a := i) hi)
  have hd := fun i hi => hd (List.mem_append_left _ (a := i) hi)
  have htimeout : secondsOf inner timeoutName Settings.defaultTimeoutSeconds = o.timeout :=
    h.seconds (hv _ (.tail _ (.tail _ (.tail _ (.tail _ (.head _))))))
      (hd _ (.tail _ (.tail _ (.tail _ (.tail _ (.head _))))))
  unfold toolchainsOf
  rw [hflag, htimeout, h.command (hv _ (.head _)) (hd _ (.head _)),
    h.command (hv _ (.tail _ (.head _))) (hd _ (.tail _ (.head _))),
    h.command (hv _ (.tail _ (.tail _ (.head _)))) (hd _ (.tail _ (.tail _ (.head _)))),
    h.command (hv _ (.tail _ (.tail _ (.tail _ (.head _)))))
      (hd _ (.tail _ (.tail _ (.tail _ (.head _)))))]

end Fills

/-- A reading that fills a command gives it. -/
theorem commandFrom_eq {inner : Reading} {c : Command} (h : Fills inner c) :
    commandFrom c.verb inner = c := by
  cases c with
  | dir d f o =>
    have hfilter : textOf inner filterName = f :=
      h.filter (fun _ hi => List.mem_append_left _ (.tail _ hi)) rfl
    have htoolchains : toolchainsOf inner = o :=
      h.toolchains (fun _ hi => List.mem_append_right _ hi) (fun _ hi => .tail _ hi) rfl
    show Command.dir _ _ _ = _
    rw [h.directory (.head _) (.head _), hfilter, htoolchains]
  | files listed corpus o =>
    have hlisted : operandsOf inner = listed := by
      obtain hfind | ⟨hdefault, -⟩ := h.given _ (.head _)
      · exact Fills.operandsOf_eq hfind
      · have hnone : ∀ i ∈ Verb.files.defaults, i.slot ≠ .operand := by decide
        exact absurd rfl (hnone _ hdefault)
    have htoolchains : toolchainsOf inner = o :=
      h.toolchains (fun _ hi => .tail _ (.tail _ hi)) (fun _ hi => .tail _ hi) rfl
    show Command.files _ _ _ = _
    rw [hlisted, h.path (.tail _ (.head _)) (.head _), htoolchains]
  | smoke d compiler f timeout =>
    have hfilter : textOf inner filterName = f :=
      h.filter (fun _ hi => List.mem_append_right _ hi) rfl
    have htimeout : secondsOf inner timeoutName Settings.defaultTimeoutSeconds = timeout :=
      h.seconds (.tail _ (.tail _ (.head _))) (.tail _ (.tail _ (.head _)))
    show Command.smoke _ _ _ _ = _
    rw [h.directory (.head _) (.head _), h.command (.tail _ (.head _)) (.tail _ (.head _)), hfilter,
      htimeout]

/-! ## Items in their places -/

theorem globals_flags (line : CommandLine) : ∀ i ∈ line.globals, ∃ o, i = .flag o := by
  intro i hi
  simp only [globals, List.mem_append, List.mem_ite_nil_right, List.mem_singleton] at hi
  obtain (⟨-, rfl⟩ | ⟨-, rfl⟩) | ⟨-, rfl⟩ := hi <;> exact ⟨_, rfl⟩

namespace Placed

variable {line : CommandLine} {before after left : List Item} {slot : Slot} {n m : Nat}

theorem nodup (h : Placed line before after left) :
    ((before ++ after ++ left).map Item.slot).Nodup :=
  (h.perm.map _).nodup_iff.mpr line.slots_nodup

theorem mem_slots (h : Placed line before after left) :
    slot ∈ line.slots ↔ (∃ i ∈ before, i.slot = slot) ∨ (∃ i ∈ after, i.slot = slot) ∨
      ∃ i ∈ left, i.slot = slot := by
  rw [slots, ← (h.perm.map Item.slot).mem_iff]
  simp only [List.mem_map, List.mem_append, or_and_right, exists_or, or_assoc]

/-- An item of the command stands behind it, or it has its default and was left out. -/
theorem fills (h : Placed line before after left) : Fills (.closed after n) line.command := by
  have hnodup := h.nodup
  rw [List.map_append, List.map_append, List.append_assoc, List.nodup_append] at hnodup
  obtain ⟨-, hbehind, hbefore⟩ := hnodup
  obtain ⟨hafter, -, hleft⟩ := List.nodup_append.mp hbehind
  have habsent : ∀ slot, slot ∉ line.slots → Reading.find? (.closed after n) slot = none :=
    fun slot hslot => Reading.find?_closed_eq_none fun i hi heq =>
      hslot (h.mem_slots.mpr (.inr (.inl ⟨i, hi, heq⟩)))
  refine ⟨fun i hi => ?_, fun hno => habsent _ fun hmem => ?_, fun hno => habsent _ fun hmem => ?_⟩
  · have hmem := h.perm.mem_iff.mpr (List.mem_append_right line.globals hi)
    rw [List.mem_append, List.mem_append] at hmem
    obtain (hib | hia) | hil := hmem
    · have hglobal := line.slots_nodup
      rw [slots, List.map_append] at hglobal
      exact absurd rfl ((List.nodup_append.mp hglobal).2.2 _
        (List.mem_map_of_mem (h.before hib)) _ (List.mem_map_of_mem hi))
    · exact .inl (Reading.find?_closed hafter hia)
    · exact .inr ⟨h.left hil, Reading.find?_closed_eq_none fun j hj =>
        hleft _ (List.mem_map_of_mem hj) _ (List.mem_map_of_mem hil)⟩
  · rw [filtered_of_mem_slots hmem] at hno
    exact nomatch hno
  · rw [raw_of_mem_slots hmem] at hno
    exact nomatch hno

/-- What has no default is not left out. -/
theorem mem_iff (h : Placed line before after left)
    (hdefault : ∀ i ∈ line.command.verb.defaults, i.slot ≠ slot) :
    (∃ i ∈ before, i.slot = slot) ∨ (∃ i ∈ after, i.slot = slot) ↔ slot ∈ line.slots := by
  rw [h.mem_slots, or_congr_right (or_iff_left ?_)]
  rintro ⟨i, hi, heq⟩
  exact hdefault i (h.left hi) heq

theorem has_eq {name : Text} {b : Bool} (h : Placed line before after left)
    (hname : name ∈ [metricsName, verboseName, silentName, filterName, noNormalizeName])
    (hset : .option name ∈ line.slots ↔ b = true) :
    ((Reading.closed before m).has (.option name) || (Reading.closed after n).has (.option name)) =
      b := by
  rw [Bool.eq_iff_iff, Bool.or_eq_true, Reading.has_closed, Reading.has_closed,
    h.mem_iff (line.command.verb.defaults_slots name hname), hset]

/-- What was given on both sides of the command is put together to the command line. -/
theorem assemble_eq (h : Placed line before after left) :
    assemble line.command.verb (.closed before m) (.closed after n) = line := by
  unfold assemble
  rw [commandFrom_eq h.fills, h.has_eq (by decide) mem_slots_metrics,
    h.has_eq (by decide) mem_slots_verbose, h.has_eq (by decide) mem_slots_silent]

/-- Operands that have to be there stand behind the command. -/
theorem operand_mem (h : Placed line before after left)
    (hrequired : line.command.verb.grammar.operand.any (·.required) = true) :
    ∃ i ∈ after, i.slot = .operand := by
  obtain ⟨metrics, verbose, silent, command⟩ := line
  cases command with
  | dir d f o => exact absurd hrequired Bool.false_ne_true
  | smoke d compiler f timeout => exact absurd hrequired Bool.false_ne_true
  | files listed corpus o =>
    have hdefault : ∀ i ∈ Verb.files.defaults, i.slot ≠ .operand := by decide
    have hmem : .operands listed ∈ (Command.files listed corpus o).items := .head _
    obtain ⟨i, hi, heq⟩ | hafter := (h.mem_iff hdefault).mpr
      (List.mem_map.mpr ⟨_, List.mem_append_right _ hmem, rfl⟩)
    · obtain ⟨flag, rfl⟩ := globals_flags _ i (h.before hi)
      exact nomatch heq
    · exact hafter

end Placed

/-- The flags that exclude each other are not both set, so no side of the command has both. -/
theorem no_conflict {line : CommandLine} (hexclusive : ¬ (line.verbose = true ∧ line.silent = true)) {items : List Item}
    (hitems : ∀ i ∈ items, i.slot ∈ line.slots) (a b : Text) (hab : (a, b) ∈ exclusions) :
    ¬ ((∃ i ∈ items, i.slot = .option a) ∧ ∃ i ∈ items, i.slot = .option b) := by
  obtain ⟨rfl, rfl⟩ := Prod.mk.inj (List.mem_singleton.mp hab)
  rintro ⟨⟨i, hi, hsilent⟩, ⟨j, hj, hverbose⟩⟩
  exact hexclusive ⟨mem_slots_verbose.mp (hverbose ▸ hitems j hj),
    mem_slots_silent.mp (hsilent ▸ hitems i hi)⟩

/-! ## Reading what was written -/

theorem Verb.ofName?_name (verb : Verb) : Verb.ofName? verb.name = some verb := by
  cases verb <;> decide

/-- No command begins with a hyphen. -/
theorem Verb.ofName?_of_hyphen {word : Text} (h : word.head? = some '-') :
    Verb.ofName? word = none := by
  cases hverb : Verb.ofName? word with
  | none => rfl
  | some verb =>
    obtain rfl : verb.name = word := by simpa using List.find?_some hverb
    cases verb <;> exact absurd h (by decide)

/-- **A global flag** in front of the command. -/
theorem readFrom_flag {r r' : Reading} {word : Text} (hr : r.trailing = false)
    (hhead : word.head? = some '-') (hword : word ≠ ['-'])
    (hstep : outerGrammar.step r word = .ok r') (rest : List Text) :
    readFrom r (word :: rest) = readFrom r' rest := by
  have hhelp : word ≠ helpName := fun heq => by
    rw [heq] at hhead
    exact absurd hhead (by decide)
  rw [readFrom, if_neg (by simp [hr]), Verb.ofName?_of_hyphen hhead]
  dsimp only
  rw [if_neg hhelp, if_pos ⟨hhead, hword⟩, hstep]

/-- The command itself. -/
theorem readFrom_verb {r : Reading} (hr : r.trailing = false) (verb : Verb) (rest : List Text) :
    readFrom r (verb.name :: rest) = readCommand verb r rest := by
  rw [readFrom, if_neg (by simp [hr]), Verb.ofName?_name]

theorem spells_flag {o : Opt} {words : List Text} (h : Spells (.flag o) words) :
    ∃ word, words = [word] ∧ word.head? = some '-' ∧ word ≠ ['-'] := by
  cases h with
  | long => exact ⟨_, rfl, rfl, by simp⟩
  | short _ c hc => exact ⟨_, rfl, rfl, by simp⟩

/-- **The global flags** in front of the command. -/
theorem readFrom_written {r : Reading} {items more : List Item} {words : List Text}
    (h : Written more words) (hr : r.Holds outerGrammar items)
    (hflags : ∀ i ∈ more, outerGrammar.Knows i ∧ ∃ o, i = .flag o)
    (hnodup : ((items ++ more).map Item.slot).Nodup) :
    ∃ r', r'.Holds outerGrammar (items ++ more) ∧
      ∀ rest, readFrom r (words ++ rest) = readFrom r' rest := by
  induction h generalizing r items with
  | nil => exact ⟨r, by rwa [List.append_nil], fun _ => rfl⟩
  | @cons item others first back hfirst _ ih =>
    obtain ⟨⟨hknows, o, rfl⟩, hothers⟩ := List.forall_mem_cons.mp hflags
    obtain ⟨word, rfl, hhead, hword⟩ := spells_flag hfirst
    obtain ⟨r₁, hsteps, hholds⟩ :=
      Grammar.steps_spells hr hknows trivial (Item.fresh_of_nodup hnodup) hfirst
    obtain ⟨_, hstep, ⟨rfl⟩⟩ := Grammar.steps_cons_eq_ok_iff.mp hsteps
    have hsplit : items ++ .flag o :: others = (items ++ [.flag o]) ++ others := by simp
    rw [hsplit] at hnodup ⊢
    obtain ⟨r₂, hall, hread⟩ := ih hholds hothers hnodup
    refine ⟨r₂, hall, fun rest => ?_⟩
    rw [List.append_assoc, List.singleton_append, readFrom_flag hr.trailing hhead hword hstep,
      hread]

/-- **Round trip.** Every way of writing a command line is read as the command line. -/
theorem read_written {line : CommandLine} {args : List Text}
    (hwritable : ∀ i ∈ line.command.items, i.Writable)
    (hexclusive : ¬ (line.verbose = true ∧ line.silent = true)) (h : line.Writes args) :
    read args = .ok line := by
  obtain ⟨before, after, left, front, back, rfl, hfront, hback, hplaced⟩ := h
  have hnodup := hplaced.nodup
  rw [List.map_append, List.map_append] at hnodup
  obtain ⟨hsides, -, -⟩ := List.nodup_append.mp hnodup
  obtain ⟨hbefore, hafter, -⟩ := List.nodup_append.mp hsides
  have hmem : ∀ i ∈ after, i ∈ line.globals ++ line.command.items := fun i hi =>
    hplaced.perm.mem_iff.mp (List.mem_append_left _ (List.mem_append_right _ hi))
  have hallWritable : ∀ i ∈ line.globals ++ line.command.items, i.Writable := fun i hi => by
    obtain hi | hi := List.mem_append.mp hi
    · obtain ⟨o, rfl⟩ := line.globals_flags i hi
      trivial
    · exact hwritable i hi
  -- the two sides of the command, each read by its grammar
  obtain ⟨outer, houter, hread⟩ := readFrom_written hfront (Reading.start_holds _)
    (fun i hi => ⟨line.outerGrammar_knows i (hplaced.before hi),
      line.globals_flags i (hplaced.before hi)⟩) hbefore
  obtain ⟨inner, hsteps, hinner⟩ := Grammar.steps_written hback
    (Reading.start_holds line.command.verb.grammar)
    (fun i hi => ⟨line.line_known i (hmem i hi), hallWritable i (hmem i hi)⟩) hafter
  have hinnerFinish := Grammar.finish_holds hinner
    (fun a b hab => no_conflict hexclusive (fun i hi => List.mem_map_of_mem (hmem i hi)) a b
      (line.command.verb.grammar_conflicts ▸ hab)) hplaced.operand_mem
  have houterFinish := Grammar.finish_holds houter
    (no_conflict hexclusive fun i hi =>
      List.mem_map_of_mem (List.mem_append_left _ (hplaced.before hi)))
    (fun hrequired => absurd hrequired (by decide))
  rw [read, hread, readFrom_verb houter.trailing, readCommand,
    Grammar.readAll_eq_ok_iff.mpr ⟨inner, hsteps, hinnerFinish⟩]
  dsimp only
  rw [houterFinish]
  exact congrArg Except.ok hplaced.assemble_eq

/-- A command line that is written in several ways at once: a flag in front, an option in one
argument and one in two, two files between them, and what has its default left out. -/
theorem read_written_files :
    let line : CommandLine := ⟨false, true, false,
      .files [.ofText "a.cl".toList, .ofText "b.cl".toList] (.ofText Settings.defaultCorpusDir)
        { ToolchainOptions.default with
          candidateParser := ⟨.ofText "python3".toList, ["p.py".toList]⟩, timeout := 3 }⟩
    let args : List Text := ["-v".toList, "files".toList, "--timeout=3".toList, "a.cl".toList,
      "b.cl".toList, "--candidate-parser".toList, "python3 p.py".toList]
    (∀ i ∈ line.command.items, i.Writable) ∧ ¬ (line.verbose = true ∧ line.silent = true) ∧
      line.Writes args ∧ read args = .ok line := by
  intro line args
  have hwritable : ∀ i ∈ line.command.items, i.Writable := by decide
  have hexclusive : ¬ (line.verbose = true ∧ line.silent = true) := by decide
  have hwrites : line.Writes args := by
    refine ⟨[.flag verboseFlag], [.option timeoutName (.seconds 3),
      .operands [.ofText "a.cl".toList, .ofText "b.cl".toList],
      .option candidateParserName (.command ⟨.ofText "python3".toList, ["p.py".toList]⟩)],
      [.option corpusName (.path (.ofText Settings.defaultCorpusDir)),
        .option referenceLexerName (.command (.ofProgram Settings.defaultLexer)),
        .option referenceParserName (.command (.ofProgram Settings.defaultReferenceParser)),
        .option candidateLexerName (.command (.ofProgram Settings.defaultLexer))],
      ["-v".toList], args.drop 2, rfl, ?_, ?_, ?_⟩
    · exact .cons (.short verboseFlag 'v' rfl) .nil
    · exact .cons (.attached _ _)
        (.cons (.operands _ (by decide)) (.cons (.separate _ _ (by decide)) .nil))
    · exact ⟨by decide, by decide, by decide⟩
  exact ⟨hwritable, hexclusive, hwrites, read_written hwritable hexclusive hwrites⟩

end CommandLine

end Conformance
