import Conformance.Proofs.Arguments.Flags
import Conformance.Proofs.Arguments.Values

/-!
# Written arguments are read back

An item is what is written for a flag, an option or the operands, and `Spells` are the ways of
writing it.  A reading that has come to the end of some items holds them all (`Reading.Holds`): once
what was begun last is settled, it has been given their entries in order and nothing else.  Every
item keeps this, whichever way it is spelled (`steps_spells`), and so do items one after another
(`steps_written`).
-/

namespace Conformance

namespace Arguments

/-- What is written for one part of a command. -/
inductive Item
  | flag (o : Opt)
  | option (name : Text) (value : Value)
  | operands (paths : List Path)
  deriving DecidableEq, Repr

namespace Item

/-- What an item belongs to. -/
def slot : Item → Slot
  | flag o => .option o.long
  | option name _ => .option name
  | operands _ => .operand

/-- The values of an item. -/
def values : Item → List Value
  | flag _ => []
  | option _ v => [v]
  | operands ps => ps.map .path

/-- What a reading has been given by an item. -/
def entry (i : Item) : Slot × List Value := (i.slot, i.values)

/-- The values of the item can be written. -/
def Writable : Item → Prop
  | flag _ => True
  | option _ v => v.Writable
  | operands ps => ps ≠ [] ∧ ∀ p ∈ ps, (Value.path p).Writable

/-- Where slots are different, an item is new behind those in front of it. -/
theorem fresh_of_nodup {items others : List Item} {item : Item}
    (h : ((items ++ item :: others).map slot).Nodup) : ∀ i ∈ items, i.slot ≠ item.slot := by
  intro i hi
  rw [List.map_append] at h
  exact (List.nodup_append.mp h).2.2 _ (List.mem_map_of_mem hi) _ List.mem_cons_self

instance : (i : Item) → Decidable i.Writable
  | flag _ => isTrue trivial
  | option _ v => inferInstanceAs (Decidable v.Writable)
  | operands _ => inferInstanceAs (Decidable (_ ∧ _))

end Item

/-- The ways of writing an item: a flag by its long name or its letter, an option with its value in
one argument or, where the value does not look like an option, in two, and operands in one block. -/
inductive Spells : Item → List Text → Prop
  | long (o : Opt) : Spells (.flag o) ['-' :: '-' :: o.long]
  | short (o : Opt) (c : Char) (h : o.short = some c) : Spells (.flag o) [['-', c]]
  | attached (name : Text) (v : Value) :
      Spells (.option name v) ['-' :: '-' :: name ++ '=' :: v.display]
  | separate (name : Text) (v : Value) (h : v.display.head? ≠ some '-') :
      Spells (.option name v) ['-' :: '-' :: name, v.display]
  | operands (ps : List Path) (h : ∀ p ∈ ps, p.shown.head? ≠ some '-') :
      Spells (.operands ps) (ps.map (·.shown))

/-- Items written one after another. -/
inductive Written : List Item → List Text → Prop
  | nil : Written [] []
  | cons {item : Item} {items : List Item} {words rest : List Text} (first : Spells item words)
      (others : Written items rest) : Written (item :: items) (words ++ rest)

/-- The item is one of the grammar: its flag, its option with a value of the kind, or its
operands. -/
def Grammar.Knows (g : Grammar) : Item → Prop
  | .flag o => g.Flag o ∧ o.long ≠ [] ∧ o.short ≠ some '-'
  | .option name v =>
    ∃ o, g.long? name = some o ∧ o.effect = .valued v.kind ∧ name ≠ [] ∧ '=' ∉ name
  | .operands ps => ∃ operand, g.operand = some operand ∧ (operand.many = true ∨ ps.length = 1)

/-! ## One argument -/

namespace Grammar

variable {g : Grammar} {r r' : Reading} {o : Opt} {items : List Item} {item : Item} {n : Nat}

theorem step_long {name : Text} (hr : r.trailing = false) (hname : name ≠ []) :
    g.step r ('-' :: '-' :: name) = g.takeLong name r := by
  obtain ⟨c, cs, rfl⟩ := List.exists_cons_of_ne_nil hname
  rw [step, if_neg (by simp [hr])]
  exact hname

theorem step_short {c : Char} (hr : r.trailing = false) (hc : c ≠ '-') :
    g.step r ['-', c] = g.takeShorts [c] r := by
  unfold step
  rw [if_neg (by simp [hr])]
  split
  · next heq => simp [hc] at heq
  · next heq => simp [hc] at heq
  · next heq =>
    cases heq
    rfl
  · next h => exact (h c [] rfl).elim

/-- An argument that does not look like an option is the value that an option waits for, or else an
operand. -/
theorem step_word {arg : Text} (hr : r.trailing = false) (harg : arg.head? ≠ some '-') :
    g.step r arg =
      match r.pending with
      | some (.option name, []) => .ok { r with pending := some (.option name, [arg]) }
      | _ => g.takeOperand arg r := by
  unfold step
  rw [if_neg (by simp [hr])]
  split
  · simp at harg
  · simp at harg
  · simp at harg
  · rfl

theorem Flag.long? (ho : g.Flag o) : g.long? o.long = some o := by
  cases h : g.long? o.long with
  | none => simpa using List.find?_eq_none.mp h o ho.mem
  | some p =>
    obtain ⟨hmem, hlong⟩ := mem_of_long? h
    rw [ho.eq_of_long p hmem hlong]

theorem Flag.short? {c : Char} (ho : g.Flag o) (hc : o.short = some c) : g.short? c = some o := by
  cases h : g.short? c with
  | none => simpa [hc] using List.find?_eq_none.mp h o ho.mem
  | some p =>
    obtain ⟨hmem, hshort⟩ := mem_of_short? h
    rw [ho.eq_of_short p hmem (by rw [hshort]; rfl) (hshort.trans hc.symm)]

end Grammar

/-! ## What a reading holds -/

namespace Reading

/-- The reading that has been given the entries of items and has nothing open. -/
def closed (items : List Item) (n : Nat) : Reading := ⟨none, items.map Item.entry, false, n⟩

theorem has_eq_isSome_find? (r : Reading) (slot : Slot) : r.has slot = (r.find? slot).isSome := by
  rw [has, find?, Option.isSome_map, Bool.eq_iff_iff, List.find?_isSome, List.any_eq_true]

theorem has_closed {items : List Item} {n : Nat} {slot : Slot} :
    (closed items n).has slot = true ↔ ∃ i ∈ items, i.slot = slot := by
  simp [has, closed, Item.entry]

/-- A reading that has come to the end of some items. -/
structure Holds (g : Grammar) (r : Reading) (items : List Item) : Prop where
  trailing : r.trailing = false
  settle : g.settle r = .ok (closed items r.operands)
  filled : ∀ name, r.pending ≠ some (.option name, [])
  operands : (∀ i ∈ items, i.slot ≠ .operand) →
    r.operands = 0 ∧ ∀ texts, r.pending ≠ some (.operand, texts)

theorem start_holds (g : Grammar) : start.Holds g [] :=
  ⟨rfl, rfl, fun _ h => (nomatch h), fun _ => ⟨rfl, fun _ h => nomatch h⟩⟩

theorem closed_holds {g : Grammar} {items : List Item} {n : Nat}
    (h : (∀ i ∈ items, i.slot ≠ .operand) → n = 0) : (closed items n).Holds g items :=
  ⟨rfl, rfl, fun _ h => (nomatch h), fun hno => ⟨h hno, fun _ h => nomatch h⟩⟩

/-- Values for a new slot are added at the end. -/
theorem append_fresh {slot : Slot} {values : List Value} {given : List (Slot × List Value)}
    (h : ∀ e ∈ given, e.1 ≠ slot) : append slot values given = given ++ [(slot, values)] := by
  induction given with
  | nil => rfl
  | cons first rest ih =>
    obtain ⟨hfirst, hrest⟩ := List.forall_mem_cons.mp h
    rw [append, if_neg hfirst, ih hrest, List.cons_append]

end Reading

namespace Grammar

open Reading

variable {g : Grammar} {r r' : Reading} {o : Opt} {items : List Item} {item : Item} {n : Nat}

theorem accept_flag (ho : o.effect = .flag) (hfresh : ∀ i ∈ items, i.slot ≠ .option o.long) :
    accept o [] (closed items n) = .ok (closed (items ++ [.flag o]) n) := by
  have hhas : ¬ (closed items n).has (.option o.long) = true := fun h => by
    obtain ⟨i, hi, heq⟩ := has_closed.mp h
    exact hfresh i hi heq
  unfold accept
  rw [ho]
  dsimp only
  rw [if_neg hhas]
  simp [closed, Item.entry, Item.slot, Item.values]

theorem accept_value {v : Value} (ho : o.effect = .valued v.kind) (hv : v.Writable)
    (hfresh : ∀ i ∈ items, i.slot ≠ .option o.long) :
    accept o [v.display] (closed items n) = .ok (closed (items ++ [.option o.long v]) n) := by
  have hhas : ¬ (closed items n).has (.option o.long) = true := fun h => by
    obtain ⟨i, hi, heq⟩ := has_closed.mp h
    exact hfresh i hi heq
  unfold accept
  rw [ho]
  dsimp only
  rw [if_neg (by simp), if_neg hhas, readValues, v.read_display hv]
  simp [readValues, Except.map, closed, Item.entry, Item.slot, Item.values]

/-- Paths that can be written are read as they are. -/
theorem readValues_paths {label : Text} {ps : List Path} (h : ∀ p ∈ ps, (Value.path p).Writable) :
    readValues label .path (ps.map (·.shown)) = .ok (ps.map .path) := by
  induction ps with
  | nil => rfl
  | cons p rest ih =>
    obtain ⟨hp, hrest⟩ := List.forall_mem_cons.mp h
    have hread : Kind.read .path p.shown = .ok (.path p) := Value.read_display (v := .path p) hp
    rw [List.map_cons, readValues, hread, ih hrest]
    rfl

theorem fresh_concat {next : Item} (hno : ∀ i ∈ items ++ [next], i.slot ≠ .operand)
    (h : (∀ i ∈ items, i.slot ≠ .operand) → n = 0) : n = 0 :=
  h fun i hi => hno i (List.mem_append_left _ hi)

/-- A flag that is complete. -/
theorem take_flag (hr : r.Holds g items) (ho : o.effect = .flag)
    (hfresh : ∀ i ∈ items, i.slot ≠ .option o.long) :
    ∃ r', g.take o [] r = .ok r' ∧ r'.Holds g (items ++ [.flag o]) := by
  refine ⟨closed (items ++ [.flag o]) r.operands, ?_, closed_holds fun hno =>
    fresh_concat hno fun h => (hr.operands h).1⟩
  rw [take, hr.settle]
  exact accept_flag ho hfresh

/-- An option with its value in one argument. -/
theorem take_value {v : Value} (hr : r.Holds g items) (ho : o.effect = .valued v.kind)
    (hv : v.Writable) (hfresh : ∀ i ∈ items, i.slot ≠ .option o.long) :
    ∃ r', g.take o [v.display] r = .ok r' ∧ r'.Holds g (items ++ [.option o.long v]) := by
  refine ⟨closed (items ++ [.option o.long v]) r.operands, ?_, closed_holds fun hno =>
    fresh_concat hno fun h => (hr.operands h).1⟩
  rw [take, hr.settle]
  exact accept_value ho hv hfresh

/-- An option that waits for its value, and then the value. -/
theorem open_value {v : Value} (hr : r.Holds g items) (hlong : g.long? o.long = some o)
    (ho : o.effect = .valued v.kind) (hv : v.Writable)
    (hfresh : ∀ i ∈ items, i.slot ≠ .option o.long) :
    Holds g { closed items r.operands with pending := some (.option o.long, [v.display]) }
      (items ++ [.option o.long v]) := by
  refine ⟨rfl, ?_, fun name h => ?_, fun hno => ⟨?_, fun texts h => ?_⟩⟩
  · rw [settle]
    dsimp only
    rw [hlong]
    exact accept_value ho hv hfresh
  · simp at h
  · exact fresh_concat hno fun h => (hr.operands h).1
  · simp at h

theorem takeOperand_first {operand : Operand} {arg : Text} (hoperand : g.operand = some operand)
    (hzero : r.operands = 0) (hpending : ∀ texts, r.pending ≠ some (.operand, texts)) :
    g.takeOperand arg r = (g.settle r).map fun r =>
      { r with pending := some (.operand, [arg]), operands := r.operands + 1 } := by
  unfold takeOperand
  rw [hoperand]
  dsimp only
  split
  · next texts _ heq => exact absurd heq (hpending texts)
  · rw [if_pos (by simp [hzero])]

theorem takeOperand_more {operand : Operand} {arg : Text} {texts : List Text}
    (hoperand : g.operand = some operand) (hmany : operand.many = true)
    (hpending : r.pending = some (.operand, texts)) :
    g.takeOperand arg r = .ok { r with pending := some (.operand, texts ++ [arg]) } := by
  unfold takeOperand
  rw [hoperand]
  dsimp only
  rw [hmany, hpending]

/-- More operands behind the first. -/
theorem steps_operands {operand : Operand} {texts more : List Text}
    (hoperand : g.operand = some operand) (hmany : operand.many = true ∨ more = [])
    (hr : r.trailing = false) (hmore : ∀ t ∈ more, t.head? ≠ some '-') :
    g.steps { r with pending := some (.operand, texts) } more =
      .ok { r with pending := some (.operand, texts ++ more) } := by
  induction more generalizing texts with
  | nil => rw [steps_nil, List.append_nil]
  | cons t rest ih =>
    have hmany : operand.many = true := hmany.resolve_right (List.cons_ne_nil _ _)
    obtain ⟨ht, hrest⟩ := List.forall_mem_cons.mp hmore
    have hstep : g.step { r with pending := some (.operand, texts) } t =
        .ok { r with pending := some (.operand, texts ++ [t]) } := by
      rw [step_word (r := { r with pending := some (.operand, texts) }) hr ht]
      exact takeOperand_more hoperand hmany rfl
    refine steps_cons_eq_ok_iff.mpr ⟨_, hstep, ?_⟩
    rw [ih (.inl hmany) hrest, List.append_assoc]
    rfl

/-- The block of operands. -/
theorem steps_block {ps : List Path} {operand : Operand} (hr : r.Holds g items)
    (hoperand : g.operand = some operand) (hmany : operand.many = true ∨ ps.length = 1)
    (hne : ps ≠ []) (hps : ∀ p ∈ ps, (Value.path p).Writable)
    (hwords : ∀ p ∈ ps, p.shown.head? ≠ some '-') (hfresh : ∀ i ∈ items, i.slot ≠ .operand) :
    ∃ r', g.steps r (ps.map (·.shown)) = .ok r' ∧ r'.Holds g (items ++ [.operands ps]) := by
  obtain ⟨hzero, hpending⟩ := hr.operands hfresh
  refine ⟨{ closed items 1 with pending := some (.operand, ps.map (·.shown)) }, ?_, rfl, ?_,
    fun name h => ?_, fun hno => ?_⟩
  · obtain ⟨p, rest, rfl⟩ := List.exists_cons_of_ne_nil hne
    obtain ⟨hp, hrest⟩ := List.forall_mem_cons.mp hwords
    have hfirst : g.step r p.shown =
        .ok { closed items 1 with pending := some (.operand, [p.shown]) } := by
      rw [step_word hr.trailing hp]
      split
      · next name heq => exact absurd heq (hr.filled name)
      · rw [takeOperand_first hoperand hzero hpending, hr.settle, hzero]
        rfl
    refine steps_cons_eq_ok_iff.mpr ⟨_, hfirst, ?_⟩
    refine steps_operands (r := closed items 1) hoperand (hmany.imp_right fun hlen => ?_) rfl
      fun t ht => ?_
    · rw [List.length_cons, Nat.add_eq_right, List.length_eq_zero_iff] at hlen
      exact congrArg _ hlen
    · obtain ⟨q, hq, rfl⟩ := List.mem_map.mp ht
      exact hrest q hq
  · have hnew : ∀ e ∈ items.map Item.entry, e.1 ≠ .operand := fun e he => by
      obtain ⟨i, hi, rfl⟩ := List.mem_map.mp he
      exact hfresh i hi
    rw [settle]
    dsimp only
    rw [hoperand]
    dsimp only
    rw [readValues_paths hps]
    dsimp only [Except.map, closed]
    rw [append_fresh hnew]
    simp [Item.entry, Item.slot, Item.values]
  · simp at h
  · exact absurd rfl (hno (.operands ps) (by simp))

/-- **One item.** However it is spelled, an item that is new is held as well. -/
theorem steps_spells {words : List Text} (hr : r.Holds g items) (hknows : g.Knows item)
    (hwritable : item.Writable) (hfresh : ∀ i ∈ items, i.slot ≠ item.slot)
    (h : Spells item words) :
    ∃ r', g.steps r words = .ok r' ∧ r'.Holds g (items ++ [item]) := by
  have hone : ∀ {arg : Text}, (∃ r', g.step r arg = .ok r' ∧ r'.Holds g (items ++ [item])) →
      ∃ r', g.steps r [arg] = .ok r' ∧ r'.Holds g (items ++ [item]) :=
    fun ⟨r', hstep, hholds⟩ => ⟨r', steps_cons_eq_ok_iff.mpr ⟨r', hstep, rfl⟩, hholds⟩
  cases h with
  | long o =>
    obtain ⟨hflag, hname, -⟩ := hknows
    apply hone
    rw [step_long hr.trailing hname, takeLong_name hflag.no_equals, hflag.long?]
    dsimp only
    rw [hflag.effect]
    exact take_flag hr hflag.effect hfresh
  | short o c hc =>
    obtain ⟨hflag, -, hhyphen⟩ := hknows
    apply hone
    rw [step_short hr.trailing (fun heq => hhyphen (heq ▸ hc)), takeShorts, hflag.short? hc]
    dsimp only
    obtain ⟨r', htake, hholds⟩ := take_flag hr hflag.effect hfresh
    rw [htake]
    exact ⟨r', rfl, hholds⟩
  | attached name v =>
    obtain ⟨o, hlong, heffect, hname, hequals⟩ := hknows
    obtain rfl := (mem_of_long? hlong).2
    apply hone
    rw [List.cons_append, List.cons_append, step_long hr.trailing (by simp), takeLong_value hequals,
      hlong]
    dsimp only
    rw [heffect]
    exact take_value hr heffect hwritable hfresh
  | separate name v hv =>
    obtain ⟨o, hlong, heffect, hname, hequals⟩ := hknows
    obtain rfl := (mem_of_long? hlong).2
    have hname : g.step r ('-' :: '-' :: o.long) =
        .ok { closed items r.operands with pending := some (.option o.long, []) } := by
      rw [step_long hr.trailing hname, takeLong_name hequals, hlong]
      dsimp only
      rw [heffect]
      dsimp only
      rw [hr.settle]
      rfl
    refine ⟨_, steps_cons_eq_ok_iff.mpr ⟨_, hname, steps_cons_eq_ok_iff.mpr ⟨_, ?_, rfl⟩⟩,
      open_value hr hlong heffect hwritable hfresh⟩
    rw [step_word rfl hv]
  | operands ps hwords =>
    obtain ⟨operand, hoperand, hmany⟩ := hknows
    exact steps_block hr hoperand hmany hwritable.1 hwritable.2 hwords hfresh

/-- **Items one after another** are all held, in any order. -/
theorem steps_written {more : List Item} {words : List Text} (h : Written more words)
    (hr : r.Holds g items) (hknows : ∀ i ∈ more, g.Knows i ∧ i.Writable)
    (hnodup : ((items ++ more).map Item.slot).Nodup) :
    ∃ r', g.steps r words = .ok r' ∧ r'.Holds g (items ++ more) := by
  induction h generalizing r items with
  | nil => exact ⟨r, rfl, by rwa [List.append_nil]⟩
  | @cons item others first rest hfirst _ ih =>
    obtain ⟨⟨hitem, hwritable⟩, hothers⟩ := List.forall_mem_cons.mp hknows
    obtain ⟨r₁, hsteps, hholds⟩ :=
      steps_spells hr hitem hwritable (Item.fresh_of_nodup hnodup) hfirst
    have hsplit : items ++ item :: others = (items ++ [item]) ++ others := by simp
    rw [hsplit] at hnodup ⊢
    obtain ⟨r₂, hrest, hall⟩ := ih hholds hothers hnodup
    exact ⟨r₂, (steps_append_eq_ok hsteps).trans hrest, hall⟩

/-! ## The end of the reading -/

theorem conflict?_closed (h : ∀ a b, (a, b) ∈ g.conflicts → ¬ ((∃ i ∈ items, i.slot = .option a) ∧
    ∃ i ∈ items, i.slot = .option b)) : g.conflict? (closed items n) = none := by
  rw [conflict?, List.findSome?_eq_none_iff]
  rintro ⟨slot, values⟩ hmem
  refine List.findSome?_eq_none_iff.mpr fun o _ => List.findSome?_eq_none_iff.mpr fun p _ => ?_
  refine if_neg ?_
  rintro ⟨hslot, hhas, hpair⟩
  have ho : ∃ i ∈ items, i.slot = .option o.long := by
    obtain ⟨i, hi, heq⟩ := List.mem_map.mp hmem
    exact ⟨i, hi, (Prod.mk.inj heq).1.trans hslot⟩
  have hp := has_closed.mp hhas
  obtain hpair | hpair := hpair
  · exact h _ _ hpair ⟨ho, hp⟩
  · exact h _ _ hpair ⟨hp, ho⟩

/-- A reading that holds items which do not exclude each other is finished with them. -/
theorem finish_holds (hr : r.Holds g items)
    (hconflict : ∀ a b, (a, b) ∈ g.conflicts → ¬ ((∃ i ∈ items, i.slot = .option a) ∧
      ∃ i ∈ items, i.slot = .option b))
    (hrequired : g.operand.any (·.required) = true → ∃ i ∈ items, i.slot = .operand) :
    g.finish r = .ok (closed items r.operands) := by
  rw [finish, hr.settle]
  dsimp only
  rw [conflict?_closed hconflict]
  refine if_neg ?_
  rw [Bool.and_eq_true, Bool.not_eq_true', ← Bool.not_eq_true, has_closed]
  exact fun ⟨hneeded, hnone⟩ => hnone (hrequired hneeded)

end Grammar

namespace Reading

variable {items : List Item} {n : Nat}

/-- What was given by an item is found under its slot. -/
theorem find?_closed {i : Item} (hnodup : (items.map Item.slot).Nodup) (hi : i ∈ items) :
    (closed items n).find? i.slot = some i.values := by
  unfold find? closed
  dsimp only
  induction items with
  | nil => exact nomatch hi
  | cons j rest ih =>
    rw [List.map_cons, List.nodup_cons] at hnodup
    rw [List.map_cons, List.find?_cons]
    rcases List.mem_cons.mp hi with rfl | hi
    · simp [Item.entry]
    · have hne : j.slot ≠ i.slot := fun heq => hnodup.1 (heq ▸ List.mem_map_of_mem hi)
      have hfalse : (j.entry.1 == i.slot) = false := beq_eq_false_iff_ne.mpr hne
      rw [hfalse]
      exact ih hnodup.2 hi

theorem find?_closed_eq_none {slot : Slot} (h : ∀ i ∈ items, i.slot ≠ slot) :
    (closed items n).find? slot = none := by
  unfold find? closed
  rw [Option.map_eq_none_iff, List.find?_eq_none]
  intro e he
  obtain ⟨i, hi, rfl⟩ := List.mem_map.mp he
  simpa [Item.entry] using h i hi

end Reading

end Arguments

end Conformance
