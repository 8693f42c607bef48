import Conformance.Proofs.Path.Components

/-!
# Paths below a directory

A name joined to a directory is one more piece at the end of the directory's path, whatever way the
path is written: a separator at its end stands for no component and gives way (`pieces_join`).  So
the components of a path below a directory are the directory's and then the names
(`components_below`), and cutting the directory off leaves the names (`displayName_below`).
-/

namespace Conformance

/-- A name that stands for an entry of a directory: one piece of a path, and no dots. -/
structure Name.Plain (n : Name) : Prop where
  ne_nil : n ≠ []
  no_separator : Path.separator ∉ n
  ne_current : n ≠ .current
  ne_parent : n ≠ .parent

namespace Path

variable {dir p : Path} {name : Name} {names : List Name}

/-! ## One name -/

theorem isAbsolute_of_no_separator {n : Name} (h : separator ∉ n) : isAbsolute ⟨n⟩ = false := by
  cases n with
  | nil => rfl
  | cons c r =>
    rw [List.mem_cons, not_or] at h
    simpa [isAbsolute] using Ne.symm h.1

/-- What stands in front of a path that is joined to a directory. -/
def front (dir : Path) : List UInt8 :=
  if dir.bytes.isEmpty ∨ dir.bytes.getLast? = some separator then dir.bytes
  else dir.bytes ++ [separator]

theorem join_eq (hp : p.isAbsolute = false) : dir.join p = ⟨dir.front ++ p.bytes⟩ := by
  unfold join front
  rw [if_neg (by simp [hp])]
  split
  · rfl
  · rw [List.append_assoc, List.singleton_append]

/-- It is empty or ends with a separator, which the directory's path may have or not. -/
theorem front_cases (dir : Path) :
    (dir.bytes = [] ∧ dir.front = []) ∨
      ∃ t, dir.front = t ++ [separator] ∧
        (t ≠ [] ∧ dir.bytes = t ∨ dir.bytes = t ++ [separator]) := by
  unfold front
  by_cases hnil : dir.bytes = []
  · exact .inl ⟨hnil, by simp [hnil]⟩
  · by_cases hlast : dir.bytes.getLast? = some separator
    · obtain ⟨t, ht⟩ := List.getLast?_eq_some_iff.mp hlast
      exact .inr ⟨t, by rw [if_pos (.inr hlast), ht], .inr ht⟩
    · exact .inr ⟨dir.bytes, by rw [if_neg (by simp [hnil, hlast])], .inl ⟨hnil, rfl⟩⟩

/-- Pieces that do not begin with one that stands for nothing. -/
def Solid (pieces : List (Option Component × Name)) : Prop :=
  ∀ piece, pieces.head? = some piece → piece.1.isSome = true

/-- The piece that a name stands for. -/
def namePiece (name : Name) : Option Component × Name := (some (.name name), name)

theorem inner?_of_plain (h : name.Plain) : inner? name = some (.name name) :=
  inner?_eq_name_iff.mpr ⟨rfl, h.ne_nil, h.ne_current, h.ne_parent⟩

theorem isSome_front_piece (f : Name) :
    (if f = [] then some .root
      else if f = Name.current then some .current else inner? f).isSome := by
  by_cases hf : f = []
  · simp [hf]
  · by_cases hdot : f = Name.current
    · simp [hdot]
    · rw [if_neg hf, if_neg hdot, inner?, if_neg (by simp [hf, hdot])]
      split <;> rfl

/-- **One name.** A name joined to a directory is one more piece; an empty piece at the end gives
way to it. -/
theorem pieces_join (h : name.Plain) (dir : Path) :
    ∃ pieces, Solid pieces ∧ (dir.pieces = pieces ∨ dir.pieces = pieces ++ [(none, [])]) ∧
      (dir.join ⟨name⟩).pieces = pieces ++ [namePiece name] := by
  have hname := Text.splitAt_of_not_mem h.no_separator
  rw [join_eq (isAbsolute_of_no_separator h.no_separator)]
  obtain ⟨hdir, hfront⟩ | ⟨t, hfront, hdir⟩ := front_cases dir
  · have hnone : dir.pieces = [(none, [])] := by simp [pieces, hdir, Text.splitAt, inner?]
    refine ⟨[], by simp [Solid], .inr hnone, ?_⟩
    rw [pieces_eq (by rw [hfront, List.nil_append]; exact hname), if_neg h.ne_nil,
      if_neg h.ne_current, inner?_of_plain h]
    rfl
  · cases hcut : Text.splitAt separator t with
    | nil => exact absurd hcut (Text.splitAt_ne_nil separator t)
    | cons f fs =>
      have hjoin : Text.splitAt separator (dir.front ++ name) = f :: (fs ++ [name]) := by
        rw [hfront, List.append_assoc, List.singleton_append, Text.splitAt_append_cons, hcut,
          hname, List.cons_append]
      refine ⟨(if f = [] then some .root
        else if f = Name.current then some .current else inner? f, f) ::
          fs.map fun n => (inner? n, n), ?_, ?_, ?_⟩
      · rintro _ ⟨rfl⟩
        exact isSome_front_piece f
      · obtain ⟨hne, hdir⟩ | hdir := hdir
        · left
          rw [pieces_eq (by rw [hdir, hcut])]
          have hrest : f = [] → fs ≠ [] := by
            rintro rfl rfl
            exact hne (Text.splitAt_eq_singleton_nil hcut)
          by_cases hf : f = []
          · rw [if_pos hf, if_pos hf, if_neg (hrest hf)]
          · rw [if_neg hf, if_neg hf]
        · right
          have hdir : Text.splitAt separator dir.bytes = f :: (fs ++ [[]]) := by
            rw [hdir, Text.splitAt_append_cons, hcut]
            rfl
          rw [pieces_eq hdir]
          simp [inner?]
      · rw [pieces_eq hjoin]
        simp [inner?_of_plain h, namePiece]

/-! ## Names one after another -/

/-- The path that names lead to from a directory. -/
def below (dir : Path) (names : List Name) : Path := names.foldl (fun p name => p.join ⟨name⟩) dir

@[simp] theorem below_nil (dir : Path) : dir.below [] = dir := rfl

@[simp] theorem below_cons (dir : Path) (name : Name) (names : List Name) :
    dir.below (name :: names) = (dir.join ⟨name⟩).below names := rfl

theorem below_append (dir : Path) (names more : List Name) :
    dir.below (names ++ more) = (dir.below names).below more := List.foldl_append

theorem below_concat (dir : Path) (names : List Name) (name : Name) :
    dir.below (names ++ [name]) = (dir.below names).join ⟨name⟩ := below_append ..

/-- Behind a name there is one separator. -/
theorem front_join (h : name.Plain) :
    (dir.join ⟨name⟩).front = (dir.join ⟨name⟩).bytes ++ [separator] := by
  have hlast : name.getLast? ≠ some separator := fun heq =>
    h.no_separator (List.mem_of_getLast? heq)
  rw [join_eq (isAbsolute_of_no_separator h.no_separator), front,
    if_neg (by simp [h.ne_nil, List.getLast?_append, hlast])]

theorem no_separator_head (hnames : ∀ n ∈ name :: names, n.Plain) :
    isAbsolute ⟨Text.join [separator] (name :: names)⟩ = false := by
  have hname := hnames name List.mem_cons_self
  obtain ⟨c, r, rfl⟩ := List.exists_cons_of_ne_nil hname.ne_nil
  have hc : c ≠ separator := fun heq => hname.no_separator (heq ▸ List.mem_cons_self)
  simpa [isAbsolute, Text.join] using hc

/-- Names are joined one after another as they are joined with separators between them. -/
theorem below_eq_join (hne : names ≠ []) (hnames : ∀ n ∈ names, n.Plain) :
    dir.below names = dir.join ⟨Text.join [separator] names⟩ := by
  induction names generalizing dir with
  | nil => exact absurd rfl hne
  | cons name rest ih =>
    cases rest with
    | nil => rw [Text.join_singleton, below_cons, below_nil]
    | cons next rest =>
      have hrest : ∀ n ∈ next :: rest, n.Plain := fun n hn => hnames n (List.mem_cons_of_mem _ hn)
      have hname := hnames name List.mem_cons_self
      rw [below_cons, ih (List.cons_ne_nil next rest) hrest, join_eq (no_separator_head hrest),
        front_join hname, join_eq (isAbsolute_of_no_separator hname.no_separator),
        join_eq (no_separator_head hnames), Text.join_cons_cons]
      simp

/-- **The pieces below a directory** are the directory's, and then one for each name. -/
theorem pieces_below (hne : names ≠ []) (hnames : ∀ n ∈ names, n.Plain) (dir : Path) :
    ∃ pieces, Solid pieces ∧ (dir.pieces = pieces ∨ dir.pieces = pieces ++ [(none, [])]) ∧
      (dir.below names).pieces = pieces ++ names.map namePiece := by
  induction names generalizing dir with
  | nil => exact absurd rfl hne
  | cons name rest ih =>
    obtain ⟨pieces, hsolid, hdir, hjoin⟩ := pieces_join (hnames name List.mem_cons_self) dir
    refine ⟨pieces, hsolid, hdir, ?_⟩
    cases rest with
    | nil => exact hjoin
    | cons next rest =>
      obtain ⟨pieces', -, hdir', hbelow⟩ := ih (List.cons_ne_nil next rest)
        (fun n hn => hnames n (List.mem_cons_of_mem _ hn)) (dir.join ⟨name⟩)
      -- the path of a directory that is a name has no empty piece at its end
      have hpieces : pieces' = pieces ++ [namePiece name] := by
        obtain heq | heq := hdir'
        · rw [← heq, hjoin]
        · rw [hjoin, namePiece] at heq
          have := List.append_inj_right' heq rfl
          simp at this
      rw [below_cons, hbelow, hpieces, List.append_assoc]
      rfl

theorem components_below (hnames : ∀ n ∈ names, n.Plain) (dir : Path) :
    (dir.below names).components = dir.components ++ names.map .name := by
  by_cases hne : names = []
  · simp [hne]
  · obtain ⟨pieces, -, hdir, hbelow⟩ := pieces_below hne hnames dir
    have hmap : (names.map namePiece).filterMap (·.1) = names.map .name := by
      rw [List.filterMap_map, ← List.filterMap_eq_map]
      rfl
    unfold components
    rw [hbelow, List.filterMap_append, hmap]
    obtain heq | heq := hdir
    · rw [heq]
    · rw [heq, List.filterMap_append]
      simp

/-- Different names lead to different components. -/
theorem eq_of_components_below_eq {others : List Name} (hnames : ∀ n ∈ names, n.Plain)
    (hothers : ∀ n ∈ others, n.Plain)
    (h : (dir.below names).components = (dir.below others).components) : names = others := by
  rw [components_below hnames, components_below hothers] at h
  exact (List.map_inj_right fun _ _ => Component.name.inj).mp (List.append_cancel_left h)

theorem components_join (hname : name.Plain) (dir : Path) :
    (dir.join ⟨name⟩).components = dir.components ++ [.name name] := by
  have hnames : ∀ n ∈ [name], n.Plain := by simpa using hname
  exact components_below hnames dir

theorem fileName?_join (hname : name.Plain) (dir : Path) :
    (dir.join ⟨name⟩).fileName? = some name := by
  rw [fileName?, components_join hname, List.getLast?_concat]

/-! ## Cutting the directory off -/

theorem Solid.dropWhile_eq {pieces : List (Option Component × Name)} (h : Solid pieces) :
    pieces.dropWhile (·.1.isNone) = pieces := by
  cases pieces with
  | nil => rfl
  | cons piece rest =>
    obtain ⟨c, hc⟩ := Option.isSome_iff_exists.mp (h piece rfl)
    simp [hc]

/-- Behind the components of some pieces stand only pieces without a component, and then the
others. -/
theorem dropComponents_append {more : List (Option Component × Name)} (hmore : Solid more)
    (pieces : List (Option Component × Name)) :
    (dropComponents (pieces.filterMap (·.1)).length (pieces ++ more)).dropWhile (·.1.isNone) =
      more := by
  induction pieces with
  | nil =>
    rw [List.filterMap_nil, List.length_nil, List.nil_append, dropComponents]
    exact hmore.dropWhile_eq
  | cons piece rest ih =>
    obtain ⟨component, text⟩ := piece
    cases component with
    | some c => simpa [dropComponents] using ih
    | none =>
      cases hlen : (rest.filterMap (·.1)).length with
      | zero =>
        rw [hlen] at ih
        simpa [dropComponents, hlen] using ih
      | succ n =>
        rw [hlen] at ih
        simpa [dropComponents, hlen] using ih

theorem solid_namePieces (names : List Name) : Solid (names.map namePiece) := by
  cases names with
  | nil => simp [Solid]
  | cons name rest =>
    rintro _ ⟨rfl⟩
    rfl

theorem trimEnd_namePieces (names : List Name) :
    trimEnd (names.map namePiece) = names.map namePiece := by
  rw [trimEnd, ← List.map_reverse, (solid_namePieces _).dropWhile_eq, List.map_reverse,
    List.reverse_reverse]

theorem spell_namePieces (names : List Name) :
    spell (names.map namePiece) = Text.join [separator] names := by
  unfold spell
  split
  · next heq => cases names <;> simp [namePiece] at heq
  · rw [List.map_map]
    exact congrArg (Text.join [separator]) (List.map_id names)

/-- **Cutting off.** The directory cut off a path below it leaves the names, with separators
between them. -/
theorem within?_below (hne : names ≠ []) (hnames : ∀ n ∈ names, n.Plain) (dir : Path) :
    (dir.below names).within? dir = some ⟨Text.join [separator] names⟩ := by
  obtain ⟨pieces, hsolid, hdir, hbelow⟩ := pieces_below hne hnames dir
  have hcomponents : dir.components = pieces.filterMap (·.1) := by
    obtain heq | heq := hdir
    · rw [components, heq]
    · rw [components, heq, List.filterMap_append]
      simp
  have hprefix : dir.components.isPrefixOf (dir.below names).components = true := by
    rw [List.isPrefixOf_iff_prefix, components_below hnames]
    exact List.prefix_append ..
  unfold within?
  dsimp only
  rw [if_pos hprefix, hbelow, hcomponents]
  cases pieces with
  | nil =>
    rw [if_pos (by rfl), List.nil_append, trimEnd_namePieces, spell_namePieces]
  | cons piece rest =>
    obtain ⟨c, hc⟩ := Option.isSome_iff_exists.mp (hsolid piece rfl)
    rw [if_neg (by simp [hc]), dropComponents_append (solid_namePieces names),
      trimEnd_namePieces, spell_namePieces]

theorem join_ne_nil (hne : names ≠ []) (hnames : ∀ n ∈ names, n.Plain) :
    Text.join [separator] names ≠ [] := by
  obtain ⟨name, rest, rfl⟩ := List.exists_cons_of_ne_nil hne
  simp [Text.join, (hnames name List.mem_cons_self).ne_nil]

/-- **The name that is shown** for a path below a directory is what is left behind the directory:
the names that lead there, with separators between them. -/
theorem displayName_below (hne : names ≠ []) (hnames : ∀ n ∈ names, n.Plain) (dir : Path) :
    (dir.below names).displayName (some dir) = shown ⟨Text.join [separator] names⟩ := by
  obtain ⟨b, r, hcons⟩ := List.exists_cons_of_ne_nil (join_ne_nil hne hnames)
  rw [displayName, Option.bind_some, within?_below hne hnames, hcons]

end Path

end Conformance
