import Conformance.Files.Lookup
import Conformance.Proofs.Path.Below

/-!
# Proper trees

In a proper tree the entries of a directory have different names, and every name can stand in a
path.  Two trees agree if they have the same nodes at the same places, whatever the order in which
they enumerate them.
-/

namespace Conformance

open FileSystem

/-- A name that a directory can hold. -/
structure Name.IsEntryName (n : Name) : Prop extends n.Plain where
  short : n.length ≤ nameLimit

instance (n : Name) : Decidable n.IsEntryName :=
  decidable_of_iff (n ≠ [] ∧ Path.separator ∉ n ∧ n ≠ .current ∧ n ≠ .parent ∧
    n.length ≤ nameLimit)
    ⟨fun ⟨hnil, hsep, hcurrent, hparent, hshort⟩ => ⟨⟨hnil, hsep, hcurrent, hparent⟩, hshort⟩,
      fun ⟨⟨hnil, hsep, hcurrent, hparent⟩, hshort⟩ => ⟨hnil, hsep, hcurrent, hparent, hshort⟩⟩

mutual

/-- The names in a directory are different, and so on below it. -/
def Node.Proper : Node → Prop
  | .directory _ es => es.names.Nodup ∧ es.Proper
  | _ => True

/-- The names can stand in paths, and the nodes are proper. -/
def Entries.Proper : Entries → Prop
  | .nil => True
  | .cons name node rest => name.IsEntryName ∧ node.Proper ∧ rest.Proper

end

/-! ## Looking up names -/

namespace Entries

variable {name : Name} {node : Node}

theorem mem_toList_of_find? :
    ∀ {es : Entries}, es.find? name = some node → (name, node) ∈ es.toList
  | .nil, h => by simp [find?] at h
  | .cons n x rest, h => by
    rw [find?] at h
    split at h
    · next heq =>
      cases h
      exact heq ▸ List.mem_cons_self
    · exact List.mem_cons_of_mem _ (mem_toList_of_find? h)

theorem mem_names_of_find? {es : Entries} (h : es.find? name = some node) : name ∈ es.names :=
  List.mem_map.mpr ⟨(name, node), mem_toList_of_find? h, rfl⟩

/-- Where the names are different, every entry is found under its name. -/
theorem find?_of_mem_toList :
    ∀ {es : Entries}, es.names.Nodup → (name, node) ∈ es.toList → es.find? name = some node
  | .nil, _, h => by simp [toList] at h
  | .cons n x rest, hnodup, h => by
    obtain ⟨hn, hrest⟩ := List.nodup_cons.mp hnodup
    rcases List.mem_cons.mp h with heq | hmem
    · cases heq
      rw [find?, if_pos rfl]
    · have hne : n ≠ name := fun heq => hn (List.mem_map.mpr ⟨_, hmem, heq.symm⟩)
      rw [find?, if_neg hne]
      exact find?_of_mem_toList hrest hmem

theorem Proper.of_mem :
    ∀ {es : Entries}, es.Proper → (name, node) ∈ es.toList → name.IsEntryName ∧ node.Proper
  | .nil, _, h => by simp [toList] at h
  | .cons n x rest, ⟨hname, hnode, hrest⟩, h => by
    rcases List.mem_cons.mp h with heq | hmem
    · cases heq
      exact ⟨hname, hnode⟩
    · exact Proper.of_mem hrest hmem

end Entries

namespace Node

/-- Whether a node is a symbolic link. -/
def isLink : Node → Bool
  | link _ => true
  | _ => false

variable {n m : Node} {access : Access} {es : Entries} {name : Name} {names : List Name}

@[simp] theorem at?_nil (n : Node) : n.at? [] = some n := by cases n <;> rfl

theorem at?_directory_cons (access : Access) (es : Entries) (name : Name) (rest : List Name) :
    (directory access es).at? (name :: rest) = (es.find? name).bind (at? rest) := rfl

theorem at?_append (n : Node) (names more : List Name) :
    n.at? (names ++ more) = (n.at? names).bind (at? more) := by
  induction names generalizing n with
  | nil => rw [List.nil_append, at?_nil, Option.bind_some]
  | cons name rest ih =>
    cases n with
    | directory access es =>
      rw [List.cons_append, at?_directory_cons, at?_directory_cons, Option.bind_assoc]
      exact congrArg _ (funext ih)
    | _ => rfl

/-- What is reached by one more name is an entry of the directory that was reached before. -/
theorem at?_concat_eq_some_iff :
    n.at? (names ++ [name]) = some m ↔
      ∃ access es, n.at? names = some (directory access es) ∧ es.find? name = some m := by
  rw [at?_append, Option.bind_eq_some_iff]
  refine ⟨fun ⟨x, hx, hm⟩ => ?_, fun ⟨access, es, hes, hm⟩ => ⟨_, hes, ?_⟩⟩
  · cases x with
    | directory access es =>
      rw [at?_directory_cons] at hm
      obtain ⟨y, hy, hm⟩ := Option.bind_eq_some_iff.mp hm
      exact ⟨access, es, hx, by rwa [← hm, at?_nil]⟩
    | _ => simp [at?] at hm
  · rw [at?_directory_cons, hm, Option.bind_some, at?_nil]

/-- What is reached in a proper tree is proper, and it is reached by names. -/
theorem Proper.at? (hn : n.Proper) (h : n.at? names = some m) :
    m.Proper ∧ ∀ name ∈ names, name.IsEntryName := by
  induction names generalizing n with
  | nil =>
    rw [at?_nil] at h
    cases h
    exact ⟨hn, by simp⟩
  | cons name rest ih =>
    cases n with
    | directory access es =>
      rw [at?_directory_cons] at h
      obtain ⟨x, hx, hm⟩ := Option.bind_eq_some_iff.mp h
      obtain ⟨hname, hproper⟩ := Entries.Proper.of_mem hn.2 (Entries.mem_toList_of_find? hx)
      obtain ⟨hm, hrest⟩ := ih hproper hm
      exact ⟨hm, List.forall_mem_cons.mpr ⟨hname, hrest⟩⟩
    | _ => simp [Node.at?] at h

/-! ## Agreement -/

/-- What a node is, apart from the entries of a directory. -/
def label : Node → Node
  | directory access _ => directory access .nil
  | n => n

/-- Two trees have the same nodes at the same places. -/
def Agrees (n m : Node) : Prop := ∀ names, (n.at? names).map label = (m.at? names).map label

theorem Agrees.symm (h : n.Agrees m) : m.Agrees n := fun names => (h names).symm

theorem Agrees.at? {x : Node} (h : n.Agrees m) (hx : n.at? names = some x) :
    ∃ y, m.at? names = some y ∧ x.Agrees y := by
  have hlabel := h names
  rw [hx] at hlabel
  obtain ⟨y, hy, -⟩ := Option.map_eq_some_iff.mp hlabel.symm
  refine ⟨y, hy, fun more => ?_⟩
  have hmore := h (names ++ more)
  rwa [at?_append, at?_append, hx, hy] at hmore

theorem Agrees.label_eq (h : n.Agrees m) : n.label = m.label := by
  have hnil := h []
  rwa [at?_nil, at?_nil, Option.map_some, Option.map_some, Option.some.injEq] at hnil

/-- The order in which a directory is enumerated does not matter. -/
theorem agrees_of_perm {es' : Entries} (hnodup : es.names.Nodup)
    (h : es.toList.Perm es'.toList) :
    Agrees (.directory access es) (.directory access es') := by
  have hnodup' : es'.names.Nodup := (h.map _).nodup_iff.mp hnodup
  have hfind : ∀ name, es.find? name = es'.find? name := fun name => by
    refine Option.ext fun node => ⟨fun hnode => ?_, fun hnode => ?_⟩
    · exact Entries.find?_of_mem_toList hnodup'
        (h.mem_iff.mp (Entries.mem_toList_of_find? hnode))
    · exact Entries.find?_of_mem_toList hnodup
        (h.mem_iff.mpr (Entries.mem_toList_of_find? hnode))
  intro names
  cases names with
  | nil => rfl
  | cons name rest => rw [at?_directory_cons, at?_directory_cons, hfind]

/-- Nodes with one label are equal, or both are directories of which the user may make the same
use. -/
theorem eq_or_directory_of_label_eq (h : n.label = m.label) :
    n = m ∨ ∃ access es es', n = directory access es ∧ m = directory access es' := by
  cases n with
  | directory access es =>
    cases m with
    | directory access' es' =>
      obtain rfl : access = access' := (Node.directory.inj h).1
      exact .inr ⟨access, es, es', rfl, rfl⟩
    | _ => exact nomatch h
  | _ =>
    cases m with
    | directory access' es' => exact nomatch h
    | _ => exact .inl h

/-- A tree that agrees with a directory is one. -/
theorem Agrees.directory (h : (directory access es).Agrees m) :
    ∃ es', m = .directory access es' := by
  obtain rfl | ⟨_, _, es', heq, rfl⟩ := eq_or_directory_of_label_eq h.label_eq
  · exact ⟨es, rfl⟩
  · obtain ⟨rfl, -⟩ := Node.directory.inj heq
    exact ⟨es', rfl⟩

/-- Directories that agree have the same names for the same things. -/
theorem Agrees.find?_label {es' : Entries}
    (h : Agrees (.directory access es) (.directory access es')) (name : Name) :
    (es.find? name).map label = (es'.find? name).map label := by
  have hname := h [name]
  rwa [at?_directory_cons, at?_directory_cons, funext at?_nil, Option.bind_fun_some,
    Option.bind_fun_some] at hname

/-- What one of two directories that agree holds under a name, the other holds as well. -/
theorem Agrees.find? {es' : Entries} {x : Node}
    (h : Agrees (.directory access es) (.directory access es')) (hx : es.find? name = some x) :
    ∃ y, es'.find? name = some y ∧ x.Agrees y := by
  have hat : (Node.directory access es).at? ([] ++ [name]) = some x :=
    at?_concat_eq_some_iff.mpr ⟨access, es, at?_nil _, hx⟩
  obtain ⟨y, hy, hxy⟩ := h.at? hat
  obtain ⟨access', es'', hes, hfind⟩ := at?_concat_eq_some_iff.mp hy
  rw [at?_nil] at hes
  cases hes
  exact ⟨y, hfind, hxy⟩

theorem Agrees.isFile_eq (h : n.Agrees m) : n.isFile = m.isFile := by
  obtain rfl | ⟨_, es, es', rfl, rfl⟩ := eq_or_directory_of_label_eq h.label_eq <;> rfl

end Node

end Conformance
