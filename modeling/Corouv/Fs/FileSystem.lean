import Corouv.Base

/-!
# A file system

Directories, regular files and symbolic links, each at its place in one tree.
-/

namespace Corouv.Fs

abbrev Name := Bytes

/-- The place of an entry: the names that lead to it from the root. -/
abbrev Location := List Name

inductive Node where
  | directory
  | file (contents : Bytes)
  | link (target : Bytes)
  deriving DecidableEq, Repr

def slash : UInt8 := 47

/-- A name that a directory can hold. -/
def IsName (name : Name) : Prop :=
  name ≠ [] ∧ name ≠ ascii "." ∧ name ≠ ascii ".." ∧ slash ∉ name

instance (name : Name) : Decidable (IsName name) :=
  inferInstanceAs (Decidable (_ ∧ _))

structure Entry where
  parent : Location
  name : Name
  node : Node
  deriving DecidableEq, Repr

def Entry.location (entry : Entry) : Location :=
  entry.parent ++ [entry.name]

/-- All entries below the root.  Every one of them stands in a directory. -/
structure FileSystem where
  entries : List Entry
  nodup : (entries.map Entry.location).Nodup
  names : ∀ entry ∈ entries, IsName entry.name
  rooted : ∀ entry ∈ entries, entry.parent = [] ∨
    ∃ holder ∈ entries, holder.location = entry.parent ∧ holder.node = .directory

namespace FileSystem

variable {fs : FileSystem} {location : Location} {name : Name}

def node (fs : FileSystem) (location : Location) : Option Node :=
  if location = [] then some .directory
  else (fs.entries.find? fun entry => entry.location = location).map Entry.node

/-- The names in a directory, in the order in which they are stored. -/
def children (fs : FileSystem) (location : Location) : List Name :=
  (fs.entries.filter fun entry => entry.parent = location).map Entry.name

theorem Entry.location_ne_nil (entry : Entry) : entry.location ≠ [] := by
  simp [Entry.location]

theorem node_of_mem {entry : Entry} (mem : entry ∈ fs.entries) :
    fs.node entry.location = some entry.node := by
  have found : fs.entries.find? (fun other => other.location = entry.location) = some entry := by
    rcases List.append_of_mem mem with ⟨before, _, split⟩
    have distinct := fs.nodup
    rw [split] at distinct ⊢
    simp only [List.map_append, List.map_cons, List.nodup_append, List.mem_map,
      List.mem_cons] at distinct
    rw [List.find?_append]
    have earlier : before.find? (fun other => other.location = entry.location) = none := by
      simp only [List.find?_eq_none, decide_eq_true_eq]
      intro other otherMem same
      exact distinct.2.2 other.location ⟨other, otherMem, rfl⟩ entry.location (.inl rfl) same
    simp [earlier]
  rw [node, if_neg (Entry.location_ne_nil entry), found]
  rfl

theorem exists_entry {found : Node} (present : fs.node location = some found)
    (proper : location ≠ []) :
    ∃ entry ∈ fs.entries, entry.location = location ∧ entry.node = found := by
  rw [node, if_neg proper] at present
  rcases Option.map_eq_some_iff.mp present with ⟨entry, search, rfl⟩
  exact ⟨entry, List.mem_of_find?_eq_some search, by simpa using List.find?_some search, rfl⟩

theorem mem_children : name ∈ fs.children location ↔
    (fs.node (location ++ [name])).isSome = true := by
  constructor
  · intro mem
    rcases List.mem_map.mp mem with ⟨entry, filtered, rfl⟩
    rcases List.mem_filter.mp filtered with ⟨entryMem, here⟩
    have place : entry.location = location ++ [entry.name] := by
      simp only [decide_eq_true_eq] at here
      rw [← here, Entry.location]
    rw [← place, node_of_mem entryMem]
    rfl
  · intro present
    rcases Option.isSome_iff_exists.mp present with ⟨_, present⟩
    rcases exists_entry present (by simp) with ⟨entry, mem, place, -⟩
    have split := List.append_inj' place rfl
    apply List.mem_map.mpr
    refine ⟨entry, List.mem_filter.mpr ⟨mem, ?_⟩, ?_⟩
    · simpa using split.1
    · simpa using split.2

theorem isName_of_mem_children (mem : name ∈ fs.children location) : IsName name := by
  rcases List.mem_map.mp mem with ⟨entry, filtered, rfl⟩
  exact fs.names entry (List.mem_filter.mp filtered).1

theorem directory_of_child (present : (fs.node (location ++ [name])).isSome = true) :
    fs.node location = some .directory := by
  rcases Option.isSome_iff_exists.mp present with ⟨_, present⟩
  rcases exists_entry present (by simp) with ⟨entry, mem, place, -⟩
  have split := List.append_inj' place rfl
  rcases fs.rooted entry mem with top | ⟨_, holderMem, here, isDirectory⟩
  · rw [← split.1, top]
    rfl
  · rw [← split.1, ← here, node_of_mem holderMem, isDirectory]

theorem children_eq_nil (other : fs.node location ≠ some .directory) :
    fs.children location = [] := by
  apply List.eq_nil_iff_forall_not_mem.mpr
  intro _ mem
  exact other (directory_of_child (mem_children.mp mem))

/-- The file system without an entry that holds no other. -/
def remove (fs : FileSystem) (location : Location) (childless : fs.children location = []) :
    FileSystem where
  entries := fs.entries.filter fun entry => entry.location ≠ location
  nodup := fs.nodup.sublist (List.filter_sublist.map _)
  names := fun entry mem => fs.names entry (List.mem_filter.mp mem).1
  rooted := by
    intro entry mem
    have old := (List.mem_filter.mp mem).1
    rcases fs.rooted entry old with top | ⟨holder, holderMem, here, isDirectory⟩
    · exact .inl top
    · refine .inr ⟨holder, List.mem_filter.mpr ⟨holderMem, ?_⟩, here, isDirectory⟩
      simp only [ne_eq, decide_not, Bool.not_eq_true', decide_eq_false_iff_not]
      intro removed
      have child : entry.name ∈ fs.children location := by
        apply List.mem_map.mpr
        refine ⟨entry, List.mem_filter.mpr ⟨old, ?_⟩, rfl⟩
        simpa using here.symm.trans removed
      rw [childless] at child
      cases child

theorem node_remove {childless : fs.children location = []} (proper : location ≠ [])
    (other : Location) :
    (fs.remove location childless).node other =
      if other = location then none else fs.node other := by
  by_cases top : other = []
  · subst top
    rw [if_neg (Ne.symm proper)]
    rfl
  · simp only [node, if_neg top, remove, List.find?_filter]
    by_cases here : other = location
    · subst here
      simp
    · rw [if_neg here]
      congr 2
      funext entry
      by_cases same : entry.location = other
      · simp [same, here]
      · simp [same]

end FileSystem

/-- What is in the smaller file system is in the larger one, too. -/
def FileSystem.Within (small large : FileSystem) : Prop :=
  ∀ location node, small.node location = some node → large.node location = some node

theorem FileSystem.Within.refl (fs : FileSystem) : fs.Within fs :=
  fun _ _ present => present

theorem FileSystem.Within.trans {first second third : FileSystem} (one : first.Within second)
    (two : second.Within third) : first.Within third :=
  fun location node present => two location node (one location node present)

end Corouv.Fs
