import Mathlib.Algebra.Order.BigOperators.Group.List
import Corouv.Fs.Calls
import Corouv.Library.Commands

/-!
# `remove_all`

The function looks at every entry through `access` and `stat`, which follow links.  A
link to a directory is therefore entered like a directory, wherever it leads, and a
link that leads nowhere is taken for a path that does not exist.
-/

namespace Corouv.Fs

open Library

/-- `remove_all`, cut off at a depth of recursion. -/
def removeAll (host : Host) (order : ReadOrder) : ℕ → Bytes → Task FileSystem Unit
  | 0, _ => throw .exhausted
  | depth + 1, path => do
      if !(← pathExists host path) then return
      let node ← stat host path
      if node ≠ .directory then
        removeFile host path
      else
        let remaining ← openDirectory host order path
        (readAll 32 remaining).forM fun name => removeAll host order depth (joinPath path name)
        removeDirectory host path

/-- Nothing that is not beneath the path is touched, and the path is gone if the function
returns, in whatever order the directories are read. -/
structure RemovesOnly (host : Host) (fs : FileSystem) (path : Bytes) : Prop where
  contained : ∀ order depth location, ¬host.Beneath fs path location →
    (endState ((removeAll host order depth path).run fs)).node location = fs.node location
  gone : ∀ order depth fs', (removeAll host order depth path).run fs = .ok () fs' →
    ¬host.Exists fs' path

/-- The pathnames below `path` that lead from directory to directory, through links. -/
inductive Traversed (host : Host) (fs : FileSystem) (path : Bytes) : Bytes → Prop
  | start : Traversed host fs path path
  | child {base : Bytes} {name : Name} {above : ℕ × Location}
      (earlier : Traversed host fs path base) (resolved : host.resolve fs base = some above)
      (isDirectory : fs.node above.2 = some .directory) (mem : name ∈ fs.children above.2) :
      Traversed host fs path (joinPath base name)

/-- An empty directory, or something that is not a directory and no link to one. -/
def Removable (host : Host) (fs : FileSystem) (path : Bytes) (location : Location) : Prop :=
  (fs.node location = some .directory ∧ fs.children location = []) ∨
    ∃ reached, host.resolve fs path = some reached ∧ fs.node reached.2 ≠ some .directory

/-- A directory that is entered on the way down from `path` holds an entry that is not
beneath `path` and that can be removed. -/
def Escapes (host : Host) (fs : FileSystem) (path : Bytes) : Prop :=
  ∃ base name above, Traversed host fs path base ∧ host.resolve fs base = some above ∧
    name ∈ fs.children above.2 ∧ ¬host.Beneath fs path (above.2 ++ [name]) ∧
    Removable host fs (joinPath base name) (above.2 ++ [name])

/-- A link that cannot be followed. -/
def Dangles (host : Host) (fs : FileSystem) (path : Bytes) : Prop :=
  host.Exists fs path ∧ host.resolve fs path = none

section Call

variable {host : Host} {order : ReadOrder} {fs : FileSystem} {path : Bytes}

theorem removeAll_of_missing (depth : ℕ) (missing : host.resolve fs path = none) :
    (removeAll host order (depth + 1) path).run fs = .ok () fs := by
  simp [removeAll, pathExists, missing]

variable {reached : ℕ × Location}

theorem removeAll_of_other (depth : ℕ) {node : Node}
    (resolved : host.resolve fs path = some reached) (present : fs.node reached.2 = some node)
    (other : node ≠ .directory) :
    (removeAll host order (depth + 1) path).run fs = (removeFile host path).run fs := by
  have stated : (stat host path).run fs = .ok node fs := by
    simp [EStateM.run, stat, resolved, present]
  simp [removeAll, pathExists, resolved, stated, other]

theorem removeAll_of_directory (depth : ℕ) (resolved : host.resolve fs path = some reached)
    (isDirectory : fs.node reached.2 = some .directory) :
    (removeAll host order (depth + 1) path).run fs =
      ((order.arrange path (fs.children reached.2)).forM (fun name =>
        removeAll host order depth (joinPath path name)) >>= fun _ =>
          removeDirectory host path).run fs := by
  have stated : (stat host path).run fs = .ok .directory fs := by
    simp [EStateM.run, stat, resolved, isDirectory]
  have opened : (openDirectory host order path).run fs =
      .ok (order.arrange path (fs.children reached.2)) fs := by
    simp [EStateM.run, openDirectory, resolved, isDirectory]
  simp [removeAll, pathExists, resolved, stated, opened, readAll_eq]

end Call

/-- What the calls on the pathnames visited preserve, `remove_all` preserves. -/
theorem preserves_removeAll {host : Host} (order : ReadOrder) {invariant : FileSystem → Prop}
    (visited : Bytes → Prop)
    (down : ∀ {base name fs reached}, visited base → invariant fs →
      host.resolve fs base = some reached → fs.node reached.2 = some .directory →
      name ∈ fs.children reached.2 → visited (joinPath base name))
    (file : ∀ {path fs reached}, visited path → invariant fs →
      host.resolve fs path = some reached → fs.node reached.2 ≠ some .directory →
      invariant (endState ((removeFile host path).run fs)))
    (directory : ∀ {path}, visited path → Preserves invariant (removeDirectory host path))
    (depth : ℕ) {path : Bytes} (here : visited path) :
    Preserves invariant (removeAll host order depth path) := by
  induction depth generalizing path with
  | zero => exact fun _ holds => holds
  | succ depth ih =>
      intro fs holds
      cases resolved : host.resolve fs path with
      | none =>
          rw [removeAll_of_missing depth resolved]
          exact holds
      | some reached =>
          by_cases isDirectory : fs.node reached.2 = some .directory
          · rw [removeAll_of_directory depth resolved isDirectory]
            apply preserves_bind _ (fun _ => directory here) fs holds
            apply preserves_forM
            intro _ mem
            apply ih
            exact down here holds resolved isDirectory ((order.perm _ _).mem_iff.mp mem)
          · rcases Option.isSome_iff_exists.mp (Host.resolve_present resolved) with ⟨_, present⟩
            rw [removeAll_of_other depth resolved present]
            · exact file here holds resolved isDirectory
            · rintro rfl
              exact isDirectory present

section Termination

variable {host : Host} {fs : FileSystem}

/-- How deep the recursion can still go: every level uses up a link or goes one level
down in a tree of bounded height. -/
def descent (height : ℕ) (reached : ℕ × Location) : ℕ :=
  reached.1 * (height + 1) + (height - reached.2.length)

/-- No location is longer. -/
def FileSystem.HeightLe (fs : FileSystem) (height : ℕ) : Prop :=
  ∀ location, (fs.node location).isSome = true → location.length ≤ height

theorem FileSystem.exists_heightLe (fs : FileSystem) : ∃ height, fs.HeightLe height := by
  refine ⟨(fs.entries.map fun entry => entry.location.length).sum, ?_⟩
  intro location present
  by_cases top : location = []
  · subst top
    exact Nat.zero_le _
  · rcases Option.isSome_iff_exists.mp present with ⟨_, present⟩
    rcases FileSystem.exists_entry present top with ⟨entry, mem, rfl, -⟩
    exact List.single_le_sum (fun _ _ => Nat.zero_le _) _ (List.mem_map.mpr ⟨entry, mem, rfl⟩)

variable {height : ℕ} {large : FileSystem} {path : Bytes}

theorem descent_lt {above reached : ℕ × Location} {name : Name} (low : fs.HeightLe height)
    (isName : IsName name) (found : walk fs above.1 above.2 [name] = some reached)
    (present : (fs.node reached.2).isSome = true) :
    descent height reached < descent height above := by
  have short := low reached.2 present
  rcases walk_name (not_isSpecial_of_isName isName) found with rfl | fewer
  · simp only [descent, List.length_append, List.length_singleton] at short ⊢
    omega
  · have product : (reached.1 + 1) * (height + 1) ≤ above.1 * (height + 1) :=
      Nat.mul_le_mul_right _ fewer
    simp only [descent]
    rw [Nat.add_mul] at product
    omega

theorem keeps_removal {command : Task FileSystem Unit} {parts : FileSystem → List Bytes}
    {removable : FileSystem → Location → Prop}
    (spec : ∀ fs, Removal host fs path (parts fs) (removable fs) (command.run fs)) :
    Keeps (FileSystem.Within · large) (· ≠ .exhausted) command := by
  intro fs within
  have done := spec fs
  generalize command.run fs = result at done
  cases done with
  | refused other => exact other
  | removed _ _ rest => exact (within_of_removed rest).trans within

/-- `remove_all` only removes, and enough depth is never used up. -/
theorem keeps_removeAll (low : large.HeightLe height) (order : ReadOrder) (depth : ℕ)
    (enough : ∀ reached, host.resolve large path = some reached →
      descent height reached + 1 < depth) (positive : 0 < depth) :
    Keeps (FileSystem.Within · large) (· ≠ .exhausted) (removeAll host order depth path) := by
  induction depth generalizing path with
  | zero => omega
  | succ depth ih =>
      intro fs within
      cases resolved : host.resolve fs path with
      | none =>
          rw [removeAll_of_missing depth resolved]
          exact within
      | some reached =>
          have bound := enough reached (Host.resolve_within within resolved)
          by_cases isDirectory : fs.node reached.2 = some .directory
          · rw [removeAll_of_directory depth resolved isDirectory]
            apply keeps_bind _ (fun _ => keeps_removal (removeDirectory_spec host path)) fs within
            apply keeps_forM
            intro name listed
            have mem := (order.perm _ _).mem_iff.mp listed
            have isName := FileSystem.isName_of_mem_children mem
            have above := Host.resolve_within within resolved
            have found := Host.resolve_joinPath isName above (within _ _ isDirectory)
            apply ih
            · intro below resolved'
              have smaller := descent_lt low isName (found.symm.trans resolved')
                (Host.resolve_present resolved')
              omega
            · omega
          · rcases Option.isSome_iff_exists.mp (Host.resolve_present resolved) with ⟨node, present⟩
            have other : node ≠ .directory := by
              rintro rfl
              exact isDirectory present
            rw [removeAll_of_other depth resolved present other]
            exact keeps_removal (removeFile_spec host path) fs within

/-- `remove_all` comes to an end on every file system, also where links lead back up. -/
theorem removeAll_ne_exhausted (host : Host) (fs : FileSystem) (path : Bytes) :
    ∃ bound, ∀ order depth, bound ≤ depth → ∀ fs',
      (removeAll host order depth path).run fs ≠ .error .exhausted fs' := by
  rcases fs.exists_heightLe with ⟨height, low⟩
  refine ⟨(host.resolve fs path).elim 0 (descent height) + 2, ?_⟩
  intro order depth large _ cutOff
  have enough : ∀ reached, host.resolve fs path = some reached →
      descent height reached + 1 < depth := by
    intro reached resolved
    rw [resolved, Option.elim_some] at large
    omega
  have keeps := keeps_removeAll low order depth enough (by omega) fs (FileSystem.Within.refl fs)
  rw [cutOff] at keeps
  exact keeps rfl

end Termination

section Containment

variable {host : Host} {fs fs' : FileSystem} {path : Bytes}

/-- Entries beneath the path may be missing; nothing else has changed. -/
structure Intact (host : Host) (fs : FileSystem) (path : Bytes) (fs' : FileSystem) : Prop where
  within : fs'.Within fs
  outside : ∀ location, ¬host.Beneath fs path location → fs'.node location = fs.node location

variable {location : Location}

theorem Intact.removed {fs'' : FileSystem} (intact : Intact host fs path fs')
    (beneath : host.Beneath fs path location)
    (rest : ∀ other, fs''.node other = if other = location then none else fs'.node other) :
    Intact host fs path fs'' := by
  refine ⟨(within_of_removed rest).trans intact.within, ?_⟩
  intro other apart
  rw [rest, if_neg, intact.outside other apart]
  rintro rfl
  exact apart beneath

theorem Traversed.resolve_path {base : Bytes} {reached : ℕ × Location}
    (traversed : Traversed host fs path base) (resolved : host.resolve fs' base = some reached) :
    ∃ first, host.resolve fs' path = some first := by
  induction traversed generalizing reached with
  | start => exact ⟨reached, resolved⟩
  | child _ found _ mem ih =>
      have nonempty := Host.ne_nil_of_resolve found
      have isName := FileSystem.isName_of_mem_children mem
      rcases Host.base_of_resolve_joinPath isName nonempty resolved with ⟨_, resolved', -⟩
      exact ih resolved'

theorem Host.beneath_of_entry (within : fs'.Within fs)
    (named : host.entry fs' path (segments path) = some location) :
    host.Beneath fs path location := by
  have named' := Host.entry_within within named
  rcases Host.entry_eq_some.mp named' with ⟨_, last, _, _, split, proper, -, -, -⟩
  have ending : (segments path).getLastD [] = last := by simp [split]
  refine ⟨location, ?_, List.prefix_rfl⟩
  rw [Host.locate, ending, if_neg proper]
  exact named'

section

variable {target : Bytes} (confined : ¬Escapes host fs path)
  (traversed : Traversed host fs path target) (intact : Intact host fs path fs')
include confined traversed intact

theorem Intact.removeFile {reached : ℕ × Location}
    (resolved : host.resolve fs' target = some reached)
    (other : fs'.node reached.2 ≠ some .directory) :
    Intact host fs path (endState ((removeFile host target).run fs')) := by
  have spec := removeFile_spec host target fs'
  generalize (Fs.removeFile host target).run fs' = result at spec
  cases spec with
  | refused _ => exact intact
  | @removed _ _ named _ rest =>
      apply intact.removed _ rest
      cases traversed with
      | start => exact Host.beneath_of_entry intact.within named
      | @child base name above earlier found _ mem =>
          have isName := FileSystem.isName_of_mem_children mem
          have nonempty := Host.ne_nil_of_resolve found
          rcases (Host.entry_joinPath isName nonempty).mp named with ⟨_, resolved', -, rfl⟩
          cases (Host.resolve_within intact.within resolved').symm.trans found
          by_contra apart
          apply confined
          refine ⟨base, name, above, earlier, found, mem, apart, .inr ⟨reached, ?_, ?_⟩⟩
          · exact Host.resolve_within intact.within resolved
          · rcases Option.isSome_iff_exists.mp (Host.resolve_present resolved) with ⟨_, present⟩
            rw [intact.within _ _ present]
            rw [present] at other
            exact other

/-- A directory outside does not become empty: at most the path itself could be missing
from it, and the call would then not have come this far. -/
theorem Intact.removeDirectory :
    Intact host fs path (endState ((removeDirectory host target).run fs')) := by
  have spec := removeDirectory_spec host target fs'
  generalize (Fs.removeDirectory host target).run fs' = result at spec
  cases spec with
  | refused _ => exact intact
  | @removed location _ named suited rest =>
      apply intact.removed _ rest
      cases traversed with
      | start =>
          have here := Host.locate_of_trimmed named suited.1
          exact ⟨location, Host.locate_within intact.within here, List.prefix_rfl⟩
      | @child base name above earlier found _ mem =>
          have isName := FileSystem.isName_of_mem_children mem
          have nonempty := Host.ne_nil_of_resolve found
          rw [rdropWhile_segments_joinPath isName nonempty] at named
          rcases (Host.entry_joinPath isName nonempty).mp named with ⟨above', resolved', -, rfl⟩
          cases (Host.resolve_within intact.within resolved').symm.trans found
          by_contra apart
          cases held : fs.children (above.2 ++ [name]) with
          | nil =>
              apply confined
              exact ⟨base, name, above, earlier, found, mem, apart,
                .inl ⟨intact.within _ _ suited.1, held⟩⟩
          | cons child _ =>
              have present : child ∈ fs.children (above.2 ++ [name]) := by
                rw [held]
                exact List.mem_cons_self
              have missing : fs'.node (above.2 ++ [name] ++ [child]) = none := by
                by_contra there
                have still := FileSystem.mem_children.mpr (Option.isSome_iff_ne_none.mpr there)
                rw [suited.2] at still
                cases still
              have beneath : host.Beneath fs path (above.2 ++ [name] ++ [child]) := by
                by_contra outside
                have same := intact.outside _ outside
                rw [missing] at same
                have some := FileSystem.mem_children.mp present
                rw [← same] at some
                cases some
              rcases beneath with ⟨root, located, below⟩
              rcases List.prefix_concat_iff.mp below with whole | above'
              · rcases earlier.resolve_path resolved' with ⟨_, again⟩
                rcases Host.exists_of_resolve again with ⟨_, located', there⟩
                cases (Host.locate_within intact.within located').symm.trans located
                rw [whole, missing] at there
                cases there
              · exact apart ⟨root, located, above'⟩

end

theorem removeAll_intact (confined : ¬Escapes host fs path) (order : ReadOrder) (depth : ℕ) :
    Intact host fs path (endState ((removeAll host order depth path).run fs)) := by
  have kept : Preserves (Intact host fs path) (removeAll host order depth path) := by
    refine preserves_removeAll order (Traversed host fs path) ?_ ?_ ?_ depth .start
    · intro _ _ _ _ traversed intact resolved isDirectory mem
      refine .child traversed (Host.resolve_within intact.within resolved)
        (intact.within _ _ isDirectory) ?_
      rcases Option.isSome_iff_exists.mp (FileSystem.mem_children.mp mem) with ⟨_, present⟩
      apply FileSystem.mem_children.mpr
      rw [intact.within _ _ present]
      rfl
    · intro _ _ _ traversed intact resolved other
      exact intact.removeFile confined traversed resolved other
    · intro _ traversed _ intact
      exact intact.removeDirectory confined traversed
  exact kept fs ⟨FileSystem.Within.refl fs, fun _ _ => rfl⟩

theorem Host.not_exists_of_removed {fs'' : FileSystem} {parts : List Bytes}
    (within : fs''.Within fs') (named : host.entry fs' path parts = some location)
    (missing : fs''.node location = none) (count : ℕ)
    (split : segments path = parts ++ List.replicate count []) : ¬host.Exists fs'' path := by
  rintro ⟨_, located, there⟩
  rcases Host.entry_eq_some.mp named with ⟨_, last, _, _, rfl, proper, walked, -, rfl⟩
  cases count with
  | zero =>
      rw [List.replicate_zero, List.append_nil] at split
      have ending : (segments path).getLastD [] = last := by simp [split]
      rw [Host.locate, ending, if_neg proper, split] at located
      cases (Host.entry_within within located).symm.trans named
      rw [missing] at there
      cases there
  | succ _ =>
      rw [Host.locate, if_pos (isSpecial_of_trailing_slashes split)] at located
      rcases Option.map_eq_some_iff.mp located with ⟨_, resolved, -⟩
      rw [Host.resolve, if_neg (Host.ne_nil_of_resolve resolved), split, List.append_assoc,
        walk_append] at resolved
      rcases Option.bind_eq_some_iff.mp resolved with ⟨_, first, second⟩
      cases (walk_within within first).symm.trans walked
      rw [walk_append] at second
      rcases Option.bind_eq_some_iff.mp second with ⟨_, lookup, -⟩
      have present := (walk_singleton proper lookup).2
      rw [missing] at present
      cases present

/-- What `remove_all` returns from does not exist any more. -/
theorem removeAll_gone {order : ReadOrder} {depth : ℕ} (followed : ¬Dangles host fs path)
    (returned : (removeAll host order depth path).run fs = .ok () fs') : ¬host.Exists fs' path := by
  cases depth with
  | zero => cases returned
  | succ depth =>
      cases resolved : host.resolve fs path with
      | none =>
          rw [removeAll_of_missing depth resolved] at returned
          cases returned
          intro present
          exact followed ⟨present, resolved⟩
      | some reached =>
          by_cases isDirectory : fs.node reached.2 = some .directory
          · rw [removeAll_of_directory depth resolved isDirectory, EStateM.run_bind] at returned
            split at returned
            next value between _ =>
              have spec := removeDirectory_spec host path between
              rw [returned] at spec
              rcases exists_trailing_slashes (segments path) with ⟨count, split⟩
              cases spec with
              | removed named _ rest =>
                  apply Host.not_exists_of_removed (within_of_removed rest) named _ count split
                  rw [rest, if_pos rfl]
            · cases returned
          · rcases Option.isSome_iff_exists.mp (Host.resolve_present resolved) with ⟨node, present⟩
            have other : node ≠ .directory := by
              rintro rfl
              exact isDirectory present
            rw [removeAll_of_other depth resolved present other] at returned
            have spec := removeFile_spec host path fs
            rw [returned] at spec
            cases spec with
            | removed named _ rest =>
                apply Host.not_exists_of_removed (within_of_removed rest) named _ 0 (by simp)
                rw [rest, if_pos rfl]

end Containment

section Escape

variable {host : Host} {fs : FileSystem} {path : Bytes}

def Missing (location : Location) (fs : FileSystem) : Prop :=
  fs.node location = none

variable {location : Location} {base : Bytes}

theorem Missing.removal {parts : List Bytes} {removable : Location → Prop}
    {result : EStateM.Result Exn FileSystem Unit} (missing : Missing location fs)
    (spec : Removal host fs path parts removable result) : Missing location (endState result) := by
  cases spec with
  | refused _ => exact missing
  | removed _ _ rest =>
      apply (rest location).trans
      split
      · rfl
      · exact missing

theorem preserves_missing_removeDirectory (host : Host) (location : Location) (path : Bytes) :
    Preserves (Missing location) (removeDirectory host path) :=
  fun fs missing => missing.removal (removeDirectory_spec host path fs)

theorem preserves_missing_removeAll (host : Host) (order : ReadOrder) (location : Location)
    (depth : ℕ) (path : Bytes) :
    Preserves (Missing location) (removeAll host order depth path) := by
  refine preserves_removeAll order (fun _ => True) ?_ ?_ ?_ depth trivial
  · intros
    trivial
  · intro path fs _ _ missing _ _
    exact missing.removal (removeFile_spec host path fs)
  · intro path _
    exact preserves_missing_removeDirectory host location path

/-- Every pathname below a directory comes after the pathname of the directory. -/
def pathRank (path : Bytes) : ℕ :=
  if path = ascii "." then 0 else path.length

theorem pathRank_lt_joinPath {name : Bytes} (isName : IsName name) (base : Bytes) :
    pathRank base < pathRank (joinPath base name) := by
  have positive := List.length_pos_iff.mpr isName.1
  by_cases bare : base = [] ∨ base = ascii "."
  · have joined : joinPath base name = name := by
      simp [joinPath, bare]
    have least : pathRank base = 0 := by
      rcases bare with rfl | rfl
      · rfl
      · rfl
    rw [joined, least, pathRank, if_neg isName.2.1]
    exact positive
  · have first := List.length_pos_iff.mpr (not_or.mp bare).1
    have longer : base.length + name.length ≤ (joinPath base name).length := by
      simp only [joinPath, bare, if_false]
      split
      · simp
      · simp only [List.length_append, List.length_singleton]
        omega
    have notDot : joinPath base name ≠ ascii "." := by
      intro dot
      have length : (joinPath base name).length = 1 := congrArg List.length dot
      omega
    rw [pathRank, if_neg (not_or.mp bare).2, pathRank, if_neg notDot]
    omega

/-- Read one directory beginning with one of its names. -/
def ReadOrder.lead (order : ReadOrder) (base : Bytes) (name : Name) : ReadOrder where
  arrange := fun path names =>
    if path = base ∧ name ∈ names then name :: names.erase name else order.arrange path names
  perm := by
    intro path names
    split
    next first => exact (List.perm_cons_erase first.2).symm
    · exact order.perm path names

/-- In some order of reading, calling `remove_all` with `target` removes the entry.  The
order matters only for `target` and what is below it. -/
def Destroys (host : Host) (fs : FileSystem) (location : Location) (target : Bytes) : Prop :=
  ∃ (order : ReadOrder) (depth : ℕ), ∀ other : ReadOrder,
    (∀ path, pathRank target ≤ pathRank path → other.arrange path = order.arrange path) →
      Missing location (endState ((removeAll host other depth target).run fs))

variable {name : Name} {above : ℕ × Location}

theorem Destroys.parent (destroys : Destroys host fs location (joinPath base name))
    (resolved : host.resolve fs base = some above) (isDirectory : fs.node above.2 = some .directory)
    (mem : name ∈ fs.children above.2) : Destroys host fs location base := by
  rcases destroys with ⟨order, depth, removes⟩
  have later := pathRank_lt_joinPath (FileSystem.isName_of_mem_children mem) base
  refine ⟨order.lead base name, depth + 1, ?_⟩
  intro other same
  have first : other.arrange base (fs.children above.2) =
      name :: (fs.children above.2).erase name := by
    rw [same base le_rfl]
    exact if_pos ⟨rfl, mem⟩
  rw [removeAll_of_directory depth resolved isDirectory, first]
  have gone : Missing location
      (endState ((removeAll host other depth (joinPath base name)).run fs)) := by
    apply removes other
    intro path higher
    apply (same path (later.le.trans higher)).trans
    funext names
    apply if_neg
    rintro ⟨rfl, -⟩
    exact absurd higher (not_le.mpr later)
  apply endState_bind
  · apply endState_bind gone
    intro _
    apply preserves_forM
    intro _ _
    exact preserves_missing_removeAll host other location depth _
  · intro _
    exact preserves_missing_removeDirectory host location base

theorem destroys_of_removable (resolved : host.resolve fs base = some above)
    (mem : name ∈ fs.children above.2)
    (removable : Removable host fs (joinPath base name) (above.2 ++ [name])) :
    Destroys host fs (above.2 ++ [name]) (joinPath base name) := by
  have present := FileSystem.mem_children.mp mem
  have isDirectory := FileSystem.directory_of_child present
  have isName := FileSystem.isName_of_mem_children mem
  have nonempty := Host.ne_nil_of_resolve resolved
  have proper := not_isSpecial_of_isName isName
  have named : host.entry fs (joinPath base name) (segments (joinPath base name)) =
      some (above.2 ++ [name]) :=
    (Host.entry_joinPath isName nonempty).mpr ⟨above, resolved, isDirectory, rfl⟩
  have found := Host.resolve_joinPath isName resolved isDirectory
  refine ⟨storedOrder, 1, ?_⟩
  intro other _
  rcases removable with ⟨inner, empty⟩ | ⟨_, resolved', notDirectory⟩
  · have resolved' := found.trans (walk_directory above.1 proper inner)
    have nothing : other.arrange (joinPath base name) (fs.children (above.2 ++ [name])) = [] := by
      have same := other.perm (joinPath base name) (fs.children (above.2 ++ [name]))
      rw [empty] at same ⊢
      exact same.eq_nil
    rw [removeAll_of_directory 0 resolved' inner, nothing]
    show Missing _ (endState ((removeDirectory host (joinPath base name)).run fs))
    simp only [EStateM.run, removeDirectory, rdropWhile_segments_joinPath isName nonempty, named,
      inner, empty, and_self, dite_true, endState]
    exact (FileSystem.node_remove (by simp) _).trans (if_pos rfl)
  · rcases Option.isSome_iff_exists.mp (Host.resolve_present resolved') with ⟨node, there⟩
    have different : node ≠ .directory := by
      rintro rfl
      exact notDirectory there
    have outer : fs.node (above.2 ++ [name]) ≠ some .directory := by
      intro inner
      have whole := found.trans (walk_directory above.1 proper inner)
      cases whole.symm.trans resolved'
      exact notDirectory inner
    have suited : fs.node (above.2 ++ [name]) ≠ none ∧
        fs.node (above.2 ++ [name]) ≠ some .directory :=
      ⟨Option.isSome_iff_ne_none.mp present, outer⟩
    rw [removeAll_of_other 0 resolved' there different]
    simp only [EStateM.run, removeFile, named, suited, ne_eq, not_false_eq_true, and_self,
      dite_true, endState]
    exact (FileSystem.node_remove (by simp) _).trans (if_pos rfl)

theorem Traversed.destroys (traversed : Traversed host fs path base)
    (destroys : Destroys host fs location base) : Destroys host fs location path := by
  induction traversed with
  | start => exact destroys
  | child _ resolved isDirectory mem ih => exact ih (destroys.parent resolved isDirectory mem)

end Escape

/-- `remove_all` keeps to what is beneath its path and does away with the path, unless the
path is a link that leads nowhere, or some way down from it, links followed, comes to
something outside that can be removed. -/
theorem removesOnly_iff (host : Host) (fs : FileSystem) (path : Bytes) :
    RemovesOnly host fs path ↔ ¬Dangles host fs path ∧ ¬Escapes host fs path := by
  constructor
  · intro correct
    constructor
    · rintro ⟨present, unresolved⟩
      exact correct.gone storedOrder 1 fs (removeAll_of_missing 0 unresolved) present
    · rintro ⟨_, _, _, traversed, resolved, mem, apart, removable⟩
      have present := FileSystem.mem_children.mp mem
      have destroys := (destroys_of_removable resolved mem removable).parent resolved
        (FileSystem.directory_of_child present) mem
      rcases traversed.destroys destroys with ⟨order, depth, removes⟩
      have missing := removes order fun _ _ => rfl
      rw [← correct.contained order depth _ apart, missing] at present
      cases present
  · rintro ⟨followed, confined⟩
    constructor
    · intro order depth location apart
      exact (removeAll_intact confined order depth).outside location apart
    · intro _ _ _ returned
      exact removeAll_gone followed returned

/-- A directory `/d` with a link to the directory `/o`, which holds a file, and with a link
that leads nowhere. -/
def linkedTree : FileSystem where
  entries := [⟨[], ascii "d", .directory⟩, ⟨[ascii "d"], ascii "l", .link (ascii "/o")⟩,
    ⟨[ascii "d"], ascii "n", .link (ascii "/none")⟩, ⟨[], ascii "o", .directory⟩,
    ⟨[ascii "o"], ascii "x", .file (ascii "1")⟩]
  nodup := by decide
  names := by decide
  rooted := by decide

/-- `remove_all("/d")` removes `/o/x`, and `remove_all("/d/n")` returns and leaves the link. -/
theorem removeAll_follows_links :
    (linkedTree.node [ascii "o", ascii "x"] = some (.file (ascii "1")) ∧
      ¬Host.Beneath ⟨[], 40⟩ linkedTree (ascii "/d") [ascii "o", ascii "x"] ∧
      (endState ((removeAll ⟨[], 40⟩ storedOrder 3 (ascii "/d")).run linkedTree)).node
        [ascii "o", ascii "x"] = none) ∧
    (removeAll ⟨[], 40⟩ storedOrder 3 (ascii "/d/n")).run linkedTree = .ok () linkedTree ∧
      Host.Exists ⟨[], 40⟩ linkedTree (ascii "/d/n") := by
  refine ⟨⟨by decide +kernel, ?_, by decide +kernel⟩, ?_, ?_⟩
  · have place : Host.locate ⟨[], 40⟩ linkedTree (ascii "/d") = some [ascii "d"] := by
      decide +kernel
    rintro ⟨_, located, below⟩
    cases located.symm.trans place
    exact absurd below (by decide)
  · apply removeAll_of_missing
    decide +kernel
  · exact ⟨[ascii "d", ascii "n"], by decide +kernel, by decide +kernel⟩

end Corouv.Fs
