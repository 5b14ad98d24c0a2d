import Corouv.Fs.Resolution

/-!
# The calls that work on pathnames

The coroutines of `filesystem.h` over the POSIX calls that libuv makes for them:
`access`, `stat` and `opendir` follow a link at the end of a pathname, `unlink` and
`rmdir` do not.  Permissions and input/output errors are left out; of the message of
an exception only the name of the call is kept.
-/

namespace Corouv.Fs

variable {host : Host} {fs : FileSystem} {path : Bytes}

/-- `readdir` yields the names in an order of its own, at every opening anew. -/
structure ReadOrder where
  arrange : Bytes → List Name → List Name
  perm : ∀ path names, (arrange path names).Perm names

def storedOrder : ReadOrder :=
  ⟨fun _ names => names, fun _ names => List.Perm.refl names⟩

def slashAt (path : Bytes) : Bool :=
  path.getLast? = some slash

def joinPath (base name : Bytes) : Bytes :=
  if base = [] ∨ base = ascii "." then name
  else (if slashAt base then base else base ++ [slash]) ++ name

/-- `exists`: no exception of `Access` gets through. -/
def pathExists (host : Host) (path : Bytes) : Task FileSystem Bool := do
  return (host.resolve (← get) path).isSome

def stat (host : Host) (path : Bytes) : Task FileSystem Node := fun fs =>
  match (host.resolve fs path).bind fun reached => fs.node reached.2 with
  | some node => .ok node fs
  | none => .error (.runtime "uv_fs_stat") fs

/-- The names in the directory, which `Readdir` hands out without `.` and `..`. -/
def openDirectory (host : Host) (order : ReadOrder) (path : Bytes) :
    Task FileSystem (List Name) := fun fs =>
  match host.resolve fs path with
  | some (_, location) =>
      if fs.node location = some .directory then
        .ok (order.arrange path (fs.children location)) fs
      else .error (.runtime "uv_fs_opendir") fs
  | none => .error (.runtime "uv_fs_opendir") fs

/-- `Directory::read_some`: at least one name, if there is one. -/
def readSome (maxEntries : ℕ) (remaining : List Name) : List Name × List Name :=
  let capacity := if maxEntries = 0 then 1 else maxEntries
  (remaining.take capacity, remaining.drop capacity)

def readAllWithin (batchSize : ℕ) : ℕ → List Name → List Name
  | 0, _ => []
  | fuel + 1, remaining =>
      match readSome batchSize remaining with
      | ([], _) => []
      | (batch, later) => batch ++ readAllWithin batchSize fuel later

/-- `Directory::read_all`: batch after batch, until one is empty. -/
def readAll (batchSize : ℕ) (remaining : List Name) : List Name :=
  readAllWithin batchSize (remaining.length + 1) remaining

theorem readAllWithin_eq (batchSize : ℕ) : ∀ (fuel : ℕ) (remaining : List Name),
    remaining.length < fuel → readAllWithin batchSize fuel remaining = remaining := by
  intro fuel
  induction fuel with
  | zero =>
      intro remaining small
      omega
  | succ _ ih =>
      intro remaining small
      cases remaining with
      | nil => simp [readAllWithin, readSome]
      | cons _ _ =>
          have positive : 0 < if batchSize = 0 then 1 else batchSize := by
            split
            · exact Nat.one_pos
            · omega
          rcases Nat.exists_eq_succ_of_ne_zero positive.ne' with ⟨_, capacity⟩
          simp only [readAllWithin, readSome, capacity, List.take_succ_cons, List.drop_succ_cons]
          rw [ih]
          · simp
          · simp only [List.length_drop, List.length_cons] at small ⊢
            omega

theorem readAll_eq (batchSize : ℕ) (remaining : List Name) :
    readAll batchSize remaining = remaining :=
  readAllWithin_eq batchSize _ remaining (Nat.lt_succ_self _)

/-- Anything but a directory; a slash at the end of the pathname is an error. -/
def removeFile (host : Host) (path : Bytes) : Task FileSystem Unit := fun fs =>
  match host.entry fs path (segments path) with
  | none => .error (.runtime "uv_fs_unlink") fs
  | some location =>
      if other : fs.node location ≠ none ∧ fs.node location ≠ some .directory then
        .ok () (fs.remove location (FileSystem.children_eq_nil other.2))
      else .error (.runtime "uv_fs_unlink") fs

/-- An empty directory; slashes at the end of the pathname do not matter. -/
def removeDirectory (host : Host) (path : Bytes) : Task FileSystem Unit := fun fs =>
  match host.entry fs path ((segments path).rdropWhile fun segment => segment = []) with
  | none => .error (.runtime "uv_fs_rmdir") fs
  | some location =>
      if empty : fs.node location = some .directory ∧ fs.children location = [] then
        .ok () (fs.remove location empty.2)
      else .error (.runtime "uv_fs_rmdir") fs

variable {parts : List Bytes} {here location : Location} {links : ℕ} {reached : ℕ × Location}
  {name : Bytes}

theorem Host.entry_ne_nil (found : host.entry fs path parts = some location) : location ≠ [] := by
  rcases Host.entry_eq_some.mp found with ⟨_, _, _, _, -, -, -, -, rfl⟩
  simp

/-- What has become of the file system after a call that removes one entry at most. -/
inductive Removal (host : Host) (fs : FileSystem) (path : Bytes) (parts : List Bytes)
    (removable : Location → Prop) : EStateM.Result Exn FileSystem Unit → Prop
  | refused {error : Exn} (other : error ≠ .exhausted) :
      Removal host fs path parts removable (.error error fs)
  | removed {location : Location} {fs' : FileSystem}
      (named : host.entry fs path parts = some location) (suited : removable location)
      (rest : ∀ other, fs'.node other = if other = location then none else fs.node other) :
      Removal host fs path parts removable (.ok () fs')

theorem removeFile_spec (host : Host) (path : Bytes) (fs : FileSystem) :
    Removal host fs path (segments path)
      (fun location => fs.node location ≠ none ∧ fs.node location ≠ some .directory)
      ((removeFile host path).run fs) := by
  simp only [EStateM.run, removeFile]
  split
  · exact .refused (by simp)
  next location named =>
    split
    next other => exact .removed named other (FileSystem.node_remove (Host.entry_ne_nil named))
    · exact .refused (by simp)

theorem removeDirectory_spec (host : Host) (path : Bytes) (fs : FileSystem) :
    Removal host fs path ((segments path).rdropWhile fun segment => segment = [])
      (fun location => fs.node location = some .directory ∧ fs.children location = [])
      ((removeDirectory host path).run fs) := by
  simp only [EStateM.run, removeDirectory]
  split
  · exact .refused (by simp)
  next location named =>
    split
    next empty => exact .removed named empty (FileSystem.node_remove (Host.entry_ne_nil named))
    · exact .refused (by simp)

theorem within_of_removed {fs' : FileSystem}
    (rest : ∀ other, fs'.node other = if other = location then none else fs.node other) :
    fs'.Within fs := by
  intro _ _ present
  rw [rest] at present
  split at present
  · cases present
  · exact present

variable {name : Name} {segment : Bytes}

theorem not_isSpecial_of_isName (isName : IsName name) : ¬IsSpecial name := by
  rintro (empty | dot | dotDot)
  · exact isName.1 empty
  · exact isName.2.1 dot
  · exact isName.2.2.1 dotDot

theorem segments_of_isName (isName : IsName name) : segments name = [name] :=
  List.splitOn_eq_singleton isName.2.2.2

theorem segments_append_slash (first second : Bytes) :
    segments (first ++ slash :: second) = segments first ++ segments second :=
  List.splitOn_append_cons_self first second

theorem walk_dot (dot : segment = [] ∨ segment = ascii ".") :
    walk fs links here [segment] = some reached ↔
      fs.node here = some .directory ∧ (links, here) = reached := by
  have steps : ∀ expand, walkWith fs links expand here [segment] = some reached ↔
      fs.node here = some .directory ∧ (links, here) = reached := by
    intro _
    simp only [walkWith, dot, if_true]
    split
    next isDirectory => simp [isDirectory]
    next other => simp [other]
  cases links with
  | zero | succ links => exact steps _

theorem walk_append_dot (dot : segment = [] ∨ segment = ascii ".")
    (isDirectory : fs.node reached.2 = some .directory) :
    walk fs links here (parts ++ [segment]) = some reached ↔
      walk fs links here parts = some reached := by
  rw [walk_append]
  constructor
  · intro found
    rcases Option.bind_eq_some_iff.mp found with ⟨_, walked, last⟩
    rcases (walk_dot dot).mp last with ⟨-, rfl⟩
    exact walked
  · intro walked
    rw [walked]
    exact (walk_dot dot).mpr ⟨isDirectory, rfl⟩

theorem walk_directory (links : ℕ) (proper : ¬IsSpecial name)
    (isDirectory : fs.node (here ++ [name]) = some .directory) :
    walk fs links here [name] = some (links, here ++ [name]) := by
  have holder : fs.node here = some .directory :=
    FileSystem.directory_of_child (by rw [isDirectory]; rfl)
  simp only [IsSpecial, not_or] at proper
  have steps : ∀ expand, walkWith fs links expand here [name] = some (links, here ++ [name]) := by
    intro _
    simp [walkWith, holder, proper, isDirectory]
  cases links with
  | zero | succ links => exact steps _

theorem exists_trailing_slashes (parts : List Bytes) :
    ∃ count, parts = parts.rdropWhile (fun segment => segment = []) ++
      List.replicate count [] := by
  induction parts using List.reverseRecOn with
  | nil => exact ⟨0, rfl⟩
  | append_singleton _ last ih =>
      by_cases empty : last = []
      · rcases ih with ⟨count, split⟩
        refine ⟨count + 1, ?_⟩
        rw [List.rdropWhile_concat_pos _ _ _ (by simpa using empty), List.replicate_succ',
          ← List.append_assoc, ← split, empty]
      · refine ⟨0, ?_⟩
        rw [List.rdropWhile_concat_neg _ _ _ (by simpa using empty)]
        simp

theorem isSpecial_of_trailing_slashes {count : ℕ}
    (split : segments path = parts ++ List.replicate (count + 1) []) :
    IsSpecial ((segments path).getLastD []) := by
  rw [split, List.replicate_succ', ← List.append_assoc, List.getLastD_concat]
  exact .inl rfl

theorem walk_append_slashes (count : ℕ) (isDirectory : fs.node reached.2 = some .directory) :
    walk fs links here (parts ++ List.replicate count []) = some reached ↔
      walk fs links here parts = some reached := by
  induction count with
  | zero => simp
  | succ _ ih =>
      rw [List.replicate_succ', ← List.append_assoc, walk_append_dot (.inl rfl) isDirectory]
      exact ih

theorem Host.locate_of_trimmed
    (named : host.entry fs path ((segments path).rdropWhile fun segment => segment = []) =
      some location) (isDirectory : fs.node location = some .directory) :
    host.locate fs path = some location := by
  rcases exists_trailing_slashes (segments path) with ⟨count, split⟩
  rcases Host.entry_eq_some.mp named with
    ⟨init, last, links, parent, trimmed, proper, walked, -, rfl⟩
  cases count with
  | zero =>
      rw [List.replicate_zero, List.append_nil] at split
      have whole : segments path = init ++ [last] := split.trans trimmed
      have ending : (segments path).getLastD [] = last := by simp [whole]
      rw [Host.locate, ending, if_neg proper]
      rw [← split] at named
      exact named
  | succ count =>
      have nonempty : path ≠ [] := by
        rintro rfl
        have single : segments [] = [[]] := rfl
        rw [single] at trimmed
        simp [List.rdropWhile] at trimmed
      rw [Host.locate, if_pos (isSpecial_of_trailing_slashes split), Host.resolve, if_neg nonempty,
        split, trimmed]
      apply Option.map_eq_some_iff.mpr
      refine ⟨(links, parent ++ [last]), ?_, rfl⟩
      apply (walk_append_slashes (count + 1) isDirectory).mpr
      rw [walk_append, walked]
      exact walk_directory links proper isDirectory

/-- `join_path` puts one segment behind those of the directory, which may lose a `.` or
an empty one at their end. -/
theorem segments_joinPath {base : Bytes} (isName : IsName name) (nonempty : base ≠ []) :
    ∃ init, segments (joinPath base name) = init ++ [name] ∧
      (∀ here, startFrom here (joinPath base name) = startFrom here base) ∧
      ∀ (fs : FileSystem) links here reached, fs.node reached.2 = some .directory →
        (walk fs links here init = some reached ↔
          walk fs links here (segments base) = some reached) := by
  by_cases dot : base = ascii "."
  · have noSlash : name.head? ≠ some slash := fun first =>
      isName.2.2.2 (List.mem_of_head? first)
    refine ⟨[], ?_, ?_, ?_⟩
    · simp only [joinPath, dot, or_true, if_true]
      exact segments_of_isName isName
    · intro here
      simp only [startFrom, joinPath, dot, or_true, if_true, if_neg noSlash]
      rfl
    · intro _ _ here _ isDirectory
      have single : segments base = [] ++ [ascii "."] := by
        rw [dot]
        rfl
      rw [single]
      exact (walk_append_dot (.inr rfl) isDirectory).symm
  · have joined : joinPath base name =
        (if slashAt base then base else base ++ [slash]) ++ name := by
      simp [joinPath, nonempty, dot]
    have start : ∀ here, startFrom here (joinPath base name) = startFrom here base := by
      intro _
      rw [joined]
      cases base with
      | nil => exact absurd rfl nonempty
      | cons _ _ =>
          split
          · rfl
          · rfl
    by_cases ending : slashAt base = true
    · rw [if_pos ending] at joined
      simp only [slashAt, decide_eq_true_eq] at ending
      have split := List.dropLast_append_getLast? slash ending
      refine ⟨segments base.dropLast, ?_, start, ?_⟩
      · have apart : joinPath base name = base.dropLast ++ slash :: name := by
          rw [joined, List.append_cons, split]
        rw [apart, segments_append_slash, segments_of_isName isName]
      · intro _ _ _ _ isDirectory
        have whole : segments base = segments base.dropLast ++ [[]] := by
          have apart : base = base.dropLast ++ slash :: [] := split.symm
          exact (congrArg segments apart).trans (segments_append_slash _ _)
        rw [whole]
        exact (walk_append_dot (.inl rfl) isDirectory).symm
    · rw [if_neg ending] at joined
      refine ⟨segments base, ?_, start, fun _ _ _ _ _ => Iff.rfl⟩
      rw [joined, ← List.append_cons, segments_append_slash, segments_of_isName isName]

theorem joinPath_ne_nil (isName : IsName name) (base : Bytes) : joinPath base name ≠ [] := by
  simp only [joinPath]
  split
  · exact isName.1
  · simp [isName.1]

section Joining

variable {base name : Bytes} (isName : IsName name)
include isName

variable {reached : ℕ × Location}

theorem Host.resolve_joinPath (resolved : host.resolve fs base = some reached)
    (isDirectory : fs.node reached.2 = some .directory) :
    host.resolve fs (joinPath base name) = walk fs reached.1 reached.2 [name] := by
  simp only [Host.resolve] at resolved
  split at resolved
  · cases resolved
  next nonempty =>
    rcases segments_joinPath isName nonempty with ⟨_, split, start, same⟩
    have walked := (same fs _ _ _ isDirectory).mpr resolved
    rw [Host.resolve, if_neg (joinPath_ne_nil isName base), start, split, walk_append, walked]
    rfl

theorem Host.base_of_resolve_joinPath (nonempty : base ≠ [])
    (resolved : host.resolve fs (joinPath base name) = some reached) :
    ∃ above, host.resolve fs base = some above ∧ fs.node above.2 = some .directory := by
  simp only [Host.resolve] at resolved
  split at resolved
  · cases resolved
  · rcases segments_joinPath isName nonempty with ⟨_, split, start, same⟩
    rw [start, split, walk_append] at resolved
    rcases Option.bind_eq_some_iff.mp resolved with ⟨above, walked, lookup⟩
    have isDirectory := (walk_singleton (not_isSpecial_of_isName isName) lookup).1
    refine ⟨above, ?_, isDirectory⟩
    rw [Host.resolve, if_neg nonempty]
    exact (same fs _ _ _ isDirectory).mp walked

theorem Host.entry_joinPath {location : Location} (nonempty : base ≠ []) :
    host.entry fs (joinPath base name) (segments (joinPath base name)) = some location ↔
      ∃ above, host.resolve fs base = some above ∧ fs.node above.2 = some .directory ∧
        location = above.2 ++ [name] := by
  rcases segments_joinPath isName nonempty with ⟨init, split, start, same⟩
  rw [Host.entry_eq_some, split, start]
  constructor
  · rintro ⟨_, _, links, parent, parts, -, walked, isDirectory, rfl⟩
    rcases List.append_inj' parts rfl with ⟨rfl, single⟩
    cases single
    refine ⟨(links, parent), ?_, isDirectory, rfl⟩
    rw [Host.resolve, if_neg nonempty]
    exact (same fs _ _ (links, parent) isDirectory).mp walked
  · rintro ⟨⟨links, parent⟩, resolved, isDirectory, rfl⟩
    rw [Host.resolve, if_neg nonempty] at resolved
    exact ⟨init, name, links, parent, rfl, not_isSpecial_of_isName isName,
      (same fs _ _ (links, parent) isDirectory).mpr resolved, isDirectory, rfl⟩

theorem rdropWhile_segments_joinPath (nonempty : base ≠ []) :
    (segments (joinPath base name)).rdropWhile (fun segment => segment = []) =
      segments (joinPath base name) := by
  rcases segments_joinPath isName nonempty with ⟨_, split, -, -⟩
  rw [split]
  simp [isName.1]

end Joining

end Corouv.Fs
