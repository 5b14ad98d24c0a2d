import Corouv.Fs.FileSystem

/-!
# Pathname resolution

How POSIX leads from a pathname to a location: link after link, up to a limit on their
number, from the working directory or from the root.
-/

namespace Corouv.Fs

/-- The parts of a pathname between its slashes; an empty part stands for `.`. -/
def segments (path : Bytes) : List Bytes :=
  path.splitOn slash

/-- Where the resolution of a pathname begins, if `here` is where a relative one does. -/
def startFrom (here : Location) (path : Bytes) : Location :=
  if path.head? = some slash then [] else here

/-- Follow the segments from a location.  `expand` is what to do with the target of a
link and the segments behind it. -/
def walkWith (fs : FileSystem) (links : ℕ)
    (expand : Location → Bytes → List Bytes → Option (ℕ × Location)) :
    Location → List Bytes → Option (ℕ × Location)
  | here, [] => some (links, here)
  | here, segment :: rest =>
      if fs.node here = some .directory then
        if segment = [] ∨ segment = ascii "." then walkWith fs links expand here rest
        else if segment = ascii ".." then walkWith fs links expand here.dropLast rest
        else
          match fs.node (here ++ [segment]) with
          | none => none
          | some (.link target) => if target = [] then none else expand here target rest
          | some _ => walkWith fs links expand (here ++ [segment]) rest
      else none

/-- The location that segments lead to, and how many more links may be followed. -/
def walk (fs : FileSystem) : ℕ → Location → List Bytes → Option (ℕ × Location)
  | 0 => walkWith fs 0 fun _ _ _ => none
  | links + 1 => walkWith fs (links + 1) fun here target rest =>
      walk fs links (startFrom here target) (segments target ++ rest)

section Walking

variable {fs : FileSystem} {links links' : ℕ} {here there : Location}

variable {reached : ℕ × Location} {expand : Location → Bytes → List Bytes → Option (ℕ × Location)}
  {parts : List Bytes}

theorem walkWith_append {onward : ℕ × Location → Option (ℕ × Location)} (later : List Bytes)
    (same : ∀ location, onward (links, location) = walkWith fs links expand location later)
    (commutes : ∀ location target rest,
      expand location target (rest ++ later) = (expand location target rest).bind onward)
    (here : Location) (parts : List Bytes) :
    walkWith fs links expand here (parts ++ later) =
      (walkWith fs links expand here parts).bind onward := by
  induction parts generalizing here with
  | nil => exact (same here).symm
  | cons _ _ ih =>
      simp only [List.cons_append, walkWith]
      split
      · split
        · exact ih here
        · split
          · exact ih here.dropLast
          · split
            · rfl
            · split
              · rfl
              · exact commutes _ _ _
            · exact ih _
      · rfl

theorem walk_append (fs : FileSystem) (links : ℕ) (here : Location) (parts later : List Bytes) :
    walk fs links here (parts ++ later) =
      (walk fs links here parts).bind fun reached => walk fs reached.1 reached.2 later := by
  induction links generalizing here parts with
  | zero =>
      apply walkWith_append later (fun location => rfl)
      intro location _ _
      rfl
  | succ _ ih =>
      apply walkWith_append later (fun location => rfl)
      intro _ _ _
      rw [← List.append_assoc]
      exact ih _ _

/-- What is resolved with fewer nodes is resolved the same with more. -/
theorem walkWith_within {small : FileSystem} (within : small.Within fs)
    {expand' : Location → Bytes → List Bytes → Option (ℕ × Location)}
    (agree : ∀ location target rest, expand' location target rest = some reached →
      expand location target rest = some reached) (here : Location) (parts : List Bytes)
    (found : walkWith small links expand' here parts = some reached) :
    walkWith fs links expand here parts = some reached := by
  fun_induction walkWith small links expand' here parts with
  | case1 => exact found
  | case2 _ _ _ isDirectory dot ih =>
      rw [walkWith, if_pos (within _ _ isDirectory), if_pos dot]
      exact ih found
  | case3 _ _ isDirectory notDot ih =>
      rw [walkWith, if_pos (within _ _ isDirectory), if_neg notDot, if_pos rfl]
      exact ih found
  | case6 _ _ _ isDirectory notDot notDotDot _ present nonempty =>
      rw [walkWith, if_pos (within _ _ isDirectory), if_neg notDot, if_neg notDotDot,
        within _ _ present]
      exact (if_neg nonempty).trans (agree _ _ _ found)
  | case7 _ _ _ isDirectory notDot notDotDot node notLink present ih =>
      rw [walkWith, if_pos (within _ _ isDirectory), if_neg notDot, if_neg notDotDot,
        within _ _ present]
      cases node with
      | link target => exact (notLink target rfl).elim
      | directory | file contents => exact ih found
  | case4 | case5 | case8 => cases found

theorem walk_within {small : FileSystem} (within : small.Within fs)
    (found : walk small links here parts = some reached) :
    walk fs links here parts = some reached := by
  induction links generalizing here parts with
  | zero =>
      apply walkWith_within within _ here parts found
      intro _ _ _ expanded
      cases expanded
  | succ _ ih =>
      apply walkWith_within within _ here parts found
      intro _ _ _ expanded
      exact ih expanded

theorem isSome_dropLast (isDirectory : fs.node here = some .directory) :
    (fs.node here.dropLast).isSome = true := by
  cases split : here.getLast? with
  | none =>
      rw [List.getLast?_eq_none_iff.mp split]
      rfl
  | some last =>
      have whole := List.dropLast_append_getLast? last split
      have child : (fs.node (here.dropLast ++ [last])).isSome = true := by
        rw [whole, isDirectory]
        rfl
      rw [FileSystem.directory_of_child child]
      rfl

theorem isSome_startFrom (present : (fs.node here).isSome = true) (path : Bytes) :
    (fs.node (startFrom here path)).isSome = true := by
  simp only [startFrom]
  split
  · rfl
  · exact present

theorem walkWith_present
    (expanded : ∀ location target rest, (fs.node location).isSome = true →
      expand location target rest = some reached → (fs.node reached.2).isSome = true)
    (here : Location) (parts : List Bytes) (present : (fs.node here).isSome = true)
    (found : walkWith fs links expand here parts = some reached) :
    (fs.node reached.2).isSome = true := by
  fun_induction walkWith fs links expand here parts with
  | case1 =>
      cases found
      exact present
  | case2 _ _ _ _ _ ih => exact ih present found
  | case3 _ _ isDirectory _ ih => exact ih (isSome_dropLast isDirectory) found
  | case6 => exact expanded _ _ _ present found
  | case7 _ _ _ _ _ _ _ _ entry ih => exact ih (by rw [entry]; rfl) found
  | case4 | case5 | case8 => cases found

theorem walk_present (present : (fs.node here).isSome = true)
    (found : walk fs links here parts = some reached) : (fs.node reached.2).isSome = true := by
  induction links generalizing here parts with
  | zero =>
      apply walkWith_present _ here parts present found
      intro _ target _ _ expanded
      cases expanded
  | succ _ ih =>
      apply walkWith_present _ here parts present found
      intro _ target _ occupied expanded
      exact ih (isSome_startFrom occupied target) expanded

theorem walkWith_links_le
    (fewer : ∀ location target rest, expand location target rest = some reached →
      reached.1 ≤ links) (here : Location) (parts : List Bytes)
    (found : walkWith fs links expand here parts = some reached) : reached.1 ≤ links := by
  fun_induction walkWith fs links expand here parts with
  | case1 =>
      cases found
      exact le_rfl
  | case2 _ _ _ _ _ ih | case3 _ _ _ _ ih | case7 _ _ _ _ _ _ _ _ _ ih => exact ih found
  | case6 => exact fewer _ _ _ found
  | case4 | case5 | case8 => cases found

theorem walk_links_le (found : walk fs links here parts = some reached) : reached.1 ≤ links := by
  induction links generalizing here parts with
  | zero =>
      apply walkWith_links_le _ here parts found
      intro _ _ _ expanded
      cases expanded
  | succ links ih =>
      apply walkWith_links_le _ here parts found
      intro _ _ _ expanded
      exact (ih expanded).trans (Nat.le_succ links)

end Walking

/-- What the process contributes: its working directory and the limit on links. -/
structure Host where
  workingDirectory : Location
  maxLinks : ℕ

/-- A last segment that names no entry. -/
def IsSpecial (segment : Bytes) : Prop :=
  segment = [] ∨ segment = ascii "." ∨ segment = ascii ".."

instance (segment : Bytes) : Decidable (IsSpecial segment) :=
  inferInstanceAs (Decidable (_ ∨ _))

namespace Host

/-- Follow the pathname, also a link at its end. -/
def resolve (host : Host) (fs : FileSystem) (path : Bytes) : Option (ℕ × Location) :=
  if path = [] then none
  else walk fs host.maxLinks (startFrom host.workingDirectory path) (segments path)

/-- The place of the entry that the last of the segments names, whether or not it is there. -/
def entry (host : Host) (fs : FileSystem) (path : Bytes) (parts : List Bytes) : Option Location :=
  match parts.getLast? with
  | none => none
  | some last =>
      if IsSpecial last then none
      else
        match walk fs host.maxLinks (startFrom host.workingDirectory path) parts.dropLast with
        | none => none
        | some (_, parent) =>
            if fs.node parent = some .directory then some (parent ++ [last]) else none

/-- The place that the pathname itself names: a link at its end is not followed. -/
def locate (host : Host) (fs : FileSystem) (path : Bytes) : Option Location :=
  if IsSpecial ((segments path).getLastD []) then (host.resolve fs path).map Prod.snd
  else host.entry fs path (segments path)

/-- `lstat` succeeds. -/
def Exists (host : Host) (fs : FileSystem) (path : Bytes) : Prop :=
  ∃ location, host.locate fs path = some location ∧ (fs.node location).isSome = true

/-- At or below the place that the pathname names, by directories alone. -/
def Beneath (host : Host) (fs : FileSystem) (path : Bytes) (location : Location) : Prop :=
  ∃ root, host.locate fs path = some root ∧ root <+: location

end Host

section Naming

variable {host : Host} {fs small : FileSystem} {path : Bytes}

variable {reached : ℕ × Location} {parts : List Bytes} {location here : Location} {links : ℕ}

theorem Host.resolve_within (within : small.Within fs)
    (found : host.resolve small path = some reached) : host.resolve fs path = some reached := by
  simp only [Host.resolve] at found ⊢
  split at found
  · cases found
  next nonempty =>
    rw [if_neg nonempty]
    exact walk_within within found

theorem Host.entry_eq_some :
    host.entry fs path parts = some location ↔
      ∃ init last links parent, parts = init ++ [last] ∧ ¬IsSpecial last ∧
        walk fs host.maxLinks (startFrom host.workingDirectory path) init = some (links, parent) ∧
        fs.node parent = some .directory ∧ location = parent ++ [last] := by
  constructor
  · intro found
    simp only [Host.entry] at found
    split at found
    · cases found
    next last ending =>
      split at found
      · cases found
      next proper =>
        split at found
        · cases found
        next links parent walked =>
          split at found
          next isDirectory =>
            refine ⟨parts.dropLast, last, links, parent, ?_, proper, walked, isDirectory,
              (Option.some.inj found).symm⟩
            exact (List.dropLast_append_getLast? last ending).symm
          · cases found
  · rintro ⟨_, _, _, _, rfl, proper, walked, isDirectory, rfl⟩
    simp [Host.entry, proper, walked, isDirectory]

theorem Host.entry_within (within : small.Within fs)
    (found : host.entry small path parts = some location) :
    host.entry fs path parts = some location := by
  rcases Host.entry_eq_some.mp found with
    ⟨init, last, links, parent, rfl, proper, walked, isDirectory, rfl⟩
  apply Host.entry_eq_some.mpr
  exact ⟨init, last, links, parent, rfl, proper, walk_within within walked,
    within _ _ isDirectory, rfl⟩

theorem Host.locate_within (within : small.Within fs)
    (found : host.locate small path = some location) : host.locate fs path = some location := by
  simp only [Host.locate] at found ⊢
  split at found
  next special =>
    rw [if_pos special]
    rcases Option.map_eq_some_iff.mp found with ⟨_, resolved, rfl⟩
    rw [Host.resolve_within within resolved]
    rfl
  next proper =>
    rw [if_neg proper]
    exact Host.entry_within within found

theorem segments_ne_nil (path : Bytes) : segments path ≠ [] := by
  exact List.splitOn_ne_nil slash path

theorem walk_singleton {name : Bytes} (proper : ¬IsSpecial name)
    (found : walk fs links here [name] = some reached) :
    fs.node here = some .directory ∧ (fs.node (here ++ [name])).isSome = true := by
  have steps : ∀ expand, walkWith fs links expand here [name] = some reached →
      fs.node here = some .directory ∧ (fs.node (here ++ [name])).isSome = true := by
    intro _ found
    simp only [IsSpecial, not_or] at proper
    simp only [walkWith, proper, or_self, if_false] at found
    split at found
    next isDirectory =>
      refine ⟨isDirectory, ?_⟩
      cases present : fs.node (here ++ [name]) with
      | none =>
          rw [present] at found
          cases found
      | some _ => rfl
    · cases found
  cases links with
  | zero | succ links => exact steps _ found

theorem walk_name {name : Bytes} (proper : ¬IsSpecial name)
    (found : walk fs links here [name] = some reached) :
    reached = (links, here ++ [name]) ∨ reached.1 < links := by
  simp only [IsSpecial, not_or] at proper
  have steps : ∀ expand, (∀ target, expand here target [] = some reached → reached.1 < links) →
      walkWith fs links expand here [name] = some reached →
      reached = (links, here ++ [name]) ∨ reached.1 < links := by
    intro _ fewer found
    simp only [walkWith, proper, or_self, if_false] at found
    split at found
    · split at found
      · cases found
      · exact .inr (fewer _ (Option.ite_none_left_eq_some.mp found).2)
      · exact .inl (Option.some.inj found).symm
    · cases found
  cases links with
  | zero => exact steps _ (fun _ expanded => by cases expanded) found
  | succ _ => exact steps _ (fun _ expanded => Nat.lt_succ_of_le (walk_links_le expanded)) found

theorem walk_start_present (nonempty : parts ≠ [])
    (found : walk fs links here parts = some reached) :
    (fs.node here).isSome = true := by
  have steps : ∀ expand, walkWith fs links expand here parts = some reached →
      (fs.node here).isSome = true := by
    intro _ found
    cases parts with
    | nil => exact absurd rfl nonempty
    | cons _ _ =>
        simp only [walkWith] at found
        split at found
        next isDirectory =>
          rw [isDirectory]
          rfl
        · cases found
  cases links with
  | zero | succ links => exact steps _ found

theorem Host.ne_nil_of_resolve (resolved : host.resolve fs path = some reached) : path ≠ [] := by
  rintro rfl
  cases resolved

theorem Host.resolve_present (resolved : host.resolve fs path = some reached) :
    (fs.node reached.2).isSome = true := by
  simp only [Host.resolve] at resolved
  split at resolved
  · cases resolved
  · exact walk_present (walk_start_present (segments_ne_nil path) resolved) resolved

theorem exists_last_segment (path : Bytes) : ∃ init last, segments path = init ++ [last] := by
  rcases (segments path).eq_nil_or_concat with none | ⟨init, last, split⟩
  · exact absurd none (segments_ne_nil path)
  · exact ⟨init, last, by simpa using split⟩

theorem Host.exists_of_resolve (resolved : host.resolve fs path = some reached) :
    host.Exists fs path := by
  have whole := resolved
  simp only [Host.resolve] at whole
  split at whole
  · cases whole
  · rcases exists_last_segment path with ⟨init, last, split⟩
    have ending : (segments path).getLastD [] = last := by simp [split]
    by_cases special : IsSpecial last
    · refine ⟨reached.2, ?_, ?_⟩
      · rw [Host.locate, ending, if_pos special, resolved]
        rfl
      · exact Host.resolve_present resolved
    · rw [split, walk_append] at whole
      rcases Option.bind_eq_some_iff.mp whole with ⟨⟨links, parent⟩, walked, lookup⟩
      rcases walk_singleton special lookup with ⟨isDirectory, present⟩
      refine ⟨parent ++ [last], ?_, present⟩
      rw [Host.locate, ending, if_neg special]
      apply Host.entry_eq_some.mpr
      exact ⟨init, last, links, parent, split, special, walked, isDirectory, rfl⟩

end Naming

end Corouv.Fs
