import Corouv.Base

/-!
# Normalized paths

`normalize_path` takes a path apart and `normalized_to_string` puts it together again.  A
relative path whose first part looks like a drive does not come back.
-/

namespace Corouv.Fs

/-- `std::isalpha` in the C locale. -/
def isAlpha (byte : UInt8) : Bool :=
  (65 ≤ byte && byte ≤ 90) || (97 ≤ byte && byte ≤ 122)

def isPathSeparator (byte : UInt8) : Bool :=
  byte = 47 || byte = 92

structure NormalizedPath where
  /-- A letter and a colon, or nothing. -/
  drive : Bytes
  absolute : Bool
  parts : List Bytes
  deriving DecidableEq

def splitDrive : Bytes → Bytes × Bytes
  | letter :: 58 :: rest =>
      if isAlpha letter then ([letter, 58], rest) else ([], letter :: 58 :: rest)
  | path => ([], path)

def isAbsolute (path : Bytes) : Bool :=
  (splitDrive path).2.head?.any isPathSeparator

/-- The texts between separators, which are empty between two that follow each other. -/
def components (path : Bytes) : List Bytes :=
  (splitDrive path).2.splitOnP isPathSeparator

def pushPart (absolute : Bool) (parts : List Bytes) (part : Bytes) : List Bytes :=
  if part = [] ∨ part = ascii "." then parts
  else if part = ascii ".." then
    if parts ≠ [] ∧ parts.getLast? ≠ some (ascii "..") then parts.dropLast
    else if absolute then parts
    else parts ++ [part]
  else parts ++ [part]

def normalizePath (path : Bytes) : NormalizedPath where
  drive := (splitDrive path).1
  absolute := isAbsolute path
  parts := (components path).foldl (pushPart (isAbsolute path)) []

/-- The text so far, and whether the part is the first. -/
def appendPart (text : Bytes × Bool) (part : Bytes) : Bytes × Bool :=
  ((if !text.2 ∧ text.1 ≠ [] ∧ text.1.getLast? ≠ some 47 then text.1 ++ [47] else text.1) ++ part,
    false)

def normalizedToString (path : NormalizedPath) : Bytes :=
  let out := path.drive ++ if path.absolute then [47] else []
  let text := (path.parts.foldl appendPart (out, true)).1
  if text = [] then if path.absolute then ascii "/" else ascii "." else text

def Solid (part : Bytes) : Prop :=
  part ≠ [] ∧ ∀ byte ∈ part, isPathSeparator byte = false

/-- Where a path leads: up from its start, and then down. -/
structure Place where
  ups : ℕ := 0
  names : List Bytes := []

namespace Place

def enter (absolute : Bool) (place : Place) (component : Bytes) : Place :=
  if component = [] ∨ component = ascii "." then place
  else if component = ascii ".." then
    if place.names ≠ [] then { place with names := place.names.dropLast }
    else if absolute then place
    else { place with ups := place.ups + 1 }
  else { place with names := place.names ++ [component] }

def parts (place : Place) : List Bytes :=
  List.replicate place.ups (ascii "..") ++ place.names

def IsPart (name : Bytes) : Prop :=
  Solid name ∧ name ≠ ascii "." ∧ name ≠ ascii ".."

structure Proper (absolute : Bool) (place : Place) : Prop where
  names : ∀ name ∈ place.names, IsPart name
  root : absolute = true → place.ups = 0

end Place

/-- The evaluation of the components with a stack. -/
def evaluate (absolute : Bool) (components : List Bytes) : Place :=
  components.foldl (Place.enter absolute) {}

/-- The parts are canonical, lead where the path leads, and come back from their text. -/
def Canonical (path : Bytes) : Prop :=
  let normalized := normalizePath path
  (∀ part ∈ normalized.parts, part ≠ [] ∧ part ≠ ascii ".") ∧
    (∃ ups names, normalized.parts = List.replicate ups (ascii "..") ++ names ∧
      ascii ".." ∉ names ∧ (normalized.absolute = true → ups = 0)) ∧
    evaluate normalized.absolute normalized.parts =
      evaluate normalized.absolute (components path) ∧
    normalizePath (normalizedToString normalized) = normalized

variable {absolute : Bool} {place : Place}

namespace Place

theorem Proper.enter (proper : place.Proper absolute) {component : Bytes}
    (solid : ∀ byte ∈ component, isPathSeparator byte = false) :
    (place.enter absolute component).Proper absolute := by
  rcases proper with ⟨names, root⟩
  have fewer := @List.dropLast_subset _ place.names
  constructor <;> unfold Place.enter
  · grind [IsPart, Solid]
  · grind

theorem Proper.pushed (proper : place.Proper absolute) (component : Bytes) :
    pushPart absolute place.parts component = (place.enter absolute component).parts := by
  rcases place with ⟨ups, names⟩
  have root := proper.root
  unfold pushPart Place.enter parts
  rcases List.eq_nil_or_concat names with rfl | ⟨front, last, rfl⟩
  · cases ups <;> grind [List.replicate_succ']
  · have notUp := (proper.names last (by simp)).2.2
    split
    · rfl
    · simp [notUp, ← List.append_assoc]
      split <;> simp

theorem Proper.evaluate_parts (proper : place.Proper absolute) :
    evaluate absolute place.parts = place := by
  rcases place with ⟨ups, names⟩
  induction names using List.reverseRecOn with
  | nil =>
      induction ups with
      | zero => rfl
      | succ ups ih =>
          cases absolute with
          | true => cases proper.root rfl
          | false =>
              have earlier := ih ⟨proper.names, nofun⟩
              simp only [parts, List.append_nil, evaluate] at earlier ⊢
              rw [List.replicate_succ', List.foldl_append, earlier]
              rfl
  | append_singleton front last ih =>
      rcases proper.names last (by simp) with ⟨⟨something, -⟩, notHere, notUp⟩
      have earlier := ih ⟨fun name member => proper.names name (by simp [member]), proper.root⟩
      simp only [parts, ← List.append_assoc, evaluate] at earlier ⊢
      rw [List.foldl_append, earlier]
      simp [Place.enter, something, notHere, notUp]

end Place

theorem of_mem_splitOnP {p : UInt8 → Bool} {text piece : Bytes} (member : piece ∈ text.splitOnP p) :
    ∀ byte ∈ piece, p byte = false := by
  induction text generalizing piece with
  | nil => simp_all
  | cons byte rest ih =>
      rw [List.splitOnP_cons_eq_if_modifyHead] at member
      cases split : rest.splitOnP p with
      | nil => exact absurd split (List.splitOnP_ne_nil p rest)
      | cons head tail => grind [List.modifyHead]

theorem evaluate_components {components : List Bytes}
    (solid : ∀ component ∈ components, ∀ byte ∈ component, isPathSeparator byte = false) :
    (evaluate absolute components).Proper absolute ∧
      components.foldl (pushPart absolute) [] = (evaluate absolute components).parts := by
  induction components using List.reverseRecOn with
  | nil => exact ⟨⟨nofun, fun _ => rfl⟩, rfl⟩
  | append_singleton earlier last ih =>
      rcases ih fun component member => solid component (List.mem_append_left _ member) with
        ⟨proper, same⟩
      rw [evaluate, List.foldl_append, List.foldl_append, same]
      exact ⟨proper.enter (solid last (by simp)), proper.pushed last⟩

/-- The text of the parts. -/
def joined : List Bytes → Bytes
  | [] => []
  | first :: later => first ++ later.flatMap (47 :: ·)

variable {parts : List Bytes}

/-- A separator is due after a part. -/
def Due (text : Bytes) : Prop :=
  text ≠ [] ∧ text.getLast? ≠ some 47

theorem Solid.due {part : Bytes} (solid : Solid part) (text : Bytes) : Due (text ++ part) := by
  refine ⟨by simp [solid.1], ?_⟩
  rw [List.getLast?_append_of_ne_nil _ solid.1]
  intro last
  cases solid.2 47 (List.mem_of_mem_getLast? last)

theorem foldl_appendPart (solid : ∀ part ∈ parts, Solid part) {text : Bytes} (due : Due text) :
    (parts.foldl appendPart (text, false)).1 = text ++ parts.flatMap (47 :: ·) := by
  induction parts generalizing text with
  | nil => simp
  | cons part later ih =>
      rw [List.forall_mem_cons] at solid
      rw [List.foldl_cons, appendPart, if_pos ⟨rfl, due⟩, ih solid.2 (solid.1.due _)]
      simp

theorem foldl_appendPart_start (solid : ∀ part ∈ parts, Solid part) (out : Bytes) :
    (parts.foldl appendPart (out, true)).1 = out ++ joined parts := by
  cases parts with
  | nil => simp [joined]
  | cons part later =>
      rw [List.forall_mem_cons] at solid
      rw [List.foldl_cons, appendPart, if_neg (by simp), foldl_appendPart solid.2 (solid.1.due _)]
      simp [joined]

theorem splitOnP_joined (solid : ∀ part ∈ parts, Solid part) (nonempty : parts ≠ []) :
    (joined parts).splitOnP isPathSeparator = parts := by
  cases parts with
  | nil => exact absurd rfl nonempty
  | cons first later =>
      induction later generalizing first with
      | nil => simpa [joined] using List.splitOnP_eq_singleton (solid first (by simp)).2
      | cons second others ih =>
          rw [List.forall_mem_cons] at solid
          have split := List.splitOnP_append_cons_of_forall_mem solid.1.2 47 (by decide)
            (joined (second :: others))
          rw [ih second solid.2 (by simp)] at split
          simpa [joined] using split

theorem Place.Proper.solid (proper : place.Proper absolute) : ∀ part ∈ place.parts, Solid part := by
  intro part member
  rcases List.mem_append.mp member with up | name
  · rw [List.eq_of_mem_replicate up]
    exact ⟨by decide +kernel, by decide +kernel⟩
  · exact (proper.names part name).1

theorem Place.Proper.read (proper : place.Proper absolute) {text drive : Bytes}
    (split : splitDrive text = (drive, (if absolute then [47] else []) ++ joined place.parts)) :
    normalizePath text = ⟨drive, absolute, place.parts⟩ := by
  have again := (evaluate_components fun part member => (proper.solid part member).2).2.trans
    (congrArg parts proper.evaluate_parts)
  have folded : ((joined place.parts).splitOnP isPathSeparator).foldl (pushPart absolute) [] =
      place.parts := by
    cases shape : place.parts with
    | nil => rfl
    | cons first later => rw [splitOnP_joined (shape ▸ proper.solid) (by simp), ← shape, again]
  have rooted : isAbsolute text = absolute := by
    rw [isAbsolute, split]
    cases absolute with
    | true => rfl
    | false =>
        cases shape : place.parts with
        | nil => rfl
        | cons first later =>
            rcases proper.solid first (by simp [shape]) with ⟨something, free⟩
            rcases List.exists_cons_of_ne_nil something with ⟨byte, others, rfl⟩
            simp [joined, free byte]
  have behind : (components text).foldl (pushPart absolute) [] = place.parts := by
    rw [components, split]
    cases absolute with
    | true => exact folded
    | false => exact folded
  rw [normalizePath, rooted, behind, split]

theorem splitDrive_eq (path : Bytes) :
    splitDrive path = ([], path) ∨ ∃ letter rest, isAlpha letter = true ∧
      path = letter :: 58 :: rest ∧ splitDrive path = ([letter, 58], rest) := by
  unfold splitDrive
  split <;> grind

/-- A relative path leads to a place whose first part begins with a letter and a colon. -/
def LooksLikeDrive (path : Bytes) : Prop :=
  (splitDrive path).1 = [] ∧ isAbsolute path = false ∧
    ∃ first ∈ (evaluate (isAbsolute path) (components path)).parts.head?,
      (splitDrive first).1 ≠ []

theorem splitDrive_joined (solid : ∀ part ∈ parts, Solid part) :
    (splitDrive (joined parts)).1 ≠ [] ↔ ∃ first ∈ parts.head?, (splitDrive first).1 ≠ [] := by
  cases parts with
  | nil => simp [joined, splitDrive]
  | cons first later =>
      rcases List.exists_cons_of_ne_nil (solid first (by simp)).1 with ⟨letter, rest, rfl⟩
      cases rest with
      | nil => cases later <;> simp [joined, splitDrive]
      | cons colon rest =>
          by_cases same : colon = 58
          · by_cases alpha : isAlpha letter <;> simp [joined, splitDrive, same, alpha]
          · simp [joined, splitDrive, same]

/-- Normalizing again changes nothing unless the first part reads as a drive. -/
theorem Place.Proper.back_iff (proper : place.Proper absolute) (path : Bytes) :
    normalizePath (normalizedToString ⟨(splitDrive path).1, absolute, place.parts⟩) =
        ⟨(splitDrive path).1, absolute, place.parts⟩ ↔
      ¬((splitDrive path).1 = [] ∧ absolute = false ∧
        (splitDrive (joined place.parts)).1 ≠ []) := by
  have text := foldl_appendPart_start proper.solid
  rcases splitDrive_eq path with split | ⟨letter, rest, alpha, -, split⟩
  · simp only [split]
    cases absolute with
    | true =>
        have back : splitDrive (47 :: joined place.parts) = ([], 47 :: joined place.parts) := by
          grind [splitDrive_eq (47 :: joined place.parts), isAlpha]
        simp [normalizedToString, text, proper.read back]
    | false =>
        by_cases empty : joined place.parts = []
        · have none : place.parts = [] := by
            cases shape : place.parts with
            | nil => rfl
            | cons first later =>
                cases (proper.solid first (by simp [shape])).1 (by simp_all [joined])
          rw [none]
          exact ⟨fun _ looks => looks.2.2 rfl, fun _ => by decide⟩
        · rcases splitDrive_eq (joined place.parts) with back | ⟨letter, rest, -, -, back⟩
          · simp [normalizedToString, text, empty, back, proper.read back]
          · simp [normalizedToString, text, empty, back, normalizePath]
  · have back : ∀ rest, splitDrive (letter :: 58 :: rest) = ([letter, 58], rest) := by
      simp [splitDrive, alpha]
    simp [split, normalizedToString, text, proper.read (back _)]

end Corouv.Fs
