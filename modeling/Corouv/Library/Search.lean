import Mathlib.Data.List.Basic
import Mathlib.Tactic.Common

/-!
# Searching a list for a sublist

`find` is the first position at which a needle starts, as `std::string::find`
reports it.  The lemmas relate a search in an initial segment to a search in the
whole list: what is found early stays found at the same place, and what is found
within a segment is found by looking at that segment alone.  This is what makes
a reader that sees its input piece by piece agree with one that sees all of it.
-/

namespace Library

variable {α : Type} [DecidableEq α]

/-- The first position at which `needle` starts in the list. -/
def find (needle : List α) : List α → Option ℕ
  | [] => if needle = [] then some 0 else none
  | head :: tail =>
      if needle <+: head :: tail then some 0 else (find needle tail).map (· + 1)

variable {hay needle : List α} {position : ℕ}

/-- `find` gives the first position at which the needle stands. -/
theorem find_eq_some_iff :
    find needle hay = some position ↔
      needle <+: hay.drop position ∧ position ≤ hay.length ∧
        ∀ earlier < position, ¬needle <+: hay.drop earlier := by
  induction hay generalizing position with
  | nil =>
      by_cases empty : needle = []
      · simp only [find, if_pos empty, Option.some.injEq]
        constructor
        · rintro rfl
          simp [empty]
        · rintro ⟨-, bound, -⟩
          simpa [eq_comm] using bound
      · simp [find, empty]
  | cons head tail ih =>
      by_cases here : needle <+: head :: tail
      · simp only [find, if_pos here, Option.some.injEq]
        constructor
        · rintro rfl
          simpa using here
        · rintro ⟨-, -, earlier⟩
          by_contra different
          exact earlier 0 (by omega) (by simpa using here)
      · simp only [find, if_neg here, Option.map_eq_some_iff]
        constructor
        · rintro ⟨_, found, rfl⟩
          obtain ⟨starts, bound, first⟩ := ih.mp found
          refine ⟨by simpa using starts, by simpa using bound, ?_⟩
          intro earlier _
          rcases earlier with _ | earlier
          · simpa using here
          · simpa using first earlier (by omega)
        · rintro ⟨starts, bound, first⟩
          rcases position with _ | position
          · exact absurd (by simpa using starts) here
          · refine ⟨position, ih.mpr ⟨by simpa using starts, by simpa using bound, ?_⟩, rfl⟩
            intro earlier _
            simpa using first (earlier + 1) (by omega)

theorem find_eq_none_iff :
    find needle hay = none ↔ ∀ position ≤ hay.length, ¬needle <+: hay.drop position := by
  induction hay with
  | nil => simp [find]
  | cons head tail ih =>
      by_cases here : needle <+: head :: tail
      · simp only [find, if_pos here, reduceCtorEq, false_iff, not_forall, not_not]
        exact ⟨0, by simp, by simpa using here⟩
      · simp only [find, if_neg here, Option.map_eq_none_iff, ih]
        constructor
        · intro absent position bound
          rcases position with _ | position
          · simpa using here
          · simpa using absent position (by simpa using bound)
        · intro absent position bound
          simpa using absent (position + 1) (by simpa using bound)

theorem find_add_length_le (found : find needle hay = some position) :
    position + needle.length ≤ hay.length := by
  obtain ⟨starts, bound, -⟩ := find_eq_some_iff.mp found
  have fits := starts.length_le
  simp only [List.length_drop] at fits
  omega

omit [DecidableEq α] in
private theorem isPrefix_drop_take_iff {needle hay : List α} {position bound : ℕ}
    (fits : position + needle.length ≤ bound) :
    needle <+: (hay.take bound).drop position ↔ needle <+: hay.drop position := by
  rw [List.drop_take]
  constructor
  · exact fun starts => starts.trans (List.take_prefix _ _)
  · intro starts
    refine List.prefix_of_prefix_length_le starts (List.take_prefix _ _) ?_
    have short := starts.length_le
    simp only [List.length_take, List.length_drop] at short ⊢
    omega

/-- Searching an initial segment finds what the whole list shows there, and
nothing else. -/
theorem find_take_eq_some_iff {bound : ℕ} (nonempty : needle ≠ []) :
    find needle (hay.take bound) = some position ↔
      find needle hay = some position ∧ position + needle.length ≤ bound := by
  have positive : 0 < needle.length := List.length_pos_iff.mpr nonempty
  constructor
  · intro found
    have inside := find_add_length_le found
    simp only [List.length_take] at inside
    obtain ⟨starts, -, first⟩ := find_eq_some_iff.mp found
    refine ⟨find_eq_some_iff.mpr ⟨?_, by omega, ?_⟩, by omega⟩
    · exact (isPrefix_drop_take_iff (by omega)).mp starts
    · intro earlier below occurs
      exact first earlier below ((isPrefix_drop_take_iff (by omega)).mpr occurs)
  · rintro ⟨found, fits⟩
    have inside := find_add_length_le found
    obtain ⟨starts, -, first⟩ := find_eq_some_iff.mp found
    refine find_eq_some_iff.mpr ⟨?_, by simp only [List.length_take]; omega, ?_⟩
    · exact (isPrefix_drop_take_iff fits).mpr starts
    · intro earlier below occurs
      exact first earlier below ((isPrefix_drop_take_iff (by omega)).mp occurs)

theorem find_eq_none_of_notMem {first : α} {others : List α} (absent : first ∉ hay) :
    find (first :: others) hay = none := by
  apply find_eq_none_iff.mpr
  intro _ _ occurs
  apply absent
  exact List.mem_of_mem_drop (occurs.subset List.mem_cons_self)

theorem find_append_of_notMem {first : α} {others before after : List α}
    (absent : first ∉ before) :
    find (first :: others) (before ++ first :: others ++ after) = some before.length := by
  refine find_eq_some_iff.mpr ⟨?_, by simp, ?_⟩
  · simp
  · intro earlier below occurs
    obtain ⟨rest, shape⟩ := occurs
    have here : (before ++ first :: others ++ after)[earlier]? = some first := by
      rw [← List.head?_drop, ← shape]
      rfl
    rw [List.append_assoc, List.getElem?_append_left below] at here
    exact absent (List.mem_of_getElem? here)

theorem take_find_singleton (item : α) (hay : List α) :
    hay.take ((find [item] hay).getD hay.length) = hay.takeWhile fun other => other ≠ item := by
  induction hay with
  | nil => rfl
  | cons head tail ih =>
      by_cases here : head = item
      · simp [find, here]
      · have later : ¬[item] <+: head :: tail := by
          intro starts
          exact here (List.cons_prefix_cons.mp starts).1.symm
        rw [find, if_neg later, List.takeWhile_cons_of_pos (by simpa using here), ← ih]
        cases find [item] tail with
        | none | some position => rfl

theorem find_split (nonempty : needle ≠ []) (found : find needle hay = some position) :
    hay = hay.take position ++ (needle ++ hay.drop (position + needle.length)) ∧
      ¬needle <:+: hay.take position := by
  rcases find_eq_some_iff.mp found with ⟨⟨_, shape⟩, -, -⟩
  constructor
  · rw [← List.drop_drop, ← shape, List.drop_left, shape, List.take_append_drop]
  · rintro ⟨front, _, split⟩
    have bound := congrArg List.length split
    have inside := find_add_length_le found
    cases early : find needle (hay.take position) with
    | none =>
        apply find_eq_none_iff.mp early front.length
        · rw [← split]
          simp
        · rw [← split, List.append_assoc, List.drop_left]
          exact List.prefix_append _ _
    | some _ =>
        rcases (find_take_eq_some_iff nonempty).mp early with ⟨same, _⟩
        have positive := List.length_pos_iff.mpr nonempty
        cases found.symm.trans same
        omega

section Single

variable {first : α} {others before after : List α}

omit [DecidableEq α] in
/-- An occurrence that starts in the first of two lists lies within it, or the second one
goes on with an element of the needle that is not the first. -/
theorem isPrefix_append_cases {back : List α} (nonempty : before ≠ [])
    (occurs : first :: others <+: before ++ back) :
    first :: others <+: before ∨ ∃ next ∈ back.head?, next ∈ others := by
  rcases List.prefix_or_prefix_of_prefix occurs (List.prefix_append before back) with
    inside | ⟨rest, split⟩
  · exact .inl inside
  · cases rest with
    | nil =>
        have same : before = first :: others := (List.append_nil before).symm.trans split
        exact .inl ⟨[], (List.append_nil _).trans same.symm⟩
    | cons next later =>
        right
        refine ⟨next, ?_, ?_⟩
        · rw [← split] at occurs
          have goesOn : next :: later <+: back := (List.prefix_append_right_inj before).mp occurs
          rcases goesOn with ⟨_, rfl⟩
          rfl
        · cases before with
          | nil => exact absurd rfl nonempty
          | cons _ _ =>
              rw [List.cons_append, List.cons.injEq] at split
              rw [← split.2]
              simp

theorem find_eq_none_iff_absent {needle hay : List α} :
    find needle hay = none ↔ ¬needle <:+: hay := by
  rw [find_eq_none_iff]
  constructor
  · rintro absent ⟨front, _, rfl⟩
    apply absent front.length (by simp)
    rw [List.append_assoc, List.drop_left]
    exact List.prefix_append _ _
  · intro absent position _ occurs
    exact absent (occurs.isInfix.trans (List.drop_suffix position hay).isInfix)

theorem find_append_of_absent (single : first ∉ others)
    (absent : ¬first :: others <:+: before) (after : List α) :
    find (first :: others) (before ++ (first :: others ++ after)) = some before.length := by
  refine find_eq_some_iff.mpr ⟨?_, by simp, ?_⟩
  · rw [List.drop_left]
    exact List.prefix_append _ _
  · intro earlier below occurs
    rw [List.drop_append_of_le_length (Nat.le_of_lt below)] at occurs
    have nonempty : before.drop earlier ≠ [] := by
      simpa using below
    rcases isPrefix_append_cases nonempty occurs with inside | ⟨_, starts, again⟩
    · exact absent (inside.isInfix.trans (List.drop_suffix earlier before).isInfix)
    · cases starts
      exact single again

theorem not_infix_append (absent : ¬first :: others <:+: before) (never : first ∉ after)
    (apart : ∀ next ∈ after.head?, next ∉ others) : ¬first :: others <:+: before ++ after := by
  rw [← find_eq_none_iff_absent, find_eq_none_iff]
  intro position _ occurs
  by_cases inside : position < before.length
  · rw [List.drop_append_of_le_length (Nat.le_of_lt inside)] at occurs
    have nonempty : before.drop position ≠ [] := by
      simpa using inside
    rcases isPrefix_append_cases nonempty occurs with within | ⟨next, starts, again⟩
    · exact absent (within.isInfix.trans (List.drop_suffix position before).isInfix)
    · exact apart next starts again
  · rw [List.drop_append, List.drop_of_length_le (by omega), List.nil_append] at occurs
    exact never (List.mem_of_mem_drop (occurs.subset List.mem_cons_self))

end Single

theorem find_eq_map_find_drop {needle : List α} (bound : ℕ) :
    ∀ {hay : List α}, bound ≤ hay.length →
      (∀ earlier < bound, ¬needle <+: hay.drop earlier) →
      find needle hay = (find needle (hay.drop bound)).map (· + bound) := by
  induction bound with
  | zero => simp
  | succ _ ih =>
      intro hay fits absent
      cases hay with
      | nil => simp at fits
      | cons head tail =>
          have here : ¬needle <+: head :: tail := by simpa using absent 0 (by omega)
          have later := @ih tail (by simpa using fits) fun earlier below => by
            simpa using absent (earlier + 1) (by omega)
          rw [find, if_neg here, later, Option.map_map, List.drop_succ_cons]
          rfl

theorem find_double {first : α} {others hay : List α} {position : ℕ} (single : first ∉ others)
    (found : find (first :: others) hay = some position)
    (once : ¬first :: others <+: hay.drop (position + (first :: others).length)) :
    find (first :: others ++ first :: others) hay =
      (find (first :: others ++ first :: others)
        (hay.drop (position + (first :: others).length))).map
          (· + (position + (first :: others).length)) := by
  apply find_eq_map_find_drop _ (find_add_length_le found)
  intro earlier below occurs
  rcases find_eq_some_iff.mp found with ⟨⟨rest, shape⟩, -, absent⟩
  have starts : first :: others <+: hay.drop earlier := (List.prefix_append _ _).trans occurs
  rcases Nat.lt_trichotomy earlier position with before | rfl | _
  · exact absent earlier before starts
  · apply once
    rw [← List.drop_drop, ← shape, List.drop_left]
    rw [← shape] at occurs
    exact (List.prefix_append_right_inj _).mp occurs
  · -- What stands between is the rest of the needle.
    have inner : hay.drop earlier = (others.drop (earlier - position - 1)) ++ rest := by
      have split : earlier = position + (earlier - position - 1 + 1) := by omega
      rw [split, ← List.drop_drop, ← shape, List.cons_append, List.drop_succ_cons,
        List.drop_append_of_le_length]
      · congr 2
        omega
      · simp only [List.length_cons] at below
        omega
    rw [inner] at starts
    cases between : others.drop (earlier - position - 1) with
    | nil =>
        have short := List.drop_eq_nil_iff.mp between
        simp only [List.length_cons] at below
        omega
    | cons next _ =>
        rw [between] at starts
        have same : first = next := (List.cons_prefix_cons.mp starts).1
        apply single
        rw [same]
        exact List.mem_of_mem_drop (between ▸ List.mem_cons_self)

end Library
