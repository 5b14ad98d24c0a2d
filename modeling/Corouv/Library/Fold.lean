import Mathlib.Data.List.Basic

/-!
# Computations that may fail, over the pieces of a list

The pieces of a list between separators, results that are not a failure, and folds whose
steps may fail.
-/

namespace Library

section Pieces

variable {α : Type} [DecidableEq α] {separator : α}

theorem of_mem_splitOn {items piece : List α} (member : piece ∈ items.splitOn separator) :
    separator ∉ piece ∧ piece <:+: items := by
  induction size : items.length using Nat.strongRecOn generalizing items with
  | ind length ih =>
      by_cases present : separator ∈ items
      · rcases List.eq_append_cons_of_mem present with ⟨front, back, rfl, absent⟩
        rw [List.splitOn_append_cons_self_of_not_mem absent] at member
        rcases List.mem_cons.mp member with rfl | later
        · exact ⟨absent, (List.prefix_append _ _).isInfix⟩
        · have shorter : back.length < length := by
            rw [List.length_append, List.length_cons] at size
            omega
          rcases ih back.length shorter later rfl with ⟨apart, inside⟩
          refine ⟨apart, inside.trans ?_⟩
          exact ((List.suffix_cons separator back).trans (List.suffix_append front _)).isInfix
      · rw [List.splitOn_eq_singleton present, List.mem_singleton] at member
        subst member
        exact ⟨present, List.infix_rfl⟩

end Pieces

section Results

variable {α β ε : Type}

theorem except_map_eq_ok {result : Except ε α} {change : α → β} {value : β} :
    result.map change = .ok value ↔ ∃ given, result = .ok given ∧ change given = value := by
  cases result with
  | error _ | ok _ => simp [Except.map]

theorem except_bind_eq_ok {result : Except ε α} {next : α → Except ε β} {value : β} :
    (result >>= next) = .ok value ↔ ∃ given, result = .ok given ∧ next given = .ok value := by
  cases result with
  | error _ | ok _ => simp [bind, Except.bind]

end Results

section Fold

variable {α ε σ : Type} {step : σ → α → Except ε σ}

/-- What every step keeps holds when the fold has not failed. -/
theorem foldlM_invariant (invariant : σ → Prop) {items : List α}
    (kept : ∀ {state state' item}, item ∈ items → invariant state →
      step state item = .ok state' → invariant state') :
    ∀ {start final : σ}, invariant start → items.foldlM step start = .ok final →
      invariant final := by
  induction items with
  | nil =>
      intro _ _ holds folded
      cases folded
      exact holds
  | cons item _ ih =>
      intro _ _ holds folded
      rcases except_bind_eq_ok.mp folded with ⟨_, stepped, later⟩
      apply ih
      · intro _ _ _ member
        exact kept (List.mem_cons_of_mem item member)
      · exact kept List.mem_cons_self holds stepped
      · exact later

theorem foldlM_error {items : List α} {error : ε} :
    ∀ {start : σ}, items.foldlM step start = .error error →
      ∃ state item, step state item = .error error := by
  induction items with
  | nil =>
      intro start failed
      cases failed
  | cons item _ ih =>
      intro start failed
      rw [List.foldlM_cons] at failed
      cases first : step start item with
      | error _ =>
          rw [first] at failed
          cases failed
          exact ⟨start, item, first⟩
      | ok _ =>
          rw [first] at failed
          exact ih failed

end Fold

end Library
