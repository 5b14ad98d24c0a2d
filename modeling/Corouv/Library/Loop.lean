import Mathlib.Data.Nat.Basic

/-!
# Fuelled loops over stateful computations that may throw

`EStateM ε σ` keeps its state when it throws, exactly as a C++ coroutine does.
A source loop is one body that either leaves with a value or goes round again.
`loop` runs such a body a bounded number of times, and the two rules below are
the only facts about it the rest of the development needs: a total-correctness
rule with a variant, and a safety rule for runs cut off after any number of
turns.
-/

namespace Library

variable {ε σ α β : Type}

/-- The verdict of one pass through a loop body. -/
inductive Turn (β α : Type) where
  | done (value : α)
  | again (next : β)

/-- Run `body` until it is done; `stuck` is thrown when the fuel runs out. -/
def loop (stuck : ε) (body : β → EStateM ε σ (Turn β α)) : ℕ → β → EStateM ε σ α
  | 0, _ => throw stuck
  | fuel + 1, entry => do
      match ← body entry with
      | .done value => pure value
      | .again next => loop stuck body fuel next

theorem run_throw_error (error : ε) (state : σ) :
    (throw error : EStateM ε σ α).run state = .error error state :=
  rfl

variable {body : β → EStateM ε σ (Turn β α)} {stuck : ε} {entry : β} {state state' : σ}

theorem loop_run_done {value : α} (fuel : ℕ)
    (turn : (body entry).run state = .ok (.done value) state') :
    (loop stuck body (fuel + 1) entry).run state = .ok value state' := by
  simp only [loop, EStateM.run_bind, turn, EStateM.run_pure]

theorem loop_run_again {next : β} (fuel : ℕ)
    (turn : (body entry).run state = .ok (.again next) state') :
    (loop stuck body (fuel + 1) entry).run state = (loop stuck body fuel next).run state' := by
  simp [loop, turn]

theorem loop_run_error {error : ε} (fuel : ℕ)
    (turn : (body entry).run state = .error error state') :
    (loop stuck body (fuel + 1) entry).run state = .error error state' := by
  simp [loop, turn]

theorem loop_run_of_le {fuel more : ℕ} {value : α}
    (ran : (loop stuck body fuel entry).run state = .ok value state') (le : fuel ≤ more) :
    (loop stuck body more entry).run state = .ok value state' := by
  induction fuel generalizing more entry state with
  | zero => cases ran
  | succ fuel ih =>
      rcases Nat.exists_eq_succ_of_ne_zero (by omega : more ≠ 0) with ⟨more, rfl⟩
      cases outcome : (body entry).run state with
      | error _ _ =>
          rw [loop_run_error fuel outcome] at ran
          cases ran
      | ok verdict _ =>
          cases verdict with
          | done _ =>
              rw [loop_run_done fuel outcome] at ran
              rw [loop_run_done more outcome, ran]
          | again _ =>
              rw [loop_run_again fuel outcome] at ran
              rw [loop_run_again more outcome]
              exact ih ran (by omega)

/-- What one turn of a loop may do: finish in `post`, throw in `post`, or
re-establish `again` for the next turn. -/
def Turn.Meets (again : β → σ → Prop) (post : EStateM.Result ε σ α → Prop) :
    EStateM.Result ε σ (Turn β α) → Prop
  | .ok (.done value) state => post (.ok value state)
  | .ok (.again next) state => again next state
  | .error error state => post (.error error state)

theorem Turn.Meets.loop {again : β → σ → Prop} {post : EStateM.Result ε σ α → Prop} {fuel : ℕ}
    (met : Turn.Meets again post ((body entry).run state))
    (later : ∀ next state', again next state' → post ((loop stuck body fuel next).run state')) :
    post ((loop stuck body (fuel + 1) entry).run state) := by
  cases outcome : (body entry).run state with
  | error _ _ =>
      rw [loop_run_error fuel outcome]
      rwa [outcome] at met
  | ok verdict _ =>
      rw [outcome] at met
      cases verdict with
      | done _ =>
          rw [loop_run_done fuel outcome]
          exact met
      | again _ =>
          rw [loop_run_again fuel outcome]
          exact later _ _ met

/-- Total correctness: an invariant kept by every turn, with a rank that every
further turn lowers, brings the loop to its postcondition. -/
theorem loop_ranked (invariant : ℕ → β → σ → Prop) (post : EStateM.Result ε σ α → Prop)
    (turn : ∀ rank entry state, invariant rank entry state →
      Turn.Meets (fun next state' => ∃ lower < rank, invariant lower next state') post
        ((body entry).run state)) :
    ∀ (fuel rank : ℕ) (entry : β) (state : σ), invariant rank entry state →
      rank < fuel → post ((loop stuck body fuel entry).run state) := by
  intro fuel
  induction fuel with
  | zero =>
      intro rank entry state _ below
      exact absurd below (Nat.not_lt_zero _)
  | succ fuel ih =>
      intro rank entry state holds _
      apply (turn rank entry state holds).loop
      rintro next state' ⟨lower, _, kept⟩
      exact ih lower next state' kept (by omega)

theorem Turn.Meets.mono {again again' : β → σ → Prop} {post : EStateM.Result ε σ α → Prop}
    {result : EStateM.Result ε σ (Turn β α)} (met : Turn.Meets again post result)
    (weaker : ∀ next state, again next state → again' next state) :
    Turn.Meets again' post result := by
  cases result with
  | error _ state => exact met
  | ok verdict state =>
      cases verdict with
      | done _ => exact met
      | again next => exact weaker next state met

/-- `loop_ranked` for a rank that can be read off the state. -/
theorem loop_total (invariant : β → σ → Prop) (variant : β → σ → ℕ)
    (post : EStateM.Result ε σ α → Prop)
    (turn : ∀ entry state, invariant entry state →
      Turn.Meets (fun next state' => invariant next state' ∧
        variant next state' < variant entry state) post ((body entry).run state)) :
    ∀ (fuel : ℕ) (entry : β) (state : σ), invariant entry state →
      variant entry state < fuel → post ((loop stuck body fuel entry).run state) := by
  intro fuel entry state holds below
  apply loop_ranked (fun rank entry state => invariant entry state ∧ variant entry state = rank)
    post _ fuel (variant entry state) entry state ⟨holds, rfl⟩ below
  rintro _ entry state ⟨holds, rfl⟩
  apply (turn entry state holds).mono
  rintro next state' ⟨kept, less⟩
  exact ⟨variant next state', less, kept, rfl⟩

/-- Safety: an invariant kept by every turn holds wherever the loop is cut off. -/
theorem loop_safe (invariant : β → σ → Prop) (post : EStateM.Result ε σ α → Prop)
    (cutOff : ∀ entry state, invariant entry state → post (.error stuck state))
    (turn : ∀ entry state, invariant entry state →
      Turn.Meets invariant post ((body entry).run state)) :
    ∀ (fuel : ℕ) (entry : β) (state : σ), invariant entry state →
      post ((loop stuck body fuel entry).run state) := by
  intro fuel
  induction fuel with
  | zero =>
      intro entry state holds
      exact cutOff entry state holds
  | succ fuel ih =>
      intro entry state holds
      exact (turn entry state holds).loop ih

/-- The state in which a computation ends, whether it returns or throws. -/
def endState : EStateM.Result ε σ α → σ
  | .ok _ state => state
  | .error _ state => state

section Related

variable (related : σ → σ → Prop) (refl : ∀ state, related state state)
  (trans : ∀ first second third, related first second → related second third → related first third)
  (turn : ∀ entry state, related state (endState ((body entry).run state)))

include refl trans turn

/-- A relation that every turn keeps to its start holds at the end of the loop. -/
theorem loop_related (fuel : ℕ) (entry : β) (state : σ) :
    related state (endState ((loop stuck body fuel entry).run state)) := by
  apply loop_safe (fun _ later => related state later)
    (fun result => related state (endState result))
  · intro _ later reached
    exact reached
  · intro entry later reached
    have next := trans _ _ _ reached (turn entry later)
    cases outcome : (body entry).run later with
    | error _ _ =>
        rw [outcome] at next
        exact next
    | ok verdict _ =>
        rw [outcome] at next
        cases verdict with
        | done _ | again _ => exact next
  · exact refl state

theorem endState_loop_of_turn (stuck : ε) (fuel : ℕ) (entry : β) (state : σ) :
    related (endState ((body entry).run state))
      (endState ((loop stuck body (fuel + 1) entry).run state)) := by
  cases outcome : (body entry).run state with
  | error _ state' =>
      rw [loop_run_error fuel outcome]
      exact refl state'
  | ok verdict state' =>
      cases verdict with
      | done _ =>
          rw [loop_run_done fuel outcome]
          exact refl state'
      | again next =>
          rw [loop_run_again fuel outcome]
          exact loop_related related refl trans turn fuel next state'

end Related

/-- A recursion on fuel does not depend on it while it covers the size of the input, if it
calls itself on smaller inputs only. -/
theorem fuel_congr {ι : Type} (run : ℕ → ι → α) (size : ι → ℕ)
    (unfolds : ∀ fuel fuel' input,
      (∀ smaller, size smaller < size input → run fuel smaller = run fuel' smaller) →
        run (fuel + 1) input = run (fuel' + 1) input) :
    ∀ (fuel fuel' : ℕ) (input : ι), size input < fuel → size input < fuel' →
      run fuel input = run fuel' input := by
  intro fuel
  induction fuel with
  | zero =>
      intro fuel' _ enough
      exact absurd enough (Nat.not_lt_zero _)
  | succ _ ih =>
      intro fuel' _ _ enough'
      cases fuel' with
      | zero => exact absurd enough' (Nat.not_lt_zero _)
      | succ fuel' =>
          apply unfolds
          intro smaller _
          exact ih fuel' smaller (by omega) (by omega)

end Library
