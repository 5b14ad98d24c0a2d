import Mathlib.Data.List.Basic

/-!
# Runs of a transition system

A system is a step function that is undefined where an event cannot happen.
`Reached` is what steps meeting a guard lead to; a property of every such state is
proved by an invariant, and a single run is exhibited by following its events.
-/

namespace Library

variable {σ ℓ : Type} {step : σ → ℓ → Option σ} {guard : σ → ℓ → Prop} {start state : σ}

inductive Reached (step : σ → ℓ → Option σ) (guard : σ → ℓ → Prop) (start : σ) : σ → Prop
  | start : Reached step guard start start
  | step {state state' : σ} {event : ℓ} (earlier : Reached step guard start state)
      (allowed : guard state event) (taken : step state event = some state') :
      Reached step guard start state'

theorem Reached.invariant {invariant : σ → Prop} (reached : Reached step guard start state)
    (initial : invariant start)
    (kept : ∀ state event state', invariant state → guard state event →
      step state event = some state' → invariant state') : invariant state := by
  induction reached with
  | start => exact initial
  | step _ allowed taken ih => exact kept _ _ _ ih allowed taken

theorem Reached.mono {guard' : σ → ℓ → Prop} (reached : Reached step guard start state)
    (weaker : ∀ state event, guard state event → guard' state event) :
    Reached step guard' start state := by
  induction reached with
  | start => exact .start
  | step _ allowed taken ih => exact .step ih (weaker _ _ allowed) taken

/-- The state behind a list of events, if each of them meets the guard and can happen in
turn. -/
def follow (step : σ → ℓ → Option σ) (guard : σ → ℓ → Prop)
    [∀ state event, Decidable (guard state event)] : σ → List ℓ → Option σ
  | state, [] => some state
  | state, event :: later =>
      if guard state event then
        (step state event).bind fun state' => follow step guard state' later
      else none

section

variable [∀ state event, Decidable (guard state event)] {events : List ℓ} {final : σ}

theorem Reached.follow (earlier : Reached step guard start state)
    (followed : Library.follow step guard state events = some final) :
    Reached step guard start final := by
  induction events generalizing state with
  | nil =>
      cases followed
      exact earlier
  | cons event _ ih =>
      simp only [Library.follow] at followed
      split at followed
      next allowed =>
        rcases Option.bind_eq_some_iff.mp followed with ⟨_, taken, rest⟩
        exact ih (.step earlier allowed taken) rest
      · cases followed

/-- A run is exhibited by its events, and what its end shows is computed. -/
theorem exists_of_follow {τ : Type} {view : σ → τ} {seen : τ}
    (followed : (follow step guard start events).map view = some seen) :
    ∃ final, follow step guard start events = some final ∧ Reached step guard start final ∧
      view final = seen := by
  rcases Option.map_eq_some_iff.mp followed with ⟨final, ran, shows⟩
  exact ⟨final, ran, Reached.start.follow ran, shows⟩

end

/-- The end of a run in which events that cannot happen are passed over. -/
def runOf (step : σ → ℓ → Option σ) (start : σ) (events : List ℓ) : σ :=
  events.foldl (fun state event => (step state event).getD state) start

theorem runOf_invariant {invariant : σ → Prop} (initial : invariant start)
    (kept : ∀ {state event state'}, invariant state → step state event = some state' →
      invariant state') (events : List ℓ) : invariant (runOf step start events) := by
  apply List.foldlRecOn events _ initial
  intro state holds event _
  cases taken : step state event with
  | none => exact holds
  | some _ => exact kept holds taken

end Library
