import Corouv.Base

/-!
# Task groups

`TaskGroup::State` and the operations on it, each of which runs under its mutex.  The
`CancellationSource` is the flag it is asked for, and the `ManualResetEvent` is whether
it is set.  The first child that ends with an exception cancels the group.
-/

namespace Corouv

structure TaskGroup where
  canceled : Bool := false
  drained : Bool := true
  pending : ℕ := 0
  firstError : Option Exn := none
  deriving DecidableEq, Repr

def Exn.isSignal : Exn → Bool
  | .signal => true
  | _ => false

namespace TaskGroup

/-- `spawn` up to the start of the child; `none` where it returns `false`. -/
def spawn (group : TaskGroup) : Option TaskGroup :=
  if group.canceled then none
  else some { group with
    drained := if group.pending = 0 then false else group.drained
    pending := group.pending + 1 }

/-- A child has ended, with an exception or without. -/
def finish (group : TaskGroup) (outcome : Option Exn) : TaskGroup :=
  let shouldCancel := outcome.isSome && group.firstError.isNone &&
    !(group.canceled && outcome.any Exn.isSignal)
  let pending := group.pending - 1
  { canceled := group.canceled || shouldCancel
    drained := group.drained || decide (pending = 0)
    pending := pending
    firstError := if shouldCancel then outcome else group.firstError }

def cancel (group : TaskGroup) : TaskGroup :=
  { group with canceled := true }

theorem canceled_finish_none (group : TaskGroup) :
    (group.finish none).canceled = group.canceled := by
  simp [finish]

theorem canceled_of_spawn {group group' : TaskGroup} (spawned : group.spawn = some group') :
    group'.canceled = false := by
  simp only [spawn] at spawned
  split at spawned
  · cases spawned
  next alive =>
    cases spawned
    simpa using alive

end TaskGroup

/-- What happens to a group on the loop thread. -/
inductive GroupAction
  | spawn
  | finish (outcome : Option Exn)
  | cancel
  | wait

namespace TaskGroup

/-- What is left of `wait` once the event lets it go on. -/
def wait (group : TaskGroup) : Option Exn × TaskGroup :=
  (group.firstError, { group with firstError := none })

def act (group : TaskGroup) : GroupAction → TaskGroup
  | .spawn => group.spawn.getD group
  | .finish outcome => group.finish outcome
  | .cancel => group.cancel
  | .wait => group.wait.2

/-- A history has its latest action first. -/
def after : List GroupAction → TaskGroup
  | [] => {}
  | action :: earlier => (after earlier).act action

/-- Cancellation was requested, by a call or by a child that failed. -/
def requested (history : List GroupAction) : Bool :=
  history.any fun action => action matches .cancel | .finish (some _)

/-- The errors since the latest `wait` that are no answers to the cancellation. -/
def outstanding : List GroupAction → List Exn
  | [] | .wait :: _ => []
  | .finish (some error) :: earlier =>
      if error.isSignal && requested earlier then outstanding earlier
      else outstanding earlier ++ [error]
  | _ :: earlier => outstanding earlier

/-- `wait` rethrows the first outstanding error, and the group takes no child once cancellation
was requested. -/
theorem wait_rethrows_first (history : List GroupAction) :
    (after history).wait.1 = (outstanding history).head? ∧
      (after history).canceled = requested history ∧
      (outstanding history ≠ [] → requested history = true) := by
  induction history with
  | nil => simp [after, wait, requested, outstanding]
  | cons action earlier ih =>
      rcases ih with ⟨first, canceled, late⟩
      rw [after]
      cases action with
      | spawn =>
          simp only [act, spawn]
          split
          · exact ⟨first, canceled, late⟩
          · exact ⟨first, canceled, late⟩
      | cancel => exact ⟨first, rfl, fun _ => rfl⟩
      | wait => exact ⟨rfl, canceled, fun some => absurd rfl some⟩
      | finish outcome =>
          cases outcome with
          | none => exact ⟨first, (canceled_finish_none _).trans canceled, late⟩
          | some error =>
              have first : (after earlier).firstError = (outstanding earlier).head? := first
              have requests : requested (.finish (some error) :: earlier) = true := rfl
              simp only [act, finish, wait, outstanding, first, canceled, requests,
                Option.isSome_some, Option.any_some, Bool.true_and,
                Bool.and_comm (requested earlier)]
              cases pending : outstanding earlier with
              | cons _ _ => simp [late (by simp [pending]), apply_ite]
              | nil =>
                  cases answers : error.isSignal && requested earlier with
                  | true => simp [(Bool.and_eq_true_iff.mp answers).2]
                  | false => simp

end TaskGroup

end Corouv
