import Corouv.Sync.CallSteps

/-!
# Where the permits are

A permit that is not free has gone to a call that has completed or to one that is still
on its way, or it is lost: the call that was given it has thrown, or its frame has been
destroyed.  A permit is lost in two ways only.  A signal reaches a call between the
`try_acquire` of its `await_ready` and its `await_resume`, which then throws; or a
coroutine is destroyed after its waiter has been granted the permit.
-/

namespace Corouv.Sync

open Library

namespace Call

def isReturned (call : Call) : Bool :=
  call.phase == .returned

/-- The call has been given a permit and has neither completed nor failed. -/
def inFlight (call : Call) : Bool :=
  match call.phase with
  | .ready acquired => acquired
  | .continuing | .suspended => call.waiter.granted
  | _ => false

/-- The call has been given a permit and will complete. -/
def pledged (call : Call) : Bool :=
  match call.phase with
  | .ready acquired => acquired && !call.canceled
  | .continuing | .suspended => call.waiter.granted
  | _ => false

variable {call : Call}

theorem inFlight_eq_false_of_isReturned (returned : call.isReturned = true) :
    call.inFlight = false := by
  simp only [isReturned, beq_iff_eq] at returned
  simp only [inFlight, returned]

theorem pledged_eq_false_of_isReturned (returned : call.isReturned = true) :
    call.pledged = false := by
  simp only [isReturned, beq_iff_eq] at returned
  simp only [pledged, returned]

theorem obtained_of_isReturned_or_inFlight (has : (call.isReturned || call.inFlight) = true) :
    call.obtained = true := by
  cases here : call.phase <;> simp_all [isReturned, inFlight, obtained]

/-- The call has not lost a permit and is not about to. -/
structure Kept (call : Call) : Prop where
  ready : call.phase = .ready true → call.canceled = false
  threw : ∀ error, call.phase ≠ .threw true error
  destroyed : call.phase = .destroyed → call.waiter.granted = false

theorem Kept.obtained_eq (kept : call.Kept) (sound : call.Sound) :
    (call.isReturned || call.pledged) = call.obtained := by
  have early := sound.early
  cases here : call.phase with
  | ready acquired =>
      cases acquired with
      | true => simp [isReturned, pledged, obtained, here, kept.ready here]
      | false => simp [isReturned, pledged, obtained, here]
  | threw acquired error =>
      cases acquired with
      | true => exact absurd here (kept.threw error)
      | false => simp [isReturned, pledged, obtained, here]
  | destroyed => simp [isReturned, pledged, obtained, here, kept.destroyed here]
  | starting | suspending | emplaced => simp_all [isReturned, pledged, obtained, Phase.isEarly]
  | continuing | suspended | returned => simp [isReturned, pledged, obtained, here]

theorem Kept.awaitResume {failure : Exn} {resumes : ℕ} (kept : call.Kept)
    (running : (∃ acquired, call.phase = .ready acquired) ∨ call.phase = .continuing ∨
      call.phase = .suspended) : Kept { call.awaitResume failure with resumes := resumes } := by
  rcases running with ⟨acquired, here⟩ | here | here
  · cases acquired with
    | true =>
        simp only [Call.awaitResume, here, kept.ready here, Bool.false_eq_true, if_false]
        exact ⟨by simp, by simp, by simp⟩
    | false =>
        simp only [Call.awaitResume, here]
        split_ifs <;> exact ⟨by simp, by simp, by simp⟩
  all_goals
    simp only [Call.awaitResume, here]
    split_ifs <;> exact ⟨by simp, by simp, by simp⟩

end Call

namespace Lock

variable {ρ : Type} {permits : Permits ρ} {initial : ℕ} {state state' : Lock ρ} {event : Event}

/-- The acquisitions that have completed, those of `try_acquire` or `try_lock` included. -/
def completed (state : Lock ρ) : ℕ :=
  state.tried + state.calls.countP Call.isReturned

def inFlight (state : Lock ρ) : ℕ :=
  state.calls.countP Call.inFlight

def pledged (state : Lock ρ) : ℕ :=
  state.calls.countP Call.pledged

theorem isReturned_step {failure : Exn} {id : ℕ} {call call' : Call}
    (step : call.Step failure event id call') (returned : call.isReturned = true) :
    call'.isReturned = true := by
  simp only [Call.isReturned, beq_iff_eq] at returned ⊢
  cases step <;> simp_all

theorem tried_le_step (taken : state.step permits event = some state') :
    state.tried ≤ state'.tried := by
  rcases (counters_step taken).1 with same | ⟨-, more⟩ <;> omega

theorem returned_step {id : ℕ} {call : Call} (found : state.calls[id]? = some call)
    (returned : call.isReturned = true) (taken : state.step permits event = some state') :
    ∃ call', state'.calls[id]? = some call' ∧ call'.isReturned = true := by
  have after := callsAfter taken
  revert after
  generalize state'.calls = calls'
  intro after
  cases after with
  | same => exact ⟨call, found, returned⟩
  | new _ => exact ⟨call, getElem?_append_of_eq_some found _, returned⟩
  | @change other _ call₂ changed step =>
      by_cases here : other = id
      · subst here
        cases changed.symm.trans found
        exact ⟨call₂, getElem?_set_of_eq_some found _, isReturned_step step returned⟩
      · exact ⟨call, (List.getElem?_set_ne here).trans found, returned⟩

theorem completed_le_step (taken : state.step permits event = some state') :
    state.completed ≤ state'.completed := by
  have tried := tried_le_step taken
  have counted : state.calls.countP Call.isReturned ≤ state'.calls.countP Call.isReturned := by
    have after := callsAfter taken
    revert after
    generalize state'.calls = calls'
    intro after
    cases after with
    | same => exact le_rfl
    | new _ =>
        rw [List.countP_append]
        exact Nat.le_add_right _ _
    | @change _ call call' found step =>
        have counts := countP_set_add found call' Call.isReturned
        cases before : call.isReturned with
        | false =>
            rw [before, Bool.toNat_false] at counts
            omega
        | true =>
            rw [before, isReturned_step step before, Bool.toNat_true] at counts
            omega
  simp only [completed]
  omega

theorem Sound.free_add_le (sound : state.Sound permits initial) :
    permits.free state.resource + state.completed + state.inFlight ≤
      initial + state.released := by
  have split : state.calls.countP (fun call => call.isReturned || call.inFlight) =
      state.calls.countP Call.isReturned + state.calls.countP Call.inFlight :=
    countP_or_of_disjoint fun _ _ => Call.inFlight_eq_false_of_isReturned
  have fewer : state.calls.countP (fun call => call.isReturned || call.inFlight) ≤
      state.calls.countP Call.obtained :=
    List.countP_mono_left fun call _ => Call.obtained_of_isReturned_or_inFlight
  have balance := sound.balanced.balance
  simp only [completed, inFlight]
  omega

/-- No step takes a permit from a call that has one. -/
def Careful (state : Lock ρ) : Event → Prop
  | .signal id => ∀ call, state.calls[id]? = some call → call.phase ≠ .ready true
  | .destroy id => ∀ call, state.calls[id]? = some call → call.waiter.granted = false
  | _ => True

instance (state : Lock ρ) : DecidablePred state.Careful
  | .signal id =>
      inferInstanceAs (Decidable (∀ call ∈ state.calls[id]?, call.phase ≠ .ready true))
  | .destroy id =>
      inferInstanceAs (Decidable (∀ call ∈ state.calls[id]?, call.waiter.granted = false))
  | .call _ | .tryTake | .release _ | .grant | .finishRelease | .wake _ | .awaitReady _
  | .tryEmplace _ | .enqueue _ | .awaitResume _ | .handle _ | .cancelMark _ | .cancelRemove _ =>
      isTrue trivial

/-- No call loses its permit in a careful step. -/
theorem kept_step (sound : state.Sound permits initial) (kept : ∀ call ∈ state.calls, call.Kept)
    (careful : state.Careful event) (taken : state.step permits event = some state') :
    ∀ call ∈ state'.calls, call.Kept := by
  apply (callsAfter taken).forall kept
  · intro _
    exact ⟨by simp, by simp, by simp⟩
  · intro _ call _ found kept step
    have fine := sound.lined.calls found
    cases step with
    | readyCanceled here _ | suspending here => exact ⟨by simp, by simp, by simp⟩
    | readyAcquired here alive => exact ⟨fun _ => alive, by simp, by simp⟩
    | emplace here _ _ next | enqueue here _ _ next =>
        rcases next with rfl | rfl <;> exact ⟨by simp, by simp, by simp⟩
    | resume _ running => exact kept.awaitResume running
    | destroy here _ granted_eq =>
        exact ⟨by simp, by simp, fun _ => granted_eq.trans (careful call found)⟩
    | signal => exact ⟨fun here => absurd here (careful call found), kept.threw, kept.destroyed⟩
    | internal _ _ _ _ granted _ =>
        refine ⟨kept.ready, kept.threw, fun here => ?_⟩
        by_contra given
        rcases granted (by simpa using given) with already | alive
        · simp [kept.destroyed here] at already
        · simp [fine.destroyed here] at alive

/-- In a careful run every permit is free, has been acquired or is going to be. -/
theorem balance_of_careful {resource : ρ} (settled : permits.settled resource)
    (reached : Reached (Lock.step permits) Careful { resource := resource } state) :
    permits.free state.resource + state.completed + state.pledged =
      permits.free resource + state.released := by
  have invariant : state.Sound permits (permits.free resource) ∧
      ∀ call ∈ state.calls, call.Kept := by
    apply reached.invariant
    · exact ⟨sound_new settled, by simp⟩
    · intro _ _ _ holds careful taken
      exact ⟨holds.1.step taken, kept_step holds.1 holds.2 careful taken⟩
  rcases invariant with ⟨sound, kept⟩
  have split : state.calls.countP (fun call => call.isReturned || call.pledged) =
      state.calls.countP Call.isReturned + state.calls.countP Call.pledged :=
    countP_or_of_disjoint fun _ _ => Call.pledged_eq_false_of_isReturned
  have same : state.calls.countP (fun call => call.isReturned || call.pledged) =
      state.calls.countP Call.obtained := by
    apply List.countP_congr
    intro call member
    rcases List.getElem?_of_mem member with ⟨_, found⟩
    rw [(kept call member).obtained_eq (sound.lined.calls found)]
  have balance := sound.balanced.balance
  simp only [completed, pledged]
  omega

end Lock

end Corouv.Sync
