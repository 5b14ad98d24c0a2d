import Corouv.Sync.WaitingSound

/-!
# What a step does to the calls

A step changes at most one call, in one of the ways listed here.  A call that has
returned, thrown or been destroyed stays so; what else is said of every call of every run
follows from the list.
-/

namespace Corouv.Sync

open Library

/-- The ways in which a step changes the call with the given index. -/
inductive Call.Step (failure : Exn) : Event → ℕ → Call → Call → Prop
  | readyCanceled {id call} (here : call.phase = .starting) (canceled : call.canceled = true) :
      Call.Step failure (.awaitReady id) id call { call with phase := .ready false }
  | readyAcquired {id call} (here : call.phase = .starting) (alive : call.canceled = false) :
      Call.Step failure (.awaitReady id) id call { call with phase := .ready true }
  | suspending {id call} (here : call.phase = .starting) :
      Call.Step failure (.awaitReady id) id call { call with phase := .suspending }
  | emplace {id call} (here : call.phase = .suspending) (phase : Phase) (handler : Bool)
      (next : phase = .continuing ∨ phase = .emplaced) :
      Call.Step failure (.tryEmplace id) id call { call with phase := phase, handler := handler }
  | enqueue {id call} (here : call.phase = .emplaced) (phase : Phase) (waiter : Waiter)
      (next : phase = .continuing ∨ phase = .suspended) :
      Call.Step failure (.enqueue id) id call { call with phase := phase, waiter := waiter }
  | resume {id call} (resumes : ℕ)
      (running : (∃ acquired, call.phase = .ready acquired) ∨ call.phase = .continuing ∨
        call.phase = .suspended) :
      Call.Step failure (.awaitResume id) id call
        { call.awaitResume failure with resumes := resumes }
  | destroy {id call} (here : call.phase = .suspended) (waiter : Waiter)
      (granted_eq : waiter.granted = call.waiter.granted) :
      Call.Step failure (.destroy id) id call { call with phase := .destroyed, waiter := waiter }
  | signal {id call} : Call.Step failure (.signal id) id call { call with canceled := true }
  | internal {event id call} (handler : Bool) (waiter : Waiter) (cancel : CancelStage)
      (resumes : ℕ) (granted : waiter.granted = true → call.waiter.granted = true ∨
        call.waiter.done = false) (done : call.waiter.done = true → waiter.done = true) :
      Call.Step failure event id call
        { call with handler := handler, waiter := waiter, cancel := cancel, resumes := resumes }

namespace Lock

variable {ρ : Type} {permits : Permits ρ} {state state' : Lock ρ} {event : Event}

/-- What becomes of the calls in a step. -/
inductive CallsAfter (failure : Exn) (event : Event) (calls : List Call) : List Call → Prop
  | same : CallsAfter failure event calls calls
  | new (hasSlot : Bool) : CallsAfter failure event calls (calls ++ [{ hasSlot := hasSlot }])
  | change {id : ℕ} {call call' : Call} (found : calls[id]? = some call)
      (step : call.Step failure event id call') :
      CallsAfter failure event calls (calls.set id call')

theorem callsAfter_withCall {id : ℕ} {change : Lock ρ → ℕ → Call → Option (Lock ρ)}
    (changes : ∀ {call}, change state id call = some state' → ∃ call',
      call.Step permits.failure event id call' ∧ state'.calls = state.calls.set id call')
    (taken : state.withCall id change = some state') :
    CallsAfter permits.failure event state.calls state'.calls := by
  rcases Option.bind_eq_some_iff.mp taken with ⟨_, found, changed⟩
  rcases changes changed with ⟨_, step, calls_eq⟩
  rw [calls_eq]
  exact .change found step

theorem callsAfter (taken : state.step permits event = some state') :
    CallsAfter permits.failure event state.calls state'.calls := by
  cases event with
  | call hasSlot =>
      cases taken
      exact .new hasSlot
  | tryTake =>
      simp only [step, tryTake] at taken
      split_ifs at taken
      split at taken <;> (cases taken; exact .same)
  | release _ =>
      simp only [step, release] at taken
      split_ifs at taken
      · cases taken
        exact .same
      · split at taken <;> (cases taken; exact .same)
  | grant =>
      simp only [step, grant] at taken
      split_ifs at taken
      split at taken
      · split at taken
        · cases taken
          exact .same
        next call found =>
          split at taken
          · cases taken
            exact .same
          next waiter marked =>
            cases taken
            rcases Waiter.of_tryMarkGranted marked with ⟨alive, done, -, -⟩
            exact .change found (.internal _ waiter _ _ (fun _ => .inr alive) fun _ => done)
      · cases taken
  | finishRelease =>
      simp only [step, finishRelease] at taken
      split_ifs at taken
      cases taken
      exact .same
  | wake _ =>
      refine callsAfter_withCall (fun {call} changed => ?_) taken
      rw [wake] at changed
      split_ifs at changed
      cases changed
      refine ⟨call.resumeAfterMarkedDone, ?_, rfl⟩
      rw [Call.resumeAfterMarkedDone]
      split
      · exact .internal _ _ _ _ .inl fun done => done
      · exact .internal _ _ _ _ .inl fun done => done
  | awaitReady _ =>
      refine callsAfter_withCall (fun {call} changed => ?_) taken
      rw [awaitReady] at changed
      split at changed
      next here =>
        split_ifs at changed with canceled
        · cases changed
          exact ⟨_, .readyCanceled here canceled, rfl⟩
        · split at changed
          · cases changed
            exact ⟨_, .suspending here, rfl⟩
          · cases changed
            exact ⟨_, .readyAcquired here (by simpa using canceled), rfl⟩
      · cases changed
  | tryEmplace _ =>
      refine callsAfter_withCall (fun {call} changed => ?_) taken
      rw [tryEmplace] at changed
      split at changed
      next here =>
        split_ifs at changed
        · cases changed
          exact ⟨_, .emplace here _ _ (.inl rfl), rfl⟩
        · cases changed
          exact ⟨_, .emplace here _ _ (.inr rfl), rfl⟩
      · cases changed
  | enqueue _ =>
      refine callsAfter_withCall (fun {call} changed => ?_) taken
      rw [enqueueWaiter] at changed
      split at changed
      next here =>
        split_ifs at changed
        · cases changed
          exact ⟨_, .enqueue here _ _ (.inl rfl), rfl⟩
        · split at changed
          · cases changed
            exact ⟨_, .enqueue here _ _ (.inl rfl), rfl⟩
          · cases changed
            exact ⟨_, .enqueue here _ _ (.inr rfl), rfl⟩
      · cases changed
  | awaitResume _ =>
      refine callsAfter_withCall (fun {call} changed => ?_) taken
      rw [awaitResume] at changed
      split at changed
      next acquired here =>
        cases changed
        exact ⟨_, .resume _ (.inl ⟨acquired, here⟩), rfl⟩
      next here =>
        cases changed
        exact ⟨_, .resume _ (.inr (.inl here)), rfl⟩
      next here =>
        split_ifs at changed
        cases changed
        exact ⟨_, .resume _ (.inr (.inr here)), rfl⟩
      · cases changed
  | destroy _ =>
      refine callsAfter_withCall (fun {call} changed => ?_) taken
      rw [destroy] at changed
      split at changed
      next here =>
        split_ifs at changed
        cases changed
        refine ⟨_, ?_, rfl⟩
        exact .destroy here _ rfl
      · cases changed
  | signal _ =>
      refine callsAfter_withCall (fun {call} changed => ?_) taken
      rw [signal] at changed
      split_ifs at changed
      cases changed
      exact ⟨_, .signal, rfl⟩
  | handle _ =>
      refine callsAfter_withCall (fun {call} changed => ?_) taken
      rw [handle] at changed
      split_ifs at changed
      cases changed
      refine ⟨_, ?_, rfl⟩
      exact .internal _ _ _ _ .inl fun done => done
  | cancelMark _ =>
      refine callsAfter_withCall (fun {call} changed => ?_) taken
      rw [cancelMark] at changed
      split at changed
      · split_ifs at changed
        · split at changed
          · cases changed
            exact ⟨_, .internal _ _ _ _ .inl fun done => done, rfl⟩
          next waiter marked =>
            cases changed
            cases Waiter.of_tryMarkCanceled marked
            refine ⟨_, ?_, rfl⟩
            exact .internal _ _ _ _ .inl fun _ => rfl
        · cases changed
          exact ⟨_, .internal _ _ _ _ .inl fun done => done, rfl⟩
      · cases changed
  | cancelRemove _ =>
      refine callsAfter_withCall (fun {call} changed => ?_) taken
      rw [cancelRemove] at changed
      split at changed
      · split_ifs at changed
        cases changed
        refine ⟨({ call with cancel := .none } : Call).resumeAfterMarkedDone, ?_, rfl⟩
        rw [Call.resumeAfterMarkedDone]
        split
        · exact .internal _ _ _ _ .inl fun done => done
        · exact .internal _ _ _ _ .inl fun done => done
      · cases changed

theorem counters_step (taken : state.step permits event = some state') :
    (state'.tried = state.tried ∨ (event = .tryTake ∧ state'.tried = state.tried + 1)) ∧
      (state'.released = state.released ∨
        ∃ count, event = .release count ∧ state'.released = state.released + count) := by
  cases event with
  | call _ =>
      cases taken
      exact ⟨.inl rfl, .inl rfl⟩
  | _ =>
      simp only [step, withCall, Option.bind_eq_some_iff, tryTake, release, grant, finishRelease,
        wake, awaitReady, tryEmplace, enqueueWaiter, awaitResume, destroy, signal, handle,
        cancelMark, cancelRemove] at taken
      grind [put, log, compactWaiters, removeWaiter]

theorem CallsAfter.forall {failure : Exn} {calls calls' : List Call} {property : Call → Prop}
    (after : CallsAfter failure event calls calls') (holds : ∀ call ∈ calls, property call)
    (fresh : ∀ hasSlot, property { hasSlot := hasSlot })
    (kept : ∀ {id call call'}, calls[id]? = some call → property call →
      call.Step failure event id call' → property call') : ∀ call ∈ calls', property call := by
  intro call member
  cases after with
  | same => exact holds call member
  | new hasSlot =>
      rcases List.mem_append.mp member with old | new
      · exact holds call old
      · rw [List.mem_singleton.mp new]
        exact fresh hasSlot
  | change found step =>
      rcases List.mem_or_eq_of_mem_set member with old | rfl
      · exact holds call old
      · exact kept found (holds _ (List.mem_of_getElem? found)) step

end Lock

end Corouv.Sync
