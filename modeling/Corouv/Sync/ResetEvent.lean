import Corouv.Base
import Corouv.Library.Places
import Corouv.Library.Transition

/-!
# ManualResetEvent

A state holds the members of the event and every call of `wait` made on it, with the flags
of its `ManualResetEventOp`.  Each critical section under `_mu` is a step, and so is each
access to the flags outside of it: `request_resume` first sets `done` and delivers the
continuation in a later step, and anything may come between the handler being in place and
`register_waiter`.

What is counted is how often the coroutine of a wait is continued: by a resumption that
`request_resume` schedules or runs, and by `await_suspend` returning `false`.  Two orders
of these make it two, and no other does: the resumption is delivered before
`register_waiter` finds the event set, or while the coroutine goes on after that.
-/

namespace Corouv.Sync

open Library

/-- How far the coroutine has come in awaiting the event. -/
inductive WaitPhase
  | starting
  /-- `await_ready` has returned `true`. -/
  | ready
  /-- `await_ready` has returned `false`. -/
  | suspending
  /-- The op is there and the cancel handler is in place. -/
  | emplaced
  /-- `await_suspend` has returned `false`. -/
  | continuing
  /-- `await_suspend` has returned `true`. -/
  | suspended
  deriving DecidableEq, Repr

/-- The op is there, and others may have got hold of it. -/
def WaitPhase.hasOp : WaitPhase → Bool
  | .emplaced | .continuing | .suspended => true
  | _ => false

structure Wait where
  hasSlot : Bool
  phase : WaitPhase := .starting
  /-- The signal of its slot has been emitted. -/
  canceled : Bool := false
  /-- The slot has a handler that has not been called. -/
  handler : Bool := false
  done : Bool := false
  abandoned : Bool := false
  continuation : Bool := true
  /-- A `request_resume` has set `done` and not yet looked at the continuation. -/
  delivering : Bool := false
  /-- The resumptions that have not run. -/
  resumes : ℕ := 0
  /-- How `await_resume` has ended. -/
  outcome : Option (Option Exn) := none
  /-- `~Awaiter` has not run. -/
  alive : Bool := true
  /-- How often the coroutine has been continued after it began to suspend. -/
  continued : ℕ := 0
  /-- The wait has found the event set, or has been woken by `set`. -/
  sawSet : Bool := false
  deriving DecidableEq, Repr

namespace Wait

/-- `await_suspend` returns `false`. -/
def goOn (wait : Wait) : Wait :=
  { wait with phase := .continuing, continued := wait.continued + 1 }

/-- The start of `request_resume`: `done.exchange(true)`. -/
def markDone (wait : Wait) : Wait :=
  if wait.done then wait else { wait with done := true, delivering := true }

/-- The end of `request_resume`. -/
def deliver (wait : Wait) : Wait :=
  if wait.abandoned || !wait.continuation then { wait with delivering := false }
  else
    { wait with
      delivering := false, continuation := false
      resumes := wait.resumes + 1, continued := wait.continued + 1 }

/-- `await_resume` looks for a signal and for nothing else. -/
def awaitResume (wait : Wait) : Wait :=
  { wait with outcome := some (if wait.canceled then some .signal else none) }

/-- `~Awaiter` where there is an op. -/
def abandon (wait : Wait) : Wait :=
  { wait with alive := false, abandoned := true, continuation := false, done := true }

end Wait

structure ManualResetEvent where
  signaled : Bool
  waiters : List ℕ := []
  /-- The waiters that calls of `set` have taken and not yet resumed. -/
  wakeups : List ℕ := []
  waits : List Wait := []
  deriving DecidableEq, Repr

inductive WaitEvent
  | wait (hasSlot : Bool)
  | awaitReady (wait : ℕ)
  | tryEmplace (wait : ℕ)
  | register (wait : ℕ)
  | awaitResume (wait : ℕ)
  | destroy (wait : ℕ)
  | signal (wait : ℕ)
  /-- The handler of the slot calls `request_resume`. -/
  | handle (wait : ℕ)
  /-- The critical section of `set`. -/
  | set
  /-- `set` calls `request_resume` of a waiter. -/
  | wake (wait : ℕ)
  /-- `request_resume` delivers the continuation. -/
  | deliver (wait : ℕ)
  | reset
  deriving DecidableEq, Repr

/-- The steps that are not the start of an operation on the event. -/
def WaitEvent.isInternal : WaitEvent → Bool
  | .wait _ | .set | .reset => false
  | _ => true

namespace ManualResetEvent

def new (signaled : Bool) : ManualResetEvent :=
  { signaled := signaled }

def put (event : ManualResetEvent) (id : ℕ) (wait : Wait) : ManualResetEvent :=
  { event with waits := event.waits.set id wait }

/-- The op is there and not `done`. -/
def live (event : ManualResetEvent) (id : ℕ) : Bool :=
  event.waits[id]?.any fun wait => !wait.done

def compactWaiters (event : ManualResetEvent) : ManualResetEvent :=
  { event with waiters := event.waiters.filter event.live }

def removeWaiter (event : ManualResetEvent) (id : ℕ) : ManualResetEvent :=
  { event with waiters := event.waiters.filter fun item => item != id && event.live item }

def awaitReady (event : ManualResetEvent) (id : ℕ) (wait : Wait) : Option ManualResetEvent :=
  match wait.phase with
  | .starting =>
      if event.signaled then some (event.put id { wait with phase := .ready, sawSet := true })
      else if wait.canceled then some (event.put id { wait with phase := .ready })
      else some (event.put id { wait with phase := .suspending })
  | _ => none

def tryEmplace (event : ManualResetEvent) (id : ℕ) (wait : Wait) : Option ManualResetEvent :=
  match wait.phase with
  | .suspending =>
      if wait.canceled then some (event.put id wait.goOn)
      else some (event.put id { wait with phase := .emplaced, handler := wait.hasSlot })
  | _ => none

-- A coroutine may be resumed while its `await_suspend` still runs.  Once its awaiter is
-- gone, `register_waiter` has no defined behaviour, and no step here.
def registerWaiter (event : ManualResetEvent) (id : ℕ) (wait : Wait) : Option ManualResetEvent :=
  match wait.phase with
  | .emplaced =>
      if wait.alive then
        if event.signaled then
          some (event.compactWaiters.put id { wait.goOn with sawSet := true })
        else
          some ({ event.compactWaiters with waiters := event.compactWaiters.waiters ++ [id] }.put
            id { wait with phase := .suspended })
      else none
  | _ => none

def awaitResume (event : ManualResetEvent) (id : ℕ) (wait : Wait) : Option ManualResetEvent :=
  if wait.outcome.isSome then none
  else
    match wait.phase with
    | .ready | .continuing => some (event.put id wait.awaitResume)
    | .emplaced | .suspended =>
        if wait.resumes = 0 then none
        else some (event.put id { wait.awaitResume with resumes := wait.resumes - 1 })
    | _ => none

/-- `~Awaiter`, at the end of the wait or where the frame of a suspended one is destroyed. -/
def destroy (event : ManualResetEvent) (id : ℕ) (wait : Wait) : Option ManualResetEvent :=
  if wait.alive && (wait.outcome.isSome || wait.phase == .suspended) then
    if wait.phase = .ready then some (event.put id { wait with alive := false })
    else some ((event.put id wait.abandon).removeWaiter id)
  else none

def signal (event : ManualResetEvent) (id : ℕ) (wait : Wait) : Option ManualResetEvent :=
  if wait.hasSlot then some (event.put id { wait with canceled := true }) else none

def handle (event : ManualResetEvent) (id : ℕ) (wait : Wait) : Option ManualResetEvent :=
  if wait.handler && wait.canceled then
    some (event.put id { wait.markDone with handler := false })
  else none

/-- A waiter that a `set` takes along. -/
def notify (event : ManualResetEvent) (id : ℕ) (wait : Wait) : Wait :=
  if id ∈ event.waiters && !wait.done then { wait with sawSet := true } else wait

def set (event : ManualResetEvent) : ManualResetEvent :=
  { signaled := true
    waiters := []
    wakeups := event.wakeups ++ event.compactWaiters.waiters
    waits := event.waits.mapIdx event.notify }

def wake (event : ManualResetEvent) (id : ℕ) (wait : Wait) : Option ManualResetEvent :=
  if id ∈ event.wakeups then
    some { event.put id wait.markDone with wakeups := event.wakeups.erase id }
  else none

def deliver (event : ManualResetEvent) (id : ℕ) (wait : Wait) : Option ManualResetEvent :=
  if wait.delivering then some ((event.put id wait.deliver).removeWaiter id) else none

def reset (event : ManualResetEvent) : ManualResetEvent :=
  { event.compactWaiters with signaled := false }

def withWait (event : ManualResetEvent) (id : ℕ)
    (change : ManualResetEvent → ℕ → Wait → Option ManualResetEvent) : Option ManualResetEvent :=
  event.waits[id]?.bind (change event id)

def step (event : ManualResetEvent) : WaitEvent → Option ManualResetEvent
  | .wait hasSlot => some { event with waits := event.waits ++ [{ hasSlot := hasSlot }] }
  | .awaitReady id => event.withWait id awaitReady
  | .tryEmplace id => event.withWait id tryEmplace
  | .register id => event.withWait id registerWaiter
  | .awaitResume id => event.withWait id awaitResume
  | .destroy id => event.withWait id destroy
  | .signal id => event.withWait id signal
  | .handle id => event.withWait id handle
  | .set => some event.set
  | .wake id => event.withWait id wake
  | .deliver id => event.withWait id deliver
  | .reset => some event.reset

end ManualResetEvent

/-- One wait changes, which finds the event set only if it is. -/
def ManualResetEvent.Alters (event next : ManualResetEvent) : Prop :=
  next.signaled = event.signaled ∧ ∃ id wait wait', event.waits[id]? = some wait ∧
    next.waits = event.waits.set id wait' ∧
    (wait'.sawSet = true → wait.sawSet = true ∨ event.signaled = true)

namespace ManualResetEvent

section

variable {event next : ManualResetEvent} {id : ℕ} {wait : Wait}
  (found : event.waits[id]? = some wait)
include found

theorem alters_awaitReady (taken : event.awaitReady id wait = some next) : event.Alters next := by
  rw [awaitReady] at taken
  split at taken
  · split_ifs at taken with signaled <;> cases taken
    · exact ⟨rfl, id, wait, _, found, rfl, fun _ => .inr signaled⟩
    · exact ⟨rfl, id, wait, _, found, rfl, .inl⟩
    · exact ⟨rfl, id, wait, _, found, rfl, .inl⟩
  · cases taken

theorem alters_tryEmplace (taken : event.tryEmplace id wait = some next) : event.Alters next := by
  rw [tryEmplace] at taken
  split at taken
  · split_ifs at taken <;> cases taken <;> exact ⟨rfl, id, wait, _, found, rfl, .inl⟩
  · cases taken

theorem alters_registerWaiter (taken : event.registerWaiter id wait = some next) :
    event.Alters next := by
  rw [registerWaiter] at taken
  split at taken
  · split_ifs at taken with alive signaled <;> cases taken
    · exact ⟨rfl, id, wait, _, found, rfl, fun _ => .inr signaled⟩
    · exact ⟨rfl, id, wait, _, found, rfl, .inl⟩
  · cases taken

theorem alters_awaitResume (taken : event.awaitResume id wait = some next) :
    event.Alters next := by
  rw [awaitResume] at taken
  split_ifs at taken <;> split at taken <;> cases taken <;>
    exact ⟨rfl, id, wait, _, found, rfl, .inl⟩

theorem alters_destroy (taken : event.destroy id wait = some next) : event.Alters next := by
  rw [destroy] at taken
  split_ifs at taken <;> cases taken <;> exact ⟨rfl, id, wait, _, found, rfl, .inl⟩

theorem alters_signal (taken : event.signal id wait = some next) : event.Alters next := by
  rw [signal] at taken
  split_ifs at taken
  cases taken
  exact ⟨rfl, id, wait, _, found, rfl, .inl⟩

theorem alters_markDone {handler : Bool} (signaled : next.signaled = event.signaled)
    (waits : next.waits = event.waits.set id { wait.markDone with handler := handler }) :
    event.Alters next := by
  refine ⟨signaled, id, wait, _, found, waits, fun seen => .inl ?_⟩
  rw [← seen, Wait.markDone]
  split <;> rfl

theorem alters_handle (taken : event.handle id wait = some next) : event.Alters next := by
  rw [handle] at taken
  split_ifs at taken
  cases taken
  exact alters_markDone found rfl rfl

theorem alters_wake (taken : event.wake id wait = some next) : event.Alters next := by
  rw [wake] at taken
  split_ifs at taken
  cases taken
  exact alters_markDone found rfl rfl

theorem alters_deliver (taken : event.deliver id wait = some next) : event.Alters next := by
  rw [deliver] at taken
  split_ifs at taken
  cases taken
  refine ⟨rfl, id, wait, _, found, rfl, fun seen => .inl ?_⟩
  rw [← seen, Wait.deliver]
  split <;> rfl

end

theorem internal_step {event next : ManualResetEvent} {action : WaitEvent}
    (internal : action.isInternal = true) (taken : event.step action = some next) :
    event.Alters next := by
  cases action with
  | wait _ => cases internal
  | set => cases internal
  | reset => cases internal
  | awaitReady _ => exact of_step_at taken alters_awaitReady
  | tryEmplace _ => exact of_step_at taken alters_tryEmplace
  | register _ => exact of_step_at taken alters_registerWaiter
  | awaitResume _ => exact of_step_at taken alters_awaitResume
  | destroy _ => exact of_step_at taken alters_destroy
  | signal _ => exact of_step_at taken alters_signal
  | handle _ => exact of_step_at taken alters_handle
  | wake _ => exact of_step_at taken alters_wake
  | deliver _ => exact of_step_at taken alters_deliver

end ManualResetEvent

namespace Wait

structure Sound (wait : Wait) : Prop where
  once : wait.continued ≤ 1
  /-- As long as the awaiter is there, what has been continued can be told from the op. -/
  whole : wait.alive = true → wait.abandoned = false ∧
    wait.continued = (wait.phase == .continuing).toNat + (!wait.continuation).toNat
  gone : wait.alive = false → wait.phase = .ready ∨ wait.abandoned = true
  bare : wait.phase.hasOp = false →
    wait.handler = false ∧ wait.delivering = false ∧ wait.continued = 0
  early : wait.phase = .starting ∨ wait.phase = .suspending →
    wait.alive = true ∧ wait.outcome = none

namespace Sound

variable {wait : Wait}

theorem new (hasSlot : Bool) : Sound { hasSlot := hasSlot } :=
  ⟨Nat.zero_le _, fun _ => ⟨rfl, rfl⟩, by simp, fun _ => ⟨rfl, rfl, rfl⟩, fun _ => ⟨rfl, rfl⟩⟩

variable (sound : wait.Sound)
include sound

/-- A step that touches neither the place of the coroutine nor what can continue it. -/
theorem congr {wait' : Wait}
    (same : (wait'.phase, wait'.alive, wait'.abandoned, wait'.continuation, wait'.continued) =
      (wait.phase, wait.alive, wait.abandoned, wait.continuation, wait.continued))
    (bare : wait.phase.hasOp = false → wait.handler = false ∧ wait.delivering = false →
      wait'.handler = false ∧ wait'.delivering = false)
    (early : wait.phase = .starting ∨ wait.phase = .suspending → wait.outcome = none →
      wait'.outcome = none) : wait'.Sound := by
  simp only [Prod.mk.injEq] at same
  rcases same with ⟨phase, alive, abandoned, continuation, continued⟩
  refine ⟨?_, ?_, ?_, ?_, ?_⟩
  · rw [continued]
    exact sound.once
  · rw [alive, abandoned, phase, continuation, continued]
    exact sound.whole
  · rw [alive, phase, abandoned]
    exact sound.gone
  · rw [phase, continued]
    intro none
    rcases sound.bare none with ⟨handler, delivering, fresh⟩
    have calm := bare none ⟨handler, delivering⟩
    exact ⟨calm.1, calm.2, fresh⟩
  · rw [phase, alive]
    intro here
    rcases sound.early here with ⟨there, pending⟩
    exact ⟨there, early here pending⟩

theorem goOn (alive : wait.alive = true) (fresh : wait.continued = 0) : wait.goOn.Sound := by
  have whole := sound.whole alive
  have kept : (!wait.continuation).toNat = 0 := by omega
  refine ⟨?_, ?_, ?_, ?_, ?_⟩
  · simp [Wait.goOn, fresh]
  · intro _
    refine ⟨whole.1, ?_⟩
    simp only [Wait.goOn, fresh, kept]
    rfl
  · intro dead
    cases alive.symm.trans dead
  · intro none
    cases none
  · rintro (here | here) <;> cases here

theorem move {phase : WaitPhase} {handler : Bool} (alive : wait.alive = true)
    (outside : wait.phase ≠ .continuing) (inside : phase ≠ .continuing)
    (bare : phase.hasOp = false → handler = false ∧ wait.delivering = false ∧ wait.continued = 0)
    (early : phase = .starting ∨ phase = .suspending → wait.outcome = none) {sawSet : Bool} :
    Sound { wait with phase := phase, handler := handler, sawSet := sawSet } := by
  have whole := sound.whole alive
  refine ⟨sound.once, ?_, ?_, bare, fun here => ⟨alive, early here⟩⟩
  · intro _
    refine ⟨whole.1, ?_⟩
    rw [whole.2, beq_eq_false_iff_ne.mpr outside, beq_eq_false_iff_ne.mpr inside]
  · intro dead
    cases alive.symm.trans dead

theorem markDone (op : wait.phase.hasOp = true) : wait.markDone.Sound := by
  rw [Wait.markDone]
  split
  · exact sound
  · refine sound.congr (by rfl) ?_ fun _ pending => pending
    intro none
    cases op.symm.trans none

theorem deliver (op : wait.phase.hasOp = true)
    (orderly : wait.phase = .continuing → wait.alive = false) : wait.deliver.Sound := by
  rw [Wait.deliver]
  split
  · exact sound.congr (by rfl) (fun _ calm => ⟨calm.1, rfl⟩) fun _ pending => pending
  next present =>
    simp only [Bool.or_eq_true, Bool.not_eq_true', not_or, Bool.not_eq_true,
      Bool.not_eq_false] at present
    have alive : wait.alive = true := by
      by_contra dead
      rcases sound.gone (by simpa using dead) with here | abandoned
      · rw [here] at op
        cases op
      · cases present.1.symm.trans abandoned
    have outside : wait.phase ≠ .continuing := by
      intro here
      cases alive.symm.trans (orderly here)
    have whole := sound.whole alive
    have fresh : wait.continued = 0 := by
      rw [whole.2, present.2]
      simp [outside]
    refine ⟨?_, ?_, ?_, ?_, ?_⟩
    · simp [fresh]
    · intro _
      refine ⟨present.1, ?_⟩
      simp [outside, fresh]
    · intro dead
      cases alive.symm.trans dead
    · intro none
      cases op.symm.trans none
    · intro here
      exact ⟨alive, (sound.early here).2⟩

theorem abandon (here : wait.phase ≠ .starting ∧ wait.phase ≠ .suspending) : wait.abandon.Sound :=
  ⟨sound.once, by simp [Wait.abandon], fun _ => .inr rfl, sound.bare,
    fun early => absurd early (by simpa [Wait.abandon] using here)⟩

end Sound

end Wait

namespace ManualResetEvent

variable {event next : ManualResetEvent} {action : WaitEvent} {id : ℕ} {wait wait' : Wait}

structure Sound (event : ManualResetEvent) : Prop where
  waits : ∀ {id : ℕ} {wait : Wait}, event.waits[id]? = some wait → wait.Sound
  listed : ∀ id ∈ event.waiters ++ event.wakeups, ∃ wait, event.waits[id]? = some wait ∧
    wait.phase.hasOp = true

/-- No resumption is delivered to a coroutine that goes on without it: a call of
`register_waiter` that finds the event set still has its continuation, and nothing is
delivered between its return and `~Awaiter`. -/
def Orderly (event : ManualResetEvent) : WaitEvent → Prop
  | .register id => ∀ wait, event.waits[id]? = some wait → event.signaled = true →
      wait.continuation = true
  | .deliver id => ∀ wait, event.waits[id]? = some wait → wait.phase = .continuing →
      wait.alive = false
  | _ => True

instance (event : ManualResetEvent) : DecidablePred event.Orderly
  | .register id => inferInstanceAs (Decidable (∀ wait ∈ event.waits[id]?,
      event.signaled = true → wait.continuation = true))
  | .deliver id => inferInstanceAs (Decidable (∀ wait ∈ event.waits[id]?,
      wait.phase = .continuing → wait.alive = false))
  | .wait _ | .awaitReady _ | .tryEmplace _ | .awaitResume _ | .destroy _ | .signal _
  | .handle _ | .set | .wake _ | .reset => isTrue trivial

theorem new_sound (signaled : Bool) : (new signaled).Sound :=
  ⟨by simp [new], by simp [new]⟩

theorem waits_put (found : event.waits[id]? = some wait) :
    (event.put id wait').waits[id]? = some wait' :=
  getElem?_set_of_eq_some found wait'

section

variable (sound : event.Sound)
include sound

theorem Sound.put (found : event.waits[id]? = some wait) (fine : wait'.Sound)
    (kept : wait.phase.hasOp = true → wait'.phase.hasOp = true) : (event.put id wait').Sound := by
  constructor
  · intro other held there
    rcases getElem?_set_cases there with ⟨-, rfl⟩ | ⟨-, before⟩
    · exact fine
    · exact sound.waits before
  · intro other member
    rcases sound.listed other member with ⟨held, there, op⟩
    by_cases here : id = other
    · subst here
      cases found.symm.trans there
      exact ⟨wait', waits_put found, kept op⟩
    · exact ⟨held, (List.getElem?_set_ne here).trans there, op⟩

theorem Sound.lists (waits : next.waits = event.waits)
    (fewer : ∀ id ∈ next.waiters ++ next.wakeups, id ∈ event.waiters ++ event.wakeups) :
    next.Sound := by
  constructor
  · rw [waits]
    exact sound.waits
  · rw [waits]
    intro id member
    exact sound.listed id (fewer id member)

theorem Sound.filterWaiters (keep : ℕ → Bool) :
    ({ event with waiters := event.waiters.filter keep } : ManualResetEvent).Sound := by
  refine sound.lists (by rfl) ?_
  intro _ member
  rcases List.mem_append.mp member with waiting | woken
  · exact List.mem_append_left _ (List.mem_of_mem_filter waiting)
  · exact List.mem_append_right _ woken

section

variable (found : event.waits[id]? = some wait)
include found

theorem Sound.awaitReady (taken : event.awaitReady id wait = some next) : next.Sound := by
  have fine := sound.waits found
  rw [ManualResetEvent.awaitReady] at taken
  split at taken
  next here =>
    have early := fine.early (.inl here)
    have bare := fine.bare (by rw [here]; rfl)
    have outside : wait.phase ≠ .continuing := by simp [here]
    have kept : wait.phase.hasOp = true → False := by simp [here, WaitPhase.hasOp]
    split_ifs at taken
    all_goals
      cases taken
      apply sound.put found _ fun op => (kept op).elim
      exact fine.move early.1 outside (by simp) (fun _ => bare) (fun _ => early.2)
  · cases taken

theorem Sound.tryEmplace (taken : event.tryEmplace id wait = some next) : next.Sound := by
  have fine := sound.waits found
  rw [ManualResetEvent.tryEmplace] at taken
  split at taken
  next here =>
    have early := fine.early (.inr here)
    have bare := fine.bare (by rw [here]; rfl)
    split_ifs at taken
    · cases taken
      exact sound.put found (fine.goOn early.1 bare.2.2) fun _ => rfl
    · cases taken
      refine sound.put found ?_ fun _ => rfl
      exact fine.move early.1 (by simp [here]) (by simp) (by simp [WaitPhase.hasOp])
        (fun _ => early.2)
  · cases taken

/-- A waiter that registers in order is continued at most once. -/
theorem Sound.registerWaiter
    (orderly : event.Orderly (.register id)) (taken : event.registerWaiter id wait = some next) :
    next.Sound := by
  have fine := sound.waits found
  have compact : event.compactWaiters.Sound := sound.filterWaiters _
  rw [ManualResetEvent.registerWaiter] at taken
  split at taken
  next here =>
    split_ifs at taken with alive signaled
    · cases taken
      refine compact.put found ?_ fun _ => rfl
      have fresh : wait.continued = 0 := by
        rw [(fine.whole alive).2, here, orderly wait found signaled]
        rfl
      exact (fine.goOn alive fresh).congr (by rfl) (fun _ calm => calm) fun _ pending => pending
    · cases taken
      have moved : Wait.Sound { wait with phase := .suspended } :=
        fine.move alive (by simp [here]) (by simp) (by simp [WaitPhase.hasOp]) (by simp)
      have suspended := compact.put found moved fun _ => rfl
      refine ⟨suspended.waits, ?_⟩
      intro other member
      simp only [ManualResetEvent.put, List.append_assoc, List.mem_append,
        List.mem_singleton] at member
      rcases member with waiting | rfl | woken
      · exact suspended.listed other (List.mem_append_left _ waiting)
      · exact ⟨_, waits_put found, rfl⟩
      · exact suspended.listed other (List.mem_append_right _ woken)
  · cases taken

theorem Sound.awaitResume (taken : event.awaitResume id wait = some next) : next.Sound := by
  have fine := sound.waits found
  have resumed (resumes : ℕ) (late : wait.phase ≠ .starting ∧ wait.phase ≠ .suspending) :
      Wait.Sound { wait.awaitResume with resumes := resumes } := by
    refine fine.congr (by rfl) (fun _ calm => calm) ?_
    rintro (here | here)
    · exact absurd here late.1
    · exact absurd here late.2
  rw [ManualResetEvent.awaitResume] at taken
  split at taken
  · cases taken
  split at taken
  next here =>
    cases taken
    exact sound.put found (resumed wait.resumes (by simp [here])) fun op => op
  next here =>
    cases taken
    exact sound.put found (resumed wait.resumes (by simp [here])) fun op => op
  next here =>
    split_ifs at taken
    cases taken
    exact sound.put found (resumed _ (by simp [here])) fun op => op
  next here =>
    split_ifs at taken
    cases taken
    exact sound.put found (resumed _ (by simp [here])) fun op => op
  · cases taken

theorem Sound.destroy (taken : event.destroy id wait = some next) : next.Sound := by
  have fine := sound.waits found
  rw [ManualResetEvent.destroy] at taken
  split_ifs at taken with ended ready
  · cases taken
    refine sound.put found ?_ fun op => op
    refine ⟨fine.once, by simp, fun _ => .inl ready, fine.bare, ?_⟩
    simp [ready]
  · cases taken
    refine Sound.filterWaiters ?_ _
    apply sound.put found (fine.abandon _) fun op => op
    have late : ¬(wait.phase = .starting ∨ wait.phase = .suspending) := by
      intro early
      have none := (fine.early early).2
      rcases early with here | here <;> simp [none, here] at ended
    exact not_or.mp late

theorem Sound.signal (taken : event.signal id wait = some next) : next.Sound := by
  have fine := sound.waits found
  rw [ManualResetEvent.signal] at taken
  split_ifs at taken
  cases taken
  refine sound.put found ?_ fun op => op
  exact fine.congr (by rfl) (fun _ calm => calm) fun _ pending => pending

end

end

theorem phase_markDone (wait : Wait) : wait.markDone.phase = wait.phase := by
  rw [Wait.markDone]
  split <;> rfl

theorem Sound.handle (sound : event.Sound) (found : event.waits[id]? = some wait)
    (taken : event.handle id wait = some next) : next.Sound := by
  have fine := sound.waits found
  rw [ManualResetEvent.handle] at taken
  split_ifs at taken with called
  cases taken
  have op : wait.phase.hasOp = true := by
    by_contra none
    simp [(fine.bare (by simpa using none)).1] at called
  have marked := fine.markDone op
  apply sound.put found
  · exact marked.congr (by rfl) (fun _ calm => ⟨rfl, calm.2⟩) fun _ pending => pending
  · intro _
    rw [phase_markDone]
    exact op

theorem Sound.wake (sound : event.Sound) (found : event.waits[id]? = some wait)
    (taken : event.wake id wait = some next) : next.Sound := by
  rw [ManualResetEvent.wake] at taken
  split_ifs at taken with member
  cases taken
  rcases sound.listed id (List.mem_append_right _ member) with ⟨_, there, op⟩
  cases found.symm.trans there
  have marked : (event.put id wait.markDone).Sound := by
    apply sound.put found ((sound.waits found).markDone op)
    rw [phase_markDone]
    exact fun op => op
  refine marked.lists (by rfl) ?_
  intro _ listed
  rcases List.mem_append.mp listed with waiting | woken
  · exact List.mem_append_left _ waiting
  · exact List.mem_append_right _ (List.mem_of_mem_erase woken)

theorem phase_deliver (wait : Wait) : wait.deliver.phase = wait.phase := by
  rw [Wait.deliver]
  split <;> rfl

theorem Sound.deliver (sound : event.Sound) (found : event.waits[id]? = some wait)
    (orderly : event.Orderly (.deliver id))
    (taken : event.deliver id wait = some next) : next.Sound := by
  have fine := sound.waits found
  rw [ManualResetEvent.deliver] at taken
  split_ifs at taken with delivering
  cases taken
  have op : wait.phase.hasOp = true := by
    by_contra none
    simp [(fine.bare (by simpa using none)).2.1] at delivering
  refine Sound.filterWaiters ?_ _
  apply sound.put found (fine.deliver op (orderly wait found))
  rw [phase_deliver]
  exact fun op => op

theorem Sound.set (sound : event.Sound) : event.set.Sound := by
  constructor
  · intro id wait found
    simp only [ManualResetEvent.set, List.getElem?_mapIdx, Option.map_eq_some_iff] at found
    rcases found with ⟨_, there, rfl⟩
    have fine := sound.waits there
    rw [notify]
    split
    · exact fine.congr (by rfl) (fun _ calm => calm) fun _ pending => pending
    · exact fine
  · intro id member
    simp only [ManualResetEvent.set, List.nil_append, List.mem_append] at member
    have listed : id ∈ event.waiters ++ event.wakeups := by
      rcases member with woken | waiting
      · exact List.mem_append_right _ woken
      · exact List.mem_append_left _ (List.mem_of_mem_filter waiting)
    rcases sound.listed id listed with ⟨wait, there, op⟩
    refine ⟨event.notify id wait, ?_, ?_⟩
    · simp [ManualResetEvent.set, there]
    · rw [notify]
      split <;> exact op

theorem Sound.newWait (sound : event.Sound) (hasSlot : Bool) :
    ({ event with waits := event.waits ++ [{ hasSlot := hasSlot }] } : ManualResetEvent).Sound := by
  constructor
  · intro id wait found
    rcases getElem?_concat_cases found with before | rfl
    · exact sound.waits before
    · exact Wait.Sound.new hasSlot
  · intro id member
    rcases sound.listed id member with ⟨wait, there, op⟩
    exact ⟨wait, getElem?_append_of_eq_some there _, op⟩

theorem Sound.step (sound : event.Sound) (orderly : event.Orderly action)
    (taken : event.step action = some next) : next.Sound := by
  cases action with
  | wait hasSlot =>
      cases taken
      exact sound.newWait hasSlot
  | set =>
      cases taken
      exact sound.set
  | reset =>
      cases taken
      exact (sound.filterWaiters event.live).lists (by rfl) fun _ member => member
  | awaitReady _ => exact of_step_at taken sound.awaitReady
  | tryEmplace _ => exact of_step_at taken sound.tryEmplace
  | register _ => exact of_step_at taken fun found => sound.registerWaiter found orderly
  | awaitResume _ => exact of_step_at taken sound.awaitResume
  | destroy _ => exact of_step_at taken sound.destroy
  | signal _ => exact of_step_at taken sound.signal
  | handle _ => exact of_step_at taken sound.handle
  | wake _ => exact of_step_at taken sound.wake
  | deliver _ => exact of_step_at taken fun found => sound.deliver found orderly

/-- Each continuation has been counted once. -/
def ContinuedOnce (event : ManualResetEvent) : Prop :=
  ∀ wait ∈ event.waits, wait.continued ≤ 1

theorem Sound.continuedOnce (sound : event.Sound) : event.ContinuedOnce := by
  intro _ member
  rcases List.getElem?_of_mem member with ⟨_, found⟩
  exact (sound.waits found).once

/-- A step out of order continues a coroutine a second time. -/
theorem Sound.orderly_of_continuedOnce (sound : event.Sound)
    (taken : event.step action = some next) (once : next.ContinuedOnce) :
    event.Orderly action := by
  cases action with
  | register _ =>
      intro wait found _
      rcases Option.bind_eq_some_iff.mp taken with ⟨_, there, changed⟩
      cases found.symm.trans there
      rw [ManualResetEvent.registerWaiter] at changed
      split at changed
      · split_ifs at changed with alive
        cases changed
        have bound := once _ (List.mem_of_getElem? (waits_put found))
        have whole := ((sound.waits found).whole alive).2
        simp only [Wait.goOn] at bound
        by_contra gone
        simp only [Bool.not_eq_true] at gone
        rw [gone, Bool.not_false, Bool.toNat_true] at whole
        omega
      · cases changed
  | deliver _ =>
      intro wait found continuing
      rcases Option.bind_eq_some_iff.mp taken with ⟨_, there, changed⟩
      cases found.symm.trans there
      rw [ManualResetEvent.deliver] at changed
      split_ifs at changed
      cases changed
      have bound : wait.deliver.continued ≤ 1 := once _ (List.mem_of_getElem? (waits_put found))
      by_contra alive
      have fine := sound.waits found
      have whole := fine.whole (by simpa using alive)
      rw [continuing, beq_self_eq_true, Bool.toNat_true] at whole
      have once := fine.once
      have kept : wait.continuation = true := by
        by_contra gone
        simp only [Bool.not_eq_true] at gone
        rw [gone, Bool.not_false, Bool.toNat_true] at whole
        omega
      simp only [Wait.deliver, whole.1, kept, Bool.not_true, Bool.or_self, Bool.false_eq_true,
        if_false] at bound
      omega
  | _ => trivial

end ManualResetEvent

/-- In runs where no resumption goes to a coroutine that goes on without it, every wait is
continued at most once; and a step keeps this exactly if it is of that kind. -/
theorem continued_once_iff (signaled : Bool) (event : ManualResetEvent)
    (reached : Reached ManualResetEvent.step ManualResetEvent.Orderly (.new signaled) event) :
    event.ContinuedOnce ∧ ∀ action next, event.step action = some next →
      (next.ContinuedOnce ↔ event.Orderly action) := by
  have sound : event.Sound := by
    apply reached.invariant
    · exact ManualResetEvent.new_sound signaled
    · intro _ action _ sound orderly taken
      exact sound.step orderly taken
  refine ⟨sound.continuedOnce, fun action next taken => ⟨?_, ?_⟩⟩
  · exact sound.orderly_of_continuedOnce taken
  · intro orderly
    exact (sound.step orderly taken).continuedOnce

/-- One wait is woken by `set` and another, whose handler is called late, finds it set. -/
def wokenRun : List WaitEvent :=
  [.wait true, .wait true, .awaitReady 0, .awaitReady 1, .tryEmplace 0, .tryEmplace 1,
    .register 0, .set, .register 1, .wake 0, .deliver 0, .awaitResume 0, .destroy 0,
    .signal 1, .awaitResume 1, .destroy 1, .handle 1]

theorem continued_once_iff_woken :
    ∃ event, follow ManualResetEvent.step ManualResetEvent.Orderly (.new false) wokenRun =
        some event ∧
      event.waits.map Wait.continued = [1, 1] ∧ event.ContinuedOnce := by
  have followed : (follow ManualResetEvent.step ManualResetEvent.Orderly (.new false)
      wokenRun).map (fun event => event.waits.map Wait.continued) = some [1, 1] := by
    decide +kernel
  rcases exists_of_follow followed with ⟨event, ran, reached, counts⟩
  exact ⟨event, ran, counts, (continued_once_iff false event reached).1⟩

/-- The handler has been called and its resumption delivered before `register_waiter` finds
the event set. -/
def resumedBeforeRegister : List WaitEvent :=
  [.wait true, .awaitReady 0, .tryEmplace 0, .set, .signal 0, .handle 0, .deliver 0,
    .register 0]

/-- The handler is called after `register_waiter` has found the event set. -/
def resumedWhileContinuing : List WaitEvent :=
  [.wait true, .awaitReady 0, .tryEmplace 0, .set, .register 0, .signal 0, .handle 0,
    .deliver 0]

/-- The resumption is delivered before `register_waiter` finds the event set, or after it has
returned; the wait goes on twice. -/
theorem wait_continued_twice :
    (follow ManualResetEvent.step (fun _ _ => True) (.new false) resumedBeforeRegister).map
        (fun event => event.waits.map Wait.continued) = some [2] ∧
      (follow ManualResetEvent.step (fun _ _ => True) (.new false) resumedWhileContinuing).map
        (fun event => event.waits.map Wait.continued) = some [2] := by
  decide +kernel

namespace ManualResetEvent

/-- What is `done` is being delivered or has been, and so is what waits, unless it is listed
and the event is not set. -/
def Heeds (event : ManualResetEvent) (id : ℕ) (wait : Wait) : Prop :=
  (wait.done = true → wait.delivering = true ∨ wait.continuation = false) ∧
    (wait.abandoned = true → wait.continuation = false) ∧
    (wait.phase = .suspended → wait.continuation = true → wait.delivering = true ∨
      id ∈ event.wakeups ∨ id ∈ event.waiters ∧ event.signaled = false)

/-- A suspended wait that has not been continued is about to be, or it is listed and the event
is not set. -/
def Attentive (event : ManualResetEvent) : Prop :=
  ∀ id wait, event.waits[id]? = some wait → event.Heeds id wait

section

variable {event next : ManualResetEvent} {action : WaitEvent} {id : ℕ} {wait wait' : Wait}

/-- Only what is `done` or has no continuation may be taken off the lists. -/
theorem Heeds.lists (heeds : event.Heeds id wait) (signaled : next.signaled = event.signaled)
    (woken : id ∈ event.wakeups → id ∈ next.wakeups ∨ wait.done = true)
    (waiting : id ∈ event.waiters →
      id ∈ next.waiters ∨ wait.done = true ∨ wait.continuation = false) : next.Heeds id wait := by
  refine ⟨heeds.1, heeds.2.1, ?_⟩
  intro suspended kept
  have served (done : wait.done = true) : wait.delivering = true := by
    simpa [kept] using heeds.1 done
  rcases heeds.2.2 suspended kept with delivering | listed | ⟨listed, unset⟩
  · exact .inl delivering
  · rcases woken listed with still | done
    · exact .inr (.inl still)
    · exact .inl (served done)
  · rcases waiting listed with still | done | gone
    · exact .inr (.inr ⟨still, signaled.trans unset⟩)
    · exact .inl (served done)
    · cases kept.symm.trans gone

theorem Heeds.markDone (heeds : event.Heeds id wait) : event.Heeds id wait.markDone := by
  rw [Wait.markDone]
  split
  · exact heeds
  · exact ⟨fun _ => .inl rfl, heeds.2.1, fun _ _ => .inl rfl⟩

theorem Heeds.continuation_deliver (heeds : event.Heeds id wait) :
    wait.deliver.continuation = false := by
  rw [Wait.deliver]
  split
  next idle => simpa using (Bool.or_eq_true_iff.mp idle).elim heeds.2.1 (by simp)
  · rfl

theorem heeds_of_spent (spent : wait.continuation = false) : event.Heeds id wait :=
  ⟨fun _ => .inr spent, fun _ => spent, fun _ kept => by cases kept.symm.trans spent⟩

theorem Attentive.put (attentive : event.Attentive) (heeds : event.Heeds id wait) :
    (event.put id wait).Attentive := by
  intro other held there
  rcases getElem?_set_cases there with ⟨rfl, rfl⟩ | ⟨-, before⟩
  · exact heeds
  · exact attentive other held before

theorem done_of_not_live (found : event.waits[id]? = some wait) (dead : event.live id ≠ true) :
    wait.done = true := by
  simpa [live, found] using dead

theorem Attentive.compactWaiters (attentive : event.Attentive) :
    event.compactWaiters.Attentive := by
  intro id wait found
  refine (attentive id wait found).lists rfl .inl ?_
  intro listed
  by_cases live : event.live id = true
  · exact .inl (List.mem_filter.mpr ⟨listed, live⟩)
  · exact .inr (.inl (done_of_not_live found live))

/-- A wait that is not to be resumed any more leaves the list. -/
theorem Attentive.removeWaiter (attentive : event.Attentive)
    (spent : ∀ wait, event.waits[id]? = some wait → wait.continuation = false) :
    (event.removeWaiter id).Attentive := by
  intro other held found
  refine (attentive other held found).lists rfl .inl ?_
  intro listed
  by_cases same : other = id
  · subst same
    exact .inr (.inr (spent held found))
  by_cases live : event.live other = true
  · exact .inl (List.mem_filter.mpr ⟨listed, by simp [same, live]⟩)
  · exact .inr (.inl (done_of_not_live found live))

variable (attentive : event.Attentive)
include attentive

theorem Attentive.putSpent (found : event.waits[id]? = some wait)
    (spent : wait'.continuation = false) : ((event.put id wait').removeWaiter id).Attentive := by
  apply (attentive.put (heeds_of_spent spent)).removeWaiter
  intro held there
  cases there.symm.trans (waits_put found)
  exact spent

theorem Attentive.awaitReady (found : event.waits[id]? = some wait)
    (taken : event.awaitReady id wait = some next) : next.Attentive := by
  have heeds := attentive id wait found
  rw [ManualResetEvent.awaitReady] at taken
  split at taken
  · split_ifs at taken <;> cases taken <;>
      exact attentive.put ⟨heeds.1, heeds.2.1, by simp⟩
  · cases taken

theorem Attentive.tryEmplace (found : event.waits[id]? = some wait)
    (taken : event.tryEmplace id wait = some next) : next.Attentive := by
  have heeds := attentive id wait found
  rw [ManualResetEvent.tryEmplace] at taken
  split at taken
  · split_ifs at taken <;> cases taken <;>
      exact attentive.put ⟨heeds.1, heeds.2.1, by simp [Wait.goOn]⟩
  · cases taken

theorem Attentive.registerWaiter (found : event.waits[id]? = some wait)
    (taken : event.registerWaiter id wait = some next) : next.Attentive := by
  have heeds := attentive id wait found
  rw [ManualResetEvent.registerWaiter] at taken
  split at taken
  · split_ifs at taken with alive signaled
    · cases taken
      exact attentive.compactWaiters.put ⟨heeds.1, heeds.2.1, by simp [Wait.goOn]⟩
    · cases taken
      refine Attentive.put ?_ ⟨heeds.1, heeds.2.1, ?_⟩
      · intro other held there
        exact (attentive.compactWaiters other held there).lists rfl .inl
          fun listed => .inl (List.mem_append_left _ listed)
      · intro _ _
        exact .inr (.inr ⟨by simp, Bool.eq_false_iff.mpr signaled⟩)
  · cases taken

theorem Attentive.awaitResume (found : event.waits[id]? = some wait)
    (taken : event.awaitResume id wait = some next) : next.Attentive := by
  rw [ManualResetEvent.awaitResume] at taken
  split_ifs at taken <;> split at taken <;> cases taken <;>
    exact attentive.put (attentive id wait found)

theorem Attentive.destroy (found : event.waits[id]? = some wait)
    (taken : event.destroy id wait = some next) : next.Attentive := by
  rw [ManualResetEvent.destroy] at taken
  split_ifs at taken
  · cases taken
    exact attentive.put (attentive id wait found)
  · cases taken
    exact attentive.putSpent found rfl

theorem Attentive.wake (found : event.waits[id]? = some wait)
    (taken : event.wake id wait = some next) : next.Attentive := by
  rw [ManualResetEvent.wake] at taken
  split_ifs at taken
  cases taken
  intro other held there
  refine (attentive.put (attentive id wait found).markDone other held there).lists rfl ?_ .inl
  intro listed
  by_cases same : other = id
  · subst same
    cases there.symm.trans (waits_put found)
    right
    rw [Wait.markDone]
    split
    next done => exact done
    · rfl
  · exact .inl ((List.mem_erase_of_ne same).mpr listed)

theorem Attentive.set : event.set.Attentive := by
  intro id wait found
  simp only [ManualResetEvent.set, List.getElem?_mapIdx, Option.map_eq_some_iff] at found
  rcases found with ⟨old, there, rfl⟩
  have heeds : event.Heeds id (event.notify id old) := by
    rw [notify]
    split <;> exact attentive id old there
  refine ⟨heeds.1, heeds.2.1, ?_⟩
  intro suspended kept
  rcases heeds.2.2 suspended kept with delivering | listed | ⟨listed, -⟩
  · exact .inl delivering
  · exact .inr (.inl (List.mem_append_left _ listed))
  · by_cases live : event.live id = true
    · exact .inr (.inl (List.mem_append_right _ (List.mem_filter.mpr ⟨listed, live⟩)))
    · have done : (event.notify id old).done = old.done := by
        rw [notify]
        split <;> rfl
      left
      simpa [kept] using heeds.1 (done.trans (done_of_not_live there live))

theorem Attentive.step (taken : event.step action = some next) : next.Attentive := by
  cases action with
  | wait _ =>
      cases taken
      intro id wait found
      rcases getElem?_concat_cases found with before | rfl
      · exact attentive id wait before
      · simp [Heeds]
  | set =>
      cases taken
      exact attentive.set
  | reset =>
      cases taken
      intro id wait found
      have heeds := attentive.compactWaiters id wait found
      refine ⟨heeds.1, heeds.2.1, ?_⟩
      intro suspended kept
      rcases heeds.2.2 suspended kept with delivering | listed | ⟨listed, -⟩
      · exact .inl delivering
      · exact .inr (.inl listed)
      · exact .inr (.inr ⟨listed, rfl⟩)
  | awaitReady _ => exact of_step_at taken attentive.awaitReady
  | tryEmplace _ => exact of_step_at taken attentive.tryEmplace
  | register _ => exact of_step_at taken attentive.registerWaiter
  | awaitResume _ => exact of_step_at taken attentive.awaitResume
  | destroy _ => exact of_step_at taken attentive.destroy
  | signal id =>
      rcases Option.bind_eq_some_iff.mp taken with ⟨wait, found, changed⟩
      rw [signal] at changed
      split_ifs at changed
      cases changed
      exact attentive.put (attentive id wait found)
  | handle id =>
      rcases Option.bind_eq_some_iff.mp taken with ⟨wait, found, changed⟩
      rw [handle] at changed
      split_ifs at changed
      cases changed
      exact attentive.put (attentive id wait found).markDone
  | wake _ => exact of_step_at taken attentive.wake
  | deliver id =>
      rcases Option.bind_eq_some_iff.mp taken with ⟨wait, found, changed⟩
      rw [deliver] at changed
      split_ifs at changed
      cases changed
      exact attentive.putSpent found (attentive id wait found).continuation_deliver

end

/-- No wakeup is lost, in whatever order the threads act. -/
theorem attentive_run (signaled : Bool) (actions : List WaitEvent) :
    (runOf step (new signaled) actions).Attentive := by
  apply runOf_invariant
  · simp [Attentive, new]
  · intro _ _ _ attentive taken
    exact attentive.step taken

end ManualResetEvent

end Corouv.Sync
