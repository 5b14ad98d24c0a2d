import Corouv.Base
import Corouv.Library.Handoff
import Corouv.Library.Transition

/-!
# Waiting for a permit

`AsyncSemaphore` and `AsyncMutex` share their `Waiter` and `Awaiter` classes and differ in
what they count: `Permits` is what the protocol needs to know about that.  A state of the
protocol holds the members of the object and every call of `acquire` (or `lock`) made on
it, with the flags of its waiter.  The steps are those of the code: each critical section
under `_mu`, each access to the flags outside of it, and the steps of a coroutine between
which a signal, another thread or the executor may get in.  The critical section of a
release is itself taken apart, because the flags of a waiter may change while it runs.

A coroutine that is resumed although it is not suspended behaves in no defined way, and
has no step here.
-/

namespace Corouv.Sync

open Library

/-- What is waited for.  `free` is the number of permits that are not given away; between
the start and the end of a release the resource is `busy`, and otherwise it is `settled`. -/
structure Permits (ρ : Type) where
  free : ρ → ℕ
  /-- One permit, if there is one. -/
  take : ρ → Option ρ
  /-- The start of a release; none where it throws. -/
  release : ℕ → ρ → Option ρ
  /-- One permit for the next waiter; none where the release does not look for one. -/
  grant : ρ → Option ρ
  /-- The end of a release. -/
  finish : ρ → ρ
  /-- Thrown by a call that ends without a permit and without having been cancelled. -/
  failure : Exn
  settled : ρ → Prop
  busy : ρ → Prop
  take_eq_some : ∀ {resource later}, take resource = some later →
    free resource = free later + 1
  take_eq_none : ∀ {resource}, settled resource → take resource = none → free resource = 0
  release_eq_some : ∀ {count resource later}, release count resource = some later →
    free later = free resource + count
  grant_eq_some : ∀ {resource later}, grant resource = some later →
    free resource = free later + 1
  grant_eq_none : ∀ {resource}, busy resource → grant resource = none → free resource = 0
  free_finish : ∀ resource, free (finish resource) = free resource
  settled_take : ∀ {resource later}, settled resource → take resource = some later →
    settled later
  busy_release : ∀ {count resource later}, settled resource →
    release count resource = some later → busy later
  busy_grant : ∀ {resource later}, busy resource → grant resource = some later → busy later
  settled_finish : ∀ {resource}, busy resource → settled (finish resource)

/-- The atomic members of a `Waiter`. -/
structure Waiter where
  done : Bool := false
  granted : Bool := false
  abandoned : Bool := false
  cancelRequested : Bool := false
  deriving DecidableEq, Repr

def Waiter.tryMarkGranted (waiter : Waiter) : Option Waiter :=
  if waiter.done then none else some { waiter with done := true, granted := true }

def Waiter.tryMarkCanceled (waiter : Waiter) : Option Waiter :=
  if waiter.done then none else some { waiter with done := true }

/-- Where the coroutine of a call is. -/
inductive Phase where
  | starting
  /-- `await_ready` has returned `true`, with a permit or because of a signal. -/
  | ready (acquired : Bool)
  /-- `await_ready` has returned `false`. -/
  | suspending
  /-- The cancel handler is in place. -/
  | emplaced
  /-- `await_suspend` has returned `false`. -/
  | continuing
  | suspended
  | returned
  /-- Left with an exception, with or without having taken a permit. -/
  | threw (acquired : Bool) (error : Exn)
  /-- The frame was destroyed while it was suspended. -/
  | destroyed
  deriving DecidableEq, Repr

/-- How far `cancel_on_executor` has come. -/
inductive CancelStage where
  | none
  /-- It is scheduled, or runs on the thread that sent the signal. -/
  | requested
  /-- It has set `done`. -/
  | marked
  deriving DecidableEq, Repr

structure Call where
  hasSlot : Bool
  phase : Phase := .starting
  /-- The signal of its slot has been emitted. -/
  canceled : Bool := false
  /-- The slot has a handler that has not been called. -/
  handler : Bool := false
  waiter : Waiter := {}
  cancel : CancelStage := .none
  /-- The resumptions of the coroutine that have been scheduled. -/
  resumes : ℕ := 0
  deriving DecidableEq, Repr

def Call.resumeAfterMarkedDone (call : Call) : Call :=
  if call.waiter.abandoned then call else { call with resumes := call.resumes + 1 }

def Call.awaitResume (failure : Exn) (call : Call) : Call :=
  match call.phase with
  | .ready acquired =>
      -- There is no waiter: the permit, if any, came from `await_ready`.
      if call.canceled then { call with phase := .threw acquired .signal }
      else { call with phase := .returned }
  | _ =>
      if call.waiter.granted then { call with phase := .returned, handler := false }
      else if call.canceled then { call with phase := .threw false .signal }
      else { call with phase := .threw false failure }

structure Lock (ρ : Type) where
  resource : ρ
  waiters : List ℕ := []
  /-- A release holds `_mu`. -/
  releasing : Bool := false
  /-- The waiters that releases have granted a permit and not yet resumed. -/
  wakeups : List ℕ := []
  calls : List Call := []
  /-- The calls of `try_acquire` or `try_lock` that have succeeded. -/
  tried : ℕ := 0
  /-- The permits released so far. -/
  released : ℕ := 0
  /-- What has happened to the line of waiters. -/
  moves : List (Move ℕ) := []
  deriving DecidableEq, Repr

inductive Event where
  | call (hasSlot : Bool)
  | tryTake
  | release (count : ℕ)
  /-- The release looks at the first waiter. -/
  | grant
  | finishRelease
  /-- A release resumes a waiter it has granted a permit. -/
  | wake (call : ℕ)
  | awaitReady (call : ℕ)
  | tryEmplace (call : ℕ)
  | enqueue (call : ℕ)
  | awaitResume (call : ℕ)
  | destroy (call : ℕ)
  | signal (call : ℕ)
  /-- The handler of the slot is called. -/
  | handle (call : ℕ)
  /-- `cancel_on_executor` up to `try_mark_canceled`. -/
  | cancelMark (call : ℕ)
  /-- The rest of `cancel_on_executor`. -/
  | cancelRemove (call : ℕ)
  deriving DecidableEq, Repr

namespace Lock

variable {ρ : Type}

def put (state : Lock ρ) (id : ℕ) (call : Call) : Lock ρ :=
  { state with calls := state.calls.set id call }

/-- The call is there and its waiter is not `done`. -/
def live (state : Lock ρ) (id : ℕ) : Bool :=
  state.calls[id]?.any fun call => !call.waiter.done

def compactWaiters (state : Lock ρ) : Lock ρ :=
  { state with waiters := state.waiters.filter state.live }

def removeWaiter (state : Lock ρ) (id : ℕ) : Lock ρ :=
  { state with waiters := state.waiters.filter fun item => item != id && state.live item }

def log (state : Lock ρ) (move : Move ℕ) : Lock ρ :=
  { state with moves := state.moves ++ [move] }

variable (permits : Permits ρ)

/-- `try_acquire` and `try_lock`. -/
def tryTake (state : Lock ρ) : Option (Lock ρ) :=
  if state.releasing then none
  else
    match permits.take state.resource with
    | none => some state.compactWaiters
    | some resource =>
        some ({ state.compactWaiters with
          resource := resource, tried := state.tried + 1 }.log .pass)

def awaitReady (state : Lock ρ) (id : ℕ) (call : Call) : Option (Lock ρ) :=
  match call.phase with
  | .starting =>
      if call.canceled then some (state.put id { call with phase := .ready false })
      else if state.releasing then none
      else
        match permits.take state.resource with
        | none => some (state.compactWaiters.put id { call with phase := .suspending })
        | some resource =>
            some (({ state.compactWaiters with resource := resource }.log .pass).put id
              { call with phase := .ready true })
  | _ => none

def tryEmplace (state : Lock ρ) (id : ℕ) (call : Call) : Option (Lock ρ) :=
  match call.phase with
  | .suspending =>
      if call.canceled then some (state.put id { call with phase := .continuing })
      else some (state.put id { call with phase := .emplaced, handler := call.hasSlot })
  | _ => none

def enqueueWaiter (state : Lock ρ) (id : ℕ) (call : Call) : Option (Lock ρ) :=
  match call.phase with
  | .emplaced =>
      if state.releasing then none
      else if call.waiter.done then
        some (state.compactWaiters.put id { call with phase := .continuing })
      else
        match permits.take state.resource with
        | some resource =>
            some (({ state.compactWaiters with resource := resource }.log .pass).put id
              { call with
                phase := .continuing
                waiter := { call.waiter with granted := true, done := true } })
        | none =>
            some (({ state.compactWaiters with
              waiters := state.compactWaiters.waiters ++ [id] }.log (.enter id)).put id
                { call with phase := .suspended })
  | _ => none

def awaitResume (state : Lock ρ) (id : ℕ) (call : Call) : Option (Lock ρ) :=
  match call.phase with
  | .ready _ | .continuing => some (state.put id (call.awaitResume permits.failure))
  | .suspended =>
      if call.resumes = 0 then none
      else some (state.put id
        { call.awaitResume permits.failure with resumes := call.resumes - 1 })
  | _ => none

/-- `~Awaiter` of a suspended coroutine. -/
def destroy (state : Lock ρ) (id : ℕ) (call : Call) : Option (Lock ρ) :=
  match call.phase with
  | .suspended =>
      if state.releasing then none
      else
        some (((state.log (.leave id)).put id
          { call with
            phase := .destroyed
            waiter := { call.waiter with abandoned := true, done := true } }).removeWaiter id)
  | _ => none

def signal (state : Lock ρ) (id : ℕ) (call : Call) : Option (Lock ρ) :=
  if call.hasSlot then some (state.put id { call with canceled := true }) else none

/-- The handler: `request_cancel_from_any_thread`. -/
def handle (state : Lock ρ) (id : ℕ) (call : Call) : Option (Lock ρ) :=
  if call.handler && call.canceled then
    some (state.put id
      { call with
        handler := false, cancel := .requested
        waiter := { call.waiter with cancelRequested := true } })
  else none

def cancelMark (state : Lock ρ) (id : ℕ) (call : Call) : Option (Lock ρ) :=
  match call.cancel with
  | .requested =>
      if call.waiter.cancelRequested then
        match call.waiter.tryMarkCanceled with
        | none => some (state.put id { call with cancel := .none })
        | some waiter =>
            some ((state.log (.leave id)).put id
              { call with cancel := .marked, waiter := waiter })
      else some (state.put id { call with cancel := .none })
  | _ => none

def cancelRemove (state : Lock ρ) (id : ℕ) (call : Call) : Option (Lock ρ) :=
  match call.cancel with
  | .marked =>
      if state.releasing then none
      else
        some ((state.put id { call with cancel := .none }.resumeAfterMarkedDone).removeWaiter id)
  | _ => none

/-- The start of `release` or `unlock`; an exception leaves everything as it is. -/
def release (state : Lock ρ) (count : ℕ) : Option (Lock ρ) :=
  if count = 0 then some state
  else if state.releasing then none
  else
    match permits.release count state.resource with
    | none => some state
    | some resource =>
        some { state.compactWaiters with
          resource := resource, releasing := true, released := state.released + count }

/-- A turn of the loop over the waiters. -/
def grant (state : Lock ρ) : Option (Lock ρ) :=
  if state.releasing then
    match permits.grant state.resource, state.waiters with
    | some resource, candidate :: later =>
        match state.calls[candidate]? with
        | none => some { state with waiters := later }
        | some call =>
            match call.waiter.tryMarkGranted with
            | none => some { state with waiters := later }
            | some waiter =>
                some (({ state with
                  resource := resource, waiters := later,
                  wakeups := state.wakeups ++ [candidate] }.log (.serve candidate)).put candidate
                    { call with waiter := waiter })
    | _, _ => none
  else none

def finishRelease (state : Lock ρ) : Option (Lock ρ) :=
  if state.releasing && ((permits.grant state.resource).isNone || state.waiters.isEmpty) then
    some { state with resource := permits.finish state.resource, releasing := false }
  else none

def wake (state : Lock ρ) (id : ℕ) (call : Call) : Option (Lock ρ) :=
  if id ∈ state.wakeups then
    some ({ state with wakeups := state.wakeups.erase id }.put id call.resumeAfterMarkedDone)
  else none

/-- A step of a call that has been made. -/
def withCall (state : Lock ρ) (id : ℕ) (change : Lock ρ → ℕ → Call → Option (Lock ρ)) :
    Option (Lock ρ) :=
  state.calls[id]?.bind (change state id)

def step (state : Lock ρ) : Event → Option (Lock ρ)
  | .call hasSlot => some { state with calls := state.calls ++ [{ hasSlot := hasSlot }] }
  | .tryTake => state.tryTake permits
  | .release count => state.release permits count
  | .grant => state.grant permits
  | .finishRelease => state.finishRelease permits
  | .wake id => state.withCall id wake
  | .awaitReady id => state.withCall id (awaitReady permits)
  | .tryEmplace id => state.withCall id tryEmplace
  | .enqueue id => state.withCall id (enqueueWaiter permits)
  | .awaitResume id => state.withCall id (awaitResume permits)
  | .destroy id => state.withCall id destroy
  | .signal id => state.withCall id signal
  | .handle id => state.withCall id handle
  | .cancelMark id => state.withCall id cancelMark
  | .cancelRemove id => state.withCall id cancelRemove

end Lock

end Corouv.Sync
