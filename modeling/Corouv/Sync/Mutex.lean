import Corouv.Sync.Semaphore

/-!
# AsyncMutex

The resource is `_locked`, with a third state for the critical section of `unlock`, in
which the mutex is still locked and its next owner has not been found.  A mutex is a
semaphore with one permit: at most one party owns it, and `unlock` hands it to the waiter
that has waited longest.
-/

namespace Corouv.Sync

open Library

inductive MutexState where
  | unlocked
  | locked
  /-- Locked, while `unlock` looks for a waiter. -/
  | handing
  deriving DecidableEq, Repr

def mutexPermits : Permits MutexState where
  free
    | .unlocked | .handing => 1
    | .locked => 0
  take
    | .unlocked => some .locked
    | _ => none
  release
    | 1, .locked => some .handing
    | _, _ => none
  grant
    | .handing => some .locked
    | _ => none
  finish
    | .handing => .unlocked
    | state => state
  failure := .runtime "corouv::AsyncMutex lock failed"
  settled state := state ≠ .handing
  busy state := state ≠ .unlocked
  take_eq_some := by
    rintro (_ | _ | _) later ⟨⟩
    rfl
  take_eq_none := by
    rintro (_ | _ | _) settled taken
    · cases taken
    · rfl
    · exact absurd rfl settled
  release_eq_some := by
    intro count state later released
    split at released
    · cases released
      rfl
    · cases released
  grant_eq_some := by
    rintro (_ | _ | _) later ⟨⟩
    rfl
  grant_eq_none := by
    rintro (_ | _ | _) busy granted
    · exact absurd rfl busy
    · rfl
    · cases granted
  free_finish := by
    rintro (_ | _ | _) <;> rfl
  settled_take := by
    rintro (_ | _ | _) later - ⟨⟩
    simp
  busy_release := by
    intro count state later _ released
    split at released
    · cases released
      simp
    · cases released
  busy_grant := by
    rintro (_ | _ | _) later - ⟨⟩
    simp
  settled_finish := by
    rintro (_ | _ | _) _ <;> simp

abbrev AsyncMutex := Lock MutexState

namespace AsyncMutex

def new : AsyncMutex :=
  { resource := .unlocked }

/-- The events are those of the semaphore; `unlock` is the release of one permit. -/
def step : AsyncMutex → Event → Option AsyncMutex :=
  Lock.step mutexPermits

def locked (mutex : AsyncMutex) : Bool :=
  mutex.resource != .unlocked

/-- The parties that own the mutex: a lock that has completed and has not been undone, or
a waiter that has been given the lock. -/
def owners (mutex : AsyncMutex) : ℕ :=
  mutex.completed - mutex.released + mutex.inFlight

/-- Only an owner unlocks. -/
def UnlocksOwned (mutex : AsyncMutex) : Event → Prop
  | .release count => count = 1 ∧ mutex.released < mutex.completed
  | _ => True

instance (mutex : AsyncMutex) : DecidablePred mutex.UnlocksOwned
  | .release count => inferInstanceAs (Decidable (count = 1 ∧ mutex.released < mutex.completed))
  | .call _ | .tryTake | .grant | .finishRelease | .wake _ | .awaitReady _ | .tryEmplace _
  | .enqueue _ | .awaitResume _ | .destroy _ | .signal _ | .handle _ | .cancelMark _
  | .cancelRemove _ => isTrue trivial

theorem released_le_step {mutex next : AsyncMutex} {event : Event}
    (before : mutex.released ≤ mutex.completed) (owned : mutex.UnlocksOwned event)
    (taken : step mutex event = some next) : next.released ≤ next.completed := by
  have completes := Lock.completed_le_step taken
  rcases (Lock.counters_step taken).2 with _ | ⟨_, rfl, _⟩
  · omega
  · rcases owned with ⟨rfl, _⟩
    omega

end AsyncMutex

/-- In every run in which only an owner unlocks there is at most one owner, waiters get the mutex
in the order in which they came, and none is left waiting for a free mutex. -/
theorem mutex_hands_off (mutex : AsyncMutex)
    (reached : Reached AsyncMutex.step AsyncMutex.UnlocksOwned .new mutex) :
    (mutex.released ≤ mutex.completed ∧ mutex.owners ≤ 1) ∧
      Handoff.run mutex.moves = some (mutex.waiters.filter mutex.live) ∧
      (mutex.locked = false → ∀ id ∈ mutex.waiters, mutex.live id = false) := by
  have sound : mutex.Sound mutexPermits 1 :=
    Lock.sound_of_reached (by simp [mutexPermits] : mutexPermits.settled .unlocked) reached
  have unlocks : mutex.released ≤ mutex.completed := by
    apply reached.invariant
    · exact Nat.zero_le _
    · intro _ _ _ before owned taken
      exact AsyncMutex.released_le_step before owned taken
  refine ⟨⟨unlocks, ?_⟩, sound.lined.order, ?_⟩
  · have fits := sound.free_add_le
    simp only [AsyncMutex.owners]
    omega
  · intro unlocked
    have here : mutex.resource = .unlocked := by
      simpa [AsyncMutex.locked] using unlocked
    have idle : mutex.releasing = false := by
      by_contra releasing
      exact sound.balanced.busy (by simpa using releasing) here
    apply Lock.not_live_of_line
    apply sound.balanced.vacant idle
    rw [here]
    exact Nat.one_pos

/-- The owner unlocks while two calls wait, the first of which has been cancelled. -/
def handOffRun : List Event :=
  [.tryTake, .call true, .call true, .awaitReady 0, .awaitReady 1, .tryEmplace 0, .tryEmplace 1,
    .enqueue 0, .enqueue 1, .signal 0, .handle 0, .cancelMark 0, .release 1, .grant,
    .finishRelease, .tryTake, .wake 1, .awaitResume 1]

theorem mutex_hands_off_second :
    ∃ mutex, follow AsyncMutex.step AsyncMutex.UnlocksOwned .new handOffRun = some mutex ∧
      (mutex.completed, mutex.released, mutex.locked) = (2, 1, true) ∧ mutex.owners ≤ 1 := by
  have followed : (follow AsyncMutex.step AsyncMutex.UnlocksOwned .new handOffRun).map
      (fun mutex => (mutex.completed, mutex.released, mutex.locked)) = some (2, 1, true) := by
    decide +kernel
  rcases exists_of_follow followed with ⟨mutex, ran, reached, counts⟩
  exact ⟨mutex, ran, counts, (mutex_hands_off mutex reached).1.2⟩

/-- In a careful run no permit of a semaphore is lost, and a mutex that is locked has an
owner or is going to have one. -/
theorem permits_conserved (initial : ℕ) (semaphore : AsyncSemaphore) (mutex : AsyncMutex) :
    (Reached AsyncSemaphore.step Lock.Careful (.new initial) semaphore →
      semaphore.resource + semaphore.completed + semaphore.pledged =
        initial + semaphore.released) ∧
    (Reached AsyncMutex.step Lock.Careful .new mutex →
      mutexPermits.free mutex.resource + mutex.completed + mutex.pledged = 1 + mutex.released ∧
      (mutex.releasing = false → mutex.locked = true →
        mutex.released < mutex.completed + mutex.pledged)) := by
  constructor
  · intro reached
    have balance := Lock.balance_of_careful (trivial : semaphorePermits.settled initial) reached
    exact balance
  · intro reached
    have settled : mutexPermits.settled .unlocked := by simp [mutexPermits]
    have balance := Lock.balance_of_careful settled reached
    have sound := Lock.sound_of_reached settled reached
    refine ⟨balance, ?_⟩
    intro idle locked
    have here : mutex.resource = .locked := by
      have notHanding := sound.balanced.settled idle
      cases state : mutex.resource with
      | unlocked => simp [AsyncMutex.locked, state] at locked
      | locked => rfl
      | handing => exact absurd state notHanding
    rw [here] at balance
    simp only [mutexPermits] at balance
    omega

/-- One call is cancelled while it waits, one is destroyed, and one is served. -/
def carefulRun : List Event :=
  [.tryTake, .call true, .call true, .call true, .awaitReady 0, .awaitReady 1, .awaitReady 2,
    .tryEmplace 0, .tryEmplace 1, .tryEmplace 2, .enqueue 0, .enqueue 1, .enqueue 2,
    .signal 0, .handle 0, .cancelMark 0, .destroy 1, .release 1, .grant, .finishRelease,
    .cancelRemove 0, .awaitResume 0]

theorem permits_conserved_served :
    (∃ semaphore, follow AsyncSemaphore.step Lock.Careful (.new 1) carefulRun = some semaphore ∧
      semaphore.calls.map Call.phase = [.threw false .signal, .destroyed, .suspended] ∧
      semaphore.resource + semaphore.completed + semaphore.pledged = 1 + semaphore.released) ∧
    (∃ mutex, follow AsyncMutex.step Lock.Careful .new carefulRun = some mutex ∧
      mutex.locked = true ∧ mutex.released < mutex.completed + mutex.pledged) := by
  have semaphoreRun : (follow AsyncSemaphore.step Lock.Careful (.new 1) carefulRun).map
      (fun semaphore => semaphore.calls.map Call.phase) =
        some [.threw false .signal, .destroyed, .suspended] := by
    decide +kernel
  have mutexRun : (follow AsyncMutex.step Lock.Careful .new carefulRun).map
      (fun mutex => (mutex.releasing, mutex.locked)) = some (false, true) := by
    decide +kernel
  rcases exists_of_follow semaphoreRun with ⟨semaphore, one, semaphoreReached, phases⟩
  rcases exists_of_follow mutexRun with ⟨mutex, two, mutexReached, flags⟩
  rcases Prod.mk.inj flags with ⟨idle, locked⟩
  rcases permits_conserved 1 semaphore mutex with ⟨semaphoreKept, mutexKept⟩
  constructor
  · exact ⟨semaphore, one, phases, semaphoreKept semaphoreReached⟩
  · exact ⟨mutex, two, locked, (mutexKept mutexReached).2 idle locked⟩

/-- A signal between `await_ready` and `await_resume`. -/
def lateSignalRun : List Event :=
  [.call true, .awaitReady 0, .signal 0, .awaitResume 0]

/-- A waiter that has been granted its permit is destroyed before it is resumed. -/
def destroyedRun : List Event :=
  [.call false, .awaitReady 0, .tryEmplace 0, .enqueue 0, .release 1, .grant, .finishRelease,
    .destroy 0]

/-- In both runs the only permit is gone for good, and the mutex stays locked without an
owner. -/
theorem failed_acquire_keeps_permit :
    (∃ semaphore, follow AsyncSemaphore.step (fun _ _ => True) (.new 1) lateSignalRun =
        some semaphore ∧
      semaphore.calls.map Call.phase = [.threw true .signal] ∧
      semaphore.resource + semaphore.completed + semaphore.pledged < 1 + semaphore.released) ∧
    (∃ semaphore, follow AsyncSemaphore.step (fun _ _ => True) (.new 0) destroyedRun =
        some semaphore ∧
      semaphore.calls.map Call.phase = [.destroyed] ∧
      semaphore.resource + semaphore.completed + semaphore.pledged < 0 + semaphore.released) ∧
    (∃ mutex, follow AsyncMutex.step (fun _ _ => True) .new lateSignalRun = some mutex ∧
      mutex.locked = true ∧ mutex.completed + mutex.pledged = mutex.released) := by
  have late : (follow AsyncSemaphore.step (fun _ _ => True) (.new 1) lateSignalRun).map
      (fun semaphore => (semaphore.calls.map Call.phase,
        semaphore.resource + semaphore.completed + semaphore.pledged, semaphore.released)) =
        some ([.threw true .signal], 0, 0) := by
    decide +kernel
  have destroyed : (follow AsyncSemaphore.step (fun _ _ => True) (.new 0) destroyedRun).map
      (fun semaphore => (semaphore.calls.map Call.phase,
        semaphore.resource + semaphore.completed + semaphore.pledged, semaphore.released)) =
        some ([.destroyed], 0, 1) := by
    decide +kernel
  have locked : (follow AsyncMutex.step (fun _ _ => True) .new lateSignalRun).map
      (fun mutex => (mutex.locked, mutex.completed + mutex.pledged, mutex.released)) =
        some (true, 0, 0) := by
    decide +kernel
  refine ⟨?_, ?_, ?_⟩
  · rcases Option.map_eq_some_iff.mp late with ⟨semaphore, ran, seen⟩
    simp only [Prod.mk.injEq] at seen
    exact ⟨semaphore, ran, seen.1, by omega⟩
  · rcases Option.map_eq_some_iff.mp destroyed with ⟨semaphore, ran, seen⟩
    simp only [Prod.mk.injEq] at seen
    exact ⟨semaphore, ran, seen.1, by omega⟩
  · rcases Option.map_eq_some_iff.mp locked with ⟨mutex, ran, seen⟩
    simp only [Prod.mk.injEq] at seen
    exact ⟨mutex, ran, seen.1, by omega⟩

end Corouv.Sync
