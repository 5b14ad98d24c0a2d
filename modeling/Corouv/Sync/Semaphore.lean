import Corouv.Sync.Accounting

/-!
# AsyncSemaphore

The resource is `_permits`.  In every run, with any signals, cancellations and destroyed
coroutines, no permit is given away twice, no live waiter is left in the line while there
is a permit, and waiters are served in the order in which they came.
-/

namespace Corouv.Sync

open Library

def semaphorePermits : Permits ℕ where
  free permits := permits
  take permits := if permits = 0 then none else some (permits - 1)
  release count permits := if count > 2 ^ 64 - 1 - permits then none else some (permits + count)
  grant permits := if permits > 0 then some (permits - 1) else none
  finish permits := permits
  failure := .runtime "corouv::AsyncSemaphore acquire failed"
  settled _ := True
  busy _ := True
  take_eq_some := by
    intro permits later taken
    split_ifs at taken
    cases taken
    omega
  take_eq_none := by
    intro permits _ taken
    split_ifs at taken with none
    exact none
  release_eq_some := by
    intro count permits later released
    split_ifs at released
    cases released
    rfl
  grant_eq_some := by
    intro permits later granted
    split_ifs at granted
    cases granted
    omega
  grant_eq_none := by
    intro permits _ granted
    split_ifs at granted
    omega
  free_finish _ := rfl
  settled_take _ _ := trivial
  busy_release _ _ := trivial
  busy_grant _ _ := trivial
  settled_finish _ := trivial

abbrev AsyncSemaphore := Lock ℕ

namespace AsyncSemaphore

def new (initialPermits : ℕ) : AsyncSemaphore :=
  { resource := initialPermits }

def step : AsyncSemaphore → Event → Option AsyncSemaphore :=
  Lock.step semaphorePermits

end AsyncSemaphore

def anyEvent {ρ : Type} (_ : Lock ρ) (_ : Event) : Prop :=
  True

theorem Lock.not_live_of_line {ρ : Type} {state : Lock ρ} (empty : state.line = []) :
    ∀ id ∈ state.waiters, state.live id = false := by
  intro id member
  have absent := List.filter_eq_nil_iff.mp empty id member
  simpa using absent

theorem AsyncSemaphore.release_overflow {semaphore next : AsyncSemaphore} {count : ℕ}
    (overflow : 2 ^ 64 - 1 - semaphore.resource < count)
    (taken : step semaphore (.release count) = some next) : next = semaphore := by
  have refused : semaphorePermits.release count semaphore.resource = none := if_pos overflow
  simp only [step, Lock.step, Lock.release, refused] at taken
  split_ifs at taken
  · exact (Option.some.inj taken).symm
  · exact (Option.some.inj taken).symm

/-- In every run no more permits are held than were released, no one waits beside a free permit,
waiters are served in the order in which they came, and a release that would overflow changes
nothing. -/
theorem semaphore_wakes_in_order (initial : ℕ) (semaphore : AsyncSemaphore)
    (reached : Reached AsyncSemaphore.step anyEvent (.new initial) semaphore) :
    semaphore.completed + semaphore.inFlight + semaphore.resource ≤
        initial + semaphore.released ∧
      (semaphore.releasing = false → 0 < semaphore.resource →
        ∀ id ∈ semaphore.waiters, semaphore.live id = false) ∧
      Handoff.run semaphore.moves = some (semaphore.waiters.filter semaphore.live) ∧
      (∀ count next, 2 ^ 64 - 1 - semaphore.resource < count →
        AsyncSemaphore.step semaphore (.release count) = some next →
          next.resource = semaphore.resource ∧ next.waiters = semaphore.waiters) := by
  have sound : semaphore.Sound semaphorePermits initial := Lock.sound_of_reached trivial reached
  refine ⟨?_, ?_, sound.lined.order, ?_⟩
  · have fits := sound.free_add_le
    simp only [semaphorePermits] at fits
    omega
  · intro idle free
    exact Lock.not_live_of_line (sound.balanced.vacant idle free)
  · intro _ _ overflow taken
    rw [AsyncSemaphore.release_overflow overflow taken]
    exact ⟨rfl, rfl⟩

/-- Three waiters, the first of which is cancelled while `release(2)` is under way, and a
release that overflows. -/
def batchRun : List Event :=
  [.call true, .call false, .call true, .awaitReady 0, .awaitReady 1, .awaitReady 2,
    .tryEmplace 0, .tryEmplace 1, .tryEmplace 2, .enqueue 0, .enqueue 1, .enqueue 2,
    .signal 0, .handle 0, .release 2, .cancelMark 0, .grant, .grant, .grant, .finishRelease,
    .release (2 ^ 64), .wake 1, .awaitResume 1, .cancelRemove 0, .awaitResume 0]

theorem semaphore_wakes_in_order_batch :
    ∃ semaphore, follow AsyncSemaphore.step (fun _ _ => True) (.new 0) batchRun = some semaphore ∧
      (semaphore.completed, semaphore.inFlight, semaphore.resource, semaphore.released) =
        (1, 1, 0, 2) ∧
      semaphore.completed + semaphore.inFlight + semaphore.resource ≤ 0 + semaphore.released ∧
      Handoff.run semaphore.moves = some (semaphore.waiters.filter semaphore.live) := by
  have followed : (follow AsyncSemaphore.step (fun _ _ => True) (.new 0) batchRun).map
      (fun semaphore => (semaphore.completed, semaphore.inFlight, semaphore.resource,
        semaphore.released)) = some (1, 1, 0, 2) := by
    decide +kernel
  rcases exists_of_follow followed with ⟨semaphore, ran, reached, counts⟩
  have holds := semaphore_wakes_in_order 0 semaphore reached
  exact ⟨semaphore, ran, counts, holds.1, holds.2.2.1⟩

end Corouv.Sync
