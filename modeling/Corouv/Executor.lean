import Mathlib.Data.List.Nodup
import Corouv.Library.Places
import Corouv.Library.Transition

/-!
# The executor

`UvExecutor::schedule` tests the flag `closing`, appends the task to the queue under the mutex
and wakes the loop with `uv_async_send`.  On the loop thread `on_async` takes the whole queue
and runs its tasks one after another; they may schedule others or shut the executor down.  libuv
enters the callback some time after a send, and not at all once `uv_close` has been called.  A
task is known by the call of `schedule` that it came with.
-/

namespace Corouv

open Library

/-- Where a call of `schedule` stands. -/
inductive Scheduling where
  /-- It has found the executor open. -/
  | checked
  /-- Its task is in the queue, and it has not woken the loop. -/
  | pushed
  | returned (accepted : Bool)
  deriving DecidableEq

structure Executor where
  q : List ℕ := []
  closing : Bool := false
  /-- `uv_async_send` was called and the callback has not been entered since. -/
  sent : Bool := false
  /-- `on_async` has been entered and has not taken the queue. -/
  entered : Bool := false
  /-- The tasks `on_async` has taken and has still to run. -/
  taken : List ℕ := []
  /-- The close callback of the handle has run. -/
  closed : Bool := false
  calls : List Scheduling := []
  /-- The tasks in the order in which they were enqueued. -/
  enqueued : List ℕ := []
  /-- The tasks in the order in which they were run. -/
  ran : List ℕ := []

inductive ExecutorEvent where
  | schedule
  | push (call : ℕ)
  | send (call : ℕ)
  | enter
  | swap
  | run
  | shutdown
  | close

namespace Executor

/-- `shutdown` and the callbacks of libuv come on the loop thread, so that none of them is
within `on_async` before it has taken the queue; a task that `on_async` runs may be. -/
def step (state : Executor) : ExecutorEvent → Option Executor
  | .schedule =>
      let test := if state.closing then .returned false else .checked
      some { state with calls := state.calls ++ [test] }
  | .push call =>
      if state.calls[call]? = some .checked then
        some
          { state with
            q := state.q ++ [call], enqueued := state.enqueued ++ [call],
            calls := state.calls.set call .pushed }
      else none
  | .send call =>
      if state.calls[call]? = some .pushed then
        some { state with sent := true, calls := state.calls.set call (.returned true) }
      else none
  | .enter =>
      if state.sent ∧ ¬state.closing ∧ ¬state.entered ∧ state.taken = [] then
        some { state with sent := false, entered := true }
      else none
  | .swap =>
      if state.entered then some { state with q := [], entered := false, taken := state.q }
      else none
  | .run =>
      match state.taken with
      | [] => none
      | task :: rest => some { state with taken := rest, ran := state.ran ++ [task] }
  | .shutdown => if state.entered then none else some { state with closing := true }
  | .close =>
      if state.closing ∧ ¬state.entered ∧ state.taken = [] then some { state with closed := true }
      else none

/-- The ways a step can go. -/
inductive Move (state : Executor) : ExecutorEvent → Executor → Prop
  | schedules :
      Move state .schedule
        { state with
          calls := state.calls ++ [if state.closing then .returned false else .checked] }
  | pushes {call : ℕ} (checked : state.calls[call]? = some .checked) :
      Move state (.push call)
        { state with
          q := state.q ++ [call], enqueued := state.enqueued ++ [call],
          calls := state.calls.set call .pushed }
  | sends {call : ℕ} (pushed : state.calls[call]? = some .pushed) :
      Move state (.send call)
        { state with sent := true, calls := state.calls.set call (.returned true) }
  | enters (opened : state.closing = false) (idle : state.taken = []) :
      Move state .enter { state with sent := false, entered := true }
  | swaps (entered : state.entered = true) :
      Move state .swap { state with q := [], entered := false, taken := state.q }
  | runs {task : ℕ} {rest : List ℕ} (waiting : state.taken = task :: rest) :
      Move state .run { state with taken := rest, ran := state.ran ++ [task] }
  | shutsDown (outside : state.entered = false) :
      Move state .shutdown { state with closing := true }
  | closes (closing : state.closing = true) (outside : state.entered = false)
      (idle : state.taken = []) :
      Move state .close { state with closed := true }

variable {state next : Executor} {event : ExecutorEvent}

/-- Everything a step of the executor can do. -/
theorem move_of_step (taken : state.step event = some next) : state.Move event next := by
  cases event with
  | schedule =>
      cases taken
      exact .schedules
  | push _ =>
      rcases Option.ite_none_right_eq_some.mp taken with ⟨checked, changed⟩
      cases changed
      exact .pushes checked
  | send _ =>
      rcases Option.ite_none_right_eq_some.mp taken with ⟨pushed, changed⟩
      cases changed
      exact .sends pushed
  | enter =>
      rcases Option.ite_none_right_eq_some.mp taken with ⟨⟨-, opened, -, idle⟩, changed⟩
      cases changed
      exact .enters (Bool.eq_false_iff.mpr opened) idle
  | swap =>
      rcases Option.ite_none_right_eq_some.mp taken with ⟨entered, changed⟩
      cases changed
      exact .swaps entered
  | run =>
      simp only [step] at taken
      split at taken
      · cases taken
      next task rest waiting =>
        cases taken
        exact .runs waiting
  | shutdown =>
      rcases Option.ite_none_left_eq_some.mp taken with ⟨outside, changed⟩
      cases changed
      exact .shutsDown (Bool.eq_false_iff.mpr outside)
  | close =>
      rcases Option.ite_none_right_eq_some.mp taken with ⟨⟨closing, outside, idle⟩, changed⟩
      cases changed
      exact .closes closing (Bool.eq_false_iff.mpr outside) idle

/-- What holds however the executor is shut down. -/
structure Sound (state : Executor) : Prop where
  order : state.ran ++ state.taken ++ state.q = state.enqueued
  once : state.enqueued.Nodup
  mem_iff : ∀ call, call ∈ state.enqueued ↔
    state.calls[call]? = some .pushed ∨ state.calls[call]? = some (.returned true)
  /-- No wake-up is lost. -/
  awake : state.q ≠ [] → state.sent = true ∨ state.entered = true ∨
    ∃ call : ℕ, state.calls[call]? = some .pushed
  within : state.entered = true → state.taken = [] ∧ state.closing = false
  stopped : state.closed = true → state.closing = true ∧ state.taken = [] ∧ state.entered = false

theorem sound_initial : Sound {} where
  order := rfl
  once := List.nodup_nil
  mem_iff call := by simp
  awake nonempty := absurd rfl nonempty
  within entered := by cases entered
  stopped closed := by cases closed

theorem getElem?_concat_iff {calls : List Scheduling} {test phase : Scheduling}
    (differ : test ≠ phase) (call : ℕ) :
    (calls ++ [test])[call]? = some phase ↔ calls[call]? = some phase := by
  constructor
  · intro found
    rcases getElem?_concat_cases found with old | rfl
    · exact old
    · exact absurd rfl differ
  · intro found
    exact getElem?_append_of_eq_some found _

theorem Sound.schedule (sound : state.Sound) {test : Scheduling} (unpushed : test ≠ .pushed)
    (unaccepted : test ≠ .returned true) : Sound { state with calls := state.calls ++ [test] } where
  order := sound.order
  once := sound.once
  mem_iff call := by
    rw [getElem?_concat_iff unpushed, getElem?_concat_iff unaccepted]
    exact sound.mem_iff call
  awake nonempty := by
    simp only [getElem?_concat_iff unpushed]
    exact sound.awake nonempty
  within := sound.within
  stopped := sound.stopped

theorem Sound.push (sound : state.Sound) {call : ℕ} (checked : state.calls[call]? = some .checked) :
    Sound
      { state with
        q := state.q ++ [call], enqueued := state.enqueued ++ [call],
        calls := state.calls.set call .pushed } where
  order := by
    rw [← List.append_assoc, sound.order]
  once := by
    simp only [← List.concat_eq_append]
    apply List.Nodup.concat _ sound.once
    intro mem
    rw [sound.mem_iff, checked] at mem
    rcases mem with pushed | accepted
    · cases pushed
    · cases accepted
  mem_iff other := by
    rw [List.mem_append, List.mem_singleton, sound.mem_iff]
    by_cases here : call = other
    · subst here
      simp [getElem?_set_of_eq_some checked]
    · simp [List.getElem?_set_ne here, Ne.symm here]
  awake _ := .inr (.inr ⟨call, getElem?_set_of_eq_some checked _⟩)
  within := sound.within
  stopped := sound.stopped

theorem Sound.send (sound : state.Sound) {call : ℕ} (pushed : state.calls[call]? = some .pushed) :
    Sound { state with sent := true, calls := state.calls.set call (.returned true) } where
  order := sound.order
  once := sound.once
  mem_iff other := by
    rw [sound.mem_iff]
    by_cases here : call = other
    · subst here
      simp [getElem?_set_of_eq_some pushed, pushed]
    · simp [List.getElem?_set_ne here]
  awake _ := .inl rfl
  within := sound.within
  stopped := sound.stopped

theorem Sound.step (sound : state.Sound) (taken : state.step event = some next) : next.Sound := by
  cases move_of_step taken with
  | schedules =>
      apply sound.schedule
      · split <;> simp
      · split <;> simp
  | pushes checked => exact sound.push checked
  | sends pushed => exact sound.send pushed
  | enters opened idle =>
      constructor
      · exact sound.order
      · exact sound.once
      · exact sound.mem_iff
      · exact fun _ => .inr (.inl rfl)
      · exact fun _ => ⟨idle, opened⟩
      · intro closed
        cases opened.symm.trans (sound.stopped closed).1
  | swaps entered =>
      rcases sound.within entered with ⟨idle, opened⟩
      constructor
      · have order := sound.order
        rw [idle, List.append_nil] at order
        rw [List.append_nil]
        exact order
      · exact sound.once
      · exact sound.mem_iff
      · exact fun nonempty => absurd rfl nonempty
      · exact fun again => by cases again
      · intro closed
        cases opened.symm.trans (sound.stopped closed).1
  | runs waiting =>
      constructor
      · have order := sound.order
        rw [waiting] at order
        simpa using order
      · exact sound.once
      · exact sound.mem_iff
      · exact sound.awake
      · intro entered
        cases waiting.symm.trans (sound.within entered).1
      · intro closed
        cases waiting.symm.trans (sound.stopped closed).2.1
  | shutsDown outside =>
      constructor
      · exact sound.order
      · exact sound.once
      · exact sound.mem_iff
      · exact sound.awake
      · intro entered
        cases outside.symm.trans entered
      · intro closed
        exact ⟨rfl, (sound.stopped closed).2⟩
  | closes closing outside idle =>
      constructor
      · exact sound.order
      · exact sound.once
      · exact sound.mem_iff
      · exact sound.awake
      · exact sound.within
      · exact fun _ => ⟨closing, idle, outside⟩

/-- Even if tasks are lost, those that are run are run once and in order. -/
theorem tasks_in_order (events : List ExecutorEvent) : Sound (runOf step {} events) :=
  runOf_invariant sound_initial Sound.step events

/-- When the executor is shut down, its queue is empty and no call of `schedule` is between its
test and its push. -/
def Drained (state : Executor) : ExecutorEvent → Prop
  | .shutdown =>
      state.closing = true ∨
        state.q = [] ∧ ∀ call : ℕ, state.calls[call]? ≠ some .checked
  | _ => True

instance (state : Executor) : DecidablePred state.Drained
  | .shutdown => decidable_of_iff (state.closing = true ∨ state.q = [] ∧ .checked ∉ state.calls)
      (by simp [Drained, List.mem_iff_getElem?])
  | .schedule | .push _ | .send _ | .enter | .swap | .run | .close => isTrue trivial

/-- Once the executor is closing, nothing is queued any more. -/
def Empty (state : Executor) : Prop :=
  state.closing = true → state.q = [] ∧ ∀ call : ℕ, state.calls[call]? ≠ some .checked

theorem Empty.step (empty : state.Empty) (drained : state.Drained event)
    (taken : state.step event = some next) : next.Empty := by
  cases move_of_step taken with
  | schedules =>
      intro closing
      rcases empty closing with ⟨nothing, unchecked⟩
      refine ⟨nothing, ?_⟩
      intro call found
      have refused : (if state.closing then Scheduling.returned false else .checked) =
          .returned false := if_pos closing
      rcases getElem?_concat_cases found with old | new
      · exact unchecked call old
      · cases new.trans refused
  | @pushes call checked =>
      intro closing
      exact absurd checked ((empty closing).2 call)
  | sends _ =>
      intro closing
      rcases empty closing with ⟨nothing, unchecked⟩
      refine ⟨nothing, ?_⟩
      intro other found
      rcases getElem?_set_cases found with ⟨-, same⟩ | ⟨-, old⟩
      · cases same
      · exact unchecked other old
  | enters _ _ | runs _ | closes _ _ _ => exact empty
  | swaps _ =>
      intro closing
      exact ⟨rfl, (empty closing).2⟩
  | shutsDown _ =>
      intro _
      rcases drained with closing | nothing
      · exact empty closing
      · exact nothing

/-- Nothing is under way: no call of `schedule`, no task, and libuv is not going to enter the
callback. -/
structure AtRest (state : Executor) : Prop where
  returned : ∀ phase ∈ state.calls, ∃ accepted, phase = .returned accepted
  idle : state.taken = [] ∧ state.entered = false
  asleep : state.sent = false ∨ state.closing = true

theorem Sound.ran_eq (sound : state.Sound) (idle : state.taken = []) (nothing : state.q = []) :
    state.ran = state.enqueued := by
  have order := sound.order
  rw [idle, nothing, List.append_nil, List.append_nil] at order
  exact order

theorem Sound.rest (sound : state.Sound) (empty : state.Empty) (rest : state.AtRest) :
    state.q = [] := by
  by_contra nonempty
  rcases rest.asleep with unsent | closing
  · rcases sound.awake nonempty with sent | entered | ⟨_, pushed⟩
    · rw [unsent] at sent
      cases sent
    · rw [rest.idle.2] at entered
      cases entered
    · rcases rest.returned _ (List.mem_of_getElem? pushed) with ⟨_, same⟩
      cases same
  · exact nonempty (empty closing).1

/-- A closing executor runs the tasks it has taken and closes with what is in its queue. -/
theorem closes_with_queue {base : Executor} (tasks : List ℕ) :
    ∀ state : Executor, Reached step (fun _ _ => True) base state → state.taken = tasks →
      state.entered = false → state.closing = true →
      ∃ final, Reached step (fun _ _ => True) base final ∧ final.closed = true ∧
        final.q = state.q := by
  induction tasks with
  | nil =>
      intro state reached idle outside closing
      have taken : state.step .close = some { state with closed := true } := by
        simp [step, closing, outside, idle]
      exact ⟨_, reached.step trivial taken, rfl, rfl⟩
  | cons task rest ih =>
      intro state reached waiting outside closing
      have taken : state.step .run =
          some { state with taken := rest, ran := state.ran ++ [task] } := by
        simp only [step, waiting]
      rcases ih _ (reached.step trivial taken) rfl outside closing with
        ⟨final, reached, closed, same⟩
      exact ⟨final, reached, closed, same⟩

/-- A shutdown with work left leads to a closed executor with that work in its queue. -/
theorem lost_of_not_drained (taken : state.step .shutdown = some next)
    (undrained : ¬state.Drained .shutdown) :
    ∃ final, Reached step (fun _ _ => True) next final ∧ final.closed = true ∧ final.q ≠ [] := by
  cases move_of_step taken with
  | shutsDown outside =>
      by_cases nothing : state.q = []
      · have waiting : ∃ call : ℕ, state.calls[call]? = some .checked := by
          by_contra none
          exact undrained (.inr ⟨nothing, fun call found => none ⟨call, found⟩⟩)
        rcases waiting with ⟨call, checked⟩
        have pushed : step { state with closing := true } (.push call) = some { state with
                closing := true, q := state.q ++ [call], enqueued := state.enqueued ++ [call],
                calls := state.calls.set call .pushed } := by
          simp [step, checked]
        rcases closes_with_queue state.taken _ (.step .start trivial pushed) rfl outside rfl with
          ⟨final, reached, closed, same⟩
        refine ⟨final, reached, closed, ?_⟩
        rw [same]
        simp
      · rcases closes_with_queue state.taken { state with closing := true } .start rfl outside rfl
          with ⟨final, reached, closed, same⟩
        refine ⟨final, reached, closed, ?_⟩
        rw [same]
        exact nothing

/-- If the queue is drained whenever the executor is shut down, every accepted task is run
exactly once and in order; if it is not, the handle can be closed with a task in the queue. -/
theorem no_task_lost (state : Executor) (reached : Reached step Drained {} state) :
    (state.ran <+: state.enqueued ∧ state.enqueued.Nodup) ∧
    (∀ call : ℕ, state.calls[call]? = some (.returned true) → call ∈ state.enqueued) ∧
    (state.AtRest → state.ran = state.enqueued) ∧
    (state.closed = true → state.q = [] ∧ state.ran = state.enqueued) ∧
    ∀ next, state.step .shutdown = some next → ¬state.Drained .shutdown →
      ∃ final, Reached step (fun _ _ => True) next final ∧ final.closed = true ∧
        final.q ≠ [] := by
  have invariant : state.Sound ∧ state.Empty := by
    apply reached.invariant
    · refine ⟨sound_initial, ?_⟩
      intro closing
      cases closing
    · intro _ _ _ holds drained taken
      exact ⟨holds.1.step taken, holds.2.step drained taken⟩
  rcases invariant with ⟨sound, empty⟩
  refine ⟨⟨?_, sound.once⟩, ?_, ?_, ?_, ?_⟩
  · rw [← sound.order, List.append_assoc]
    exact List.prefix_append _ _
  · intro call accepted
    exact (sound.mem_iff call).mpr (.inr accepted)
  · intro rest
    exact sound.ran_eq rest.idle.1 (sound.rest empty rest)
  · intro closed
    rcases sound.stopped closed with ⟨closing, idle, -⟩
    have nothing := (empty closing).1
    exact ⟨nothing, sound.ran_eq idle nothing⟩
  · intro _ taken undrained
    exact lost_of_not_drained taken undrained

theorem no_task_lost_drained :
    ∃ state, Reached step Drained {} state ∧ state.closed = true ∧ state.q = [] ∧
      state.ran = [0, 1] := by
  have ran : ((follow step Drained {} [.schedule, .schedule, .push 0, .push 1, .send 1, .enter,
      .swap, .run, .send 0, .shutdown, .run, .close]).map fun state =>
        (state.closed, state.enqueued)) = some (true, [0, 1]) := by
    decide +kernel
  rcases exists_of_follow ran with ⟨state, -, reached, facts⟩
  rcases Prod.mk.inj facts with ⟨closed, enqueued⟩
  rcases (no_task_lost state reached).2.2.2.1 closed with ⟨nothing, all⟩
  exact ⟨state, reached, closed, nothing, all.trans enqueued⟩

/-- A task is queued when the executor is shut down; a call of `schedule` has passed its test. -/
theorem accepted_task_lost :
    ((follow step (fun _ _ => True) {} [.schedule, .push 0, .send 0, .shutdown, .close]).map
      fun state => (state.calls, state.closed, state.q, state.ran)) =
        some ([.returned true], true, [0], []) ∧
    ((follow step (fun _ _ => True) {} [.schedule, .shutdown, .push 0, .send 0, .close]).map
      fun state => (state.calls, state.closed, state.q, state.ran)) =
        some ([.returned true], true, [0], []) := by
  decide +kernel

end Executor

end Corouv
