import Corouv.Sync.ResetEvent
import Corouv.TaskGroup

/-!
# Waiting for a task group

The steps of `spawn`, `finish`, `cancel` and `wait` on a group that several threads use.
The critical section of `finish` decides that the group has been drained, and the event is
set in a later step: the children spawned in between make it a wrong decision, and a wait
then ends with children pending.  In runs where no `set` comes so late, `wait` does not
end before there was an instant without children.
-/

namespace Corouv

open Library Sync

/-- A call of `finish` that has left its critical section. -/
structure Finishing where
  shouldCancel : Bool
  signalDrained : Bool
  deriving DecidableEq, Repr

/-- `TaskGroup::State` and the calls under way. -/
structure GroupState where
  canceled : Bool := false
  drained : ManualResetEvent := .new true
  pending : ℕ := 0
  firstError : Option Exn := none
  /-- The calls of `spawn` that have left their critical section. -/
  spawning : ℕ := 0
  /-- The children that run. -/
  running : ℕ := 0
  finishing : List Finishing := []
  /-- For each wait, whether there was an instant without children since it began, up to
  the instant at which it found the event set. -/
  sawZero : List Bool := []
  deriving DecidableEq, Repr

inductive GroupEvent
  /-- The critical section of `spawn`. -/
  | spawn
  /-- `spawn` starts the child. -/
  | start
  /-- The critical section of `finish`. -/
  | finish (outcome : Option Exn)
  /-- `finish` cancels the group, if it has to. -/
  | cancelSource (call : ℕ)
  /-- `finish` sets the event, if it has to, and returns. -/
  | setDrained (call : ℕ)
  | cancel
  | wait (hasSlot : Bool)
  /-- A step of `drained` that is not the start of an operation on it. -/
  | drained (event : WaitEvent)
  deriving DecidableEq, Repr

namespace GroupState

def spawn (group : GroupState) : GroupState :=
  if group.canceled then group
  else
    { group with
      drained := if group.pending = 0 then group.drained.reset else group.drained
      pending := group.pending + 1
      spawning := group.spawning + 1 }

/-- The child is the first to fail, and not because the group is cancelled. -/
def shouldCancel (group : GroupState) (outcome : Option Exn) : Bool :=
  outcome.isSome && group.firstError.isNone &&
    !(group.canceled && outcome.any Exn.isSignal)

def finishSection (group : GroupState) (outcome : Option Exn) : GroupState :=
  let shouldCancel := group.shouldCancel outcome
  let pending := group.pending - 1
  { group with
    running := group.running - 1
    pending := pending
    firstError := if shouldCancel then outcome else group.firstError
    finishing := group.finishing ++ [⟨shouldCancel, decide (pending = 0)⟩] }

def finish (group : GroupState) (outcome : Option Exn) : Option GroupState :=
  if group.running = 0 then none else some (group.finishSection outcome)

def cancelSource (group : GroupState) (id : ℕ) : Option GroupState := do
  let call ← group.finishing[id]?
  some { group with
    canceled := group.canceled || call.shouldCancel
    finishing := group.finishing.set id { call with shouldCancel := false } }

def leave (group : GroupState) (id : ℕ) (call : Finishing) : GroupState :=
  { group with
    drained := if call.signalDrained then group.drained.set else group.drained
    finishing := group.finishing.eraseIdx id }

def setDrained (group : GroupState) (id : ℕ) : Option GroupState := do
  let call ← group.finishing[id]?
  if call.shouldCancel then none else some (group.leave id call)

def act (group : GroupState) : GroupEvent → Option GroupState
  | .spawn => some group.spawn
  | .start =>
      if group.spawning = 0 then none
      else some { group with spawning := group.spawning - 1, running := group.running + 1 }
  | .finish outcome => group.finish outcome
  | .cancelSource id => group.cancelSource id
  | .setDrained id => group.setDrained id
  | .cancel => some { group with canceled := true }
  | .wait hasSlot => do
      let drained ← group.drained.step (.wait hasSlot)
      some { group with drained := drained }
  | .drained event =>
      if event.isInternal then do
        let drained ← group.drained.step event
        some { group with drained := drained }
      else none

/-- The waits look at the state a step has led to, unless they had found the event set. -/
def look (before after : GroupState) : GroupState :=
  { after with
    sawZero := after.drained.waits.mapIdx fun id _ =>
      let seen := before.sawZero.getD id false
      if before.drained.waits[id]?.any Wait.sawSet then seen
      else seen || decide (after.pending = 0) }

def step (group : GroupState) (event : GroupEvent) : Option GroupState :=
  (group.act event).map group.look

/-- The group as the operations that run without interruption know it. -/
def toTaskGroup (group : GroupState) : TaskGroup where
  canceled := group.canceled
  drained := group.drained.signaled
  pending := group.pending
  firstError := group.firstError

/-- Operations that nothing interrupts are those of a `TaskGroup`. -/
theorem toTaskGroup_uninterrupted (group : GroupState) (outcome : Option Exn) :
    (((group.step (.finish outcome)).bind (step · (.cancelSource group.finishing.length))).bind
      (step · (.setDrained group.finishing.length))).map toTaskGroup =
        (if group.running = 0 then none else some (group.toTaskGroup.finish outcome)) ∧
    (group.step .spawn).map toTaskGroup =
      some (group.toTaskGroup.spawn.getD group.toTaskGroup) := by
  constructor
  · by_cases idle : group.running = 0
    · simp [step, act, finish, idle]
    · simp only [step, act, finish, if_neg idle, cancelSource, setDrained, look, finishSection,
        Option.map_some, Option.bind_some, Option.bind_eq_bind, List.getElem?_concat_length]
      by_cases drained : group.pending - 1 = 0
      · simp [toTaskGroup, look, leave, TaskGroup.finish, shouldCancel, drained,
          ManualResetEvent.set]
      · simp [toTaskGroup, look, leave, TaskGroup.finish, shouldCancel, drained]
  · by_cases canceled : group.canceled = true
    · simp [step, act, toTaskGroup, look, spawn, TaskGroup.spawn, canceled]
    · by_cases none : group.pending = 0
      · simp [step, act, toTaskGroup, look, spawn, TaskGroup.spawn, canceled, none,
          ManualResetEvent.reset]
      · simp [step, act, toTaskGroup, look, spawn, TaskGroup.spawn, canceled, none]

variable {group next : GroupState} {event : GroupEvent}

/-- The ways a step can go. -/
inductive Move (group : GroupState) : GroupEvent → GroupState → Prop
  | refuses (canceled : group.canceled = true) : Move group .spawn group
  | spawns :
      Move group .spawn
        { group with
          drained := if group.pending = 0 then group.drained.reset else group.drained
          pending := group.pending + 1
          spawning := group.spawning + 1 }
  | starts :
      Move group .start
        { group with spawning := group.spawning - 1, running := group.running + 1 }
  | finishes {outcome : Option Exn} : Move group (.finish outcome) (group.finishSection outcome)
  | cancelsSource {id : ℕ} {call : Finishing} (found : group.finishing[id]? = some call) :
      Move group (.cancelSource id)
        { group with
          canceled := group.canceled || call.shouldCancel
          finishing := group.finishing.set id { call with shouldCancel := false } }
  | leaves {id : ℕ} {call : Finishing} (found : group.finishing[id]? = some call) :
      Move group (.setDrained id) (group.leave id call)
  | cancels : Move group .cancel { group with canceled := true }
  | waits {hasSlot : Bool} {drained : ManualResetEvent}
      (begins : group.drained.step (.wait hasSlot) = some drained) :
      Move group (.wait hasSlot) { group with drained := drained }
  | goesOn {event : WaitEvent} {drained : ManualResetEvent} (internal : event.isInternal = true)
      (stepped : group.drained.step event = some drained) :
      Move group (.drained event) { group with drained := drained }

/-- Everything an event can do to the group. -/
theorem move_of_act (taken : group.act event = some next) : group.Move event next := by
  cases event with
  | spawn =>
      cases taken
      rw [spawn]
      split
      next canceled => exact .refuses canceled
      · exact .spawns
  | start =>
      rcases Option.ite_none_left_eq_some.mp taken with ⟨-, changed⟩
      cases changed
      exact .starts
  | finish _ =>
      rcases Option.ite_none_left_eq_some.mp taken with ⟨-, changed⟩
      cases changed
      exact .finishes
  | cancelSource _ =>
      rcases Option.bind_eq_some_iff.mp taken with ⟨_, found, changed⟩
      cases changed
      exact .cancelsSource found
  | setDrained _ =>
      rcases Option.bind_eq_some_iff.mp taken with ⟨_, found, rest⟩
      rcases Option.ite_none_left_eq_some.mp rest with ⟨-, changed⟩
      cases changed
      exact .leaves found
  | cancel =>
      cases taken
      exact .cancels
  | wait _ =>
      cases taken
      exact .waits rfl
  | drained _ =>
      rcases Option.ite_none_right_eq_some.mp taken with ⟨internal, rest⟩
      rcases Option.bind_eq_some_iff.mp rest with ⟨_, stepped, changed⟩
      cases changed
      exact .goesOn internal stepped

/-- The event is not set after new children have been spawned. -/
def Prompt (group : GroupState) : GroupEvent → Prop
  | .setDrained id => ∀ call, group.finishing[id]? = some call → call.signalDrained = true →
      group.pending = 0
  | _ => True

structure Sound (group : GroupState) : Prop where
  empty : group.drained.signaled = true → group.pending = 0
  told : group.pending = 0 → group.drained.signaled = true ∨
    ∃ call ∈ group.finishing, call.signalDrained = true
  seen : ∀ {id : ℕ} {wait : Wait}, group.drained.waits[id]? = some wait → wait.sawSet = true →
    group.sawZero[id]? = some true

theorem Sound.empty_act (sound : group.Sound) (prompt : group.Prompt event)
    (taken : group.act event = some next) :
    next.drained.signaled = true → next.pending = 0 := by
  cases move_of_act taken with
  | refuses _ | starts | cancelsSource _ | cancels => exact sound.empty
  | spawns =>
      by_cases none : group.pending = 0
      · simp [none, ManualResetEvent.reset]
      · intro signaled
        simp only [none, if_false] at signaled
        exact absurd (sound.empty signaled) none
  | finishes =>
      intro signaled
      simp only [finishSection, sound.empty signaled]
  | @leaves _ call found =>
      intro signaled
      by_cases last : call.signalDrained = true
      · exact prompt call found last
      · simp only [leave, last, Bool.false_eq_true, if_false] at signaled
        exact sound.empty signaled
  | waits begins =>
      cases begins
      exact sound.empty
  | goesOn internal stepped =>
      simp only [(ManualResetEvent.internal_step internal stepped).1]
      exact sound.empty

/-- When the last task has ended, the group is drained or some call is about to say so. -/
theorem Sound.told_act (sound : group.Sound) (taken : group.act event = some next) :
    next.pending = 0 → next.drained.signaled = true ∨
      ∃ call ∈ next.finishing, call.signalDrained = true := by
  cases move_of_act taken with
  | refuses _ | starts | cancels => exact sound.told
  | spawns => exact fun none => absurd none (Nat.succ_ne_zero _)
  | finishes =>
      intro none
      exact .inr ⟨_, List.mem_append_right _ (List.mem_singleton_self _), decide_eq_true none⟩
  | @cancelsSource id call found =>
      intro none
      rcases sound.told none with signaled | ⟨other, member, signals⟩
      · exact .inl signaled
      · right
        rcases List.getElem?_of_mem member with ⟨place, there⟩
        by_cases here : id = place
        · subst here
          cases found.symm.trans there
          exact ⟨_, List.mem_of_getElem? (getElem?_set_of_eq_some found _), signals⟩
        · exact ⟨other, List.mem_of_getElem? ((List.getElem?_set_ne here).trans there), signals⟩
  | @leaves id call found =>
      intro none
      by_cases last : call.signalDrained = true
      · simp only [leave, last, if_true]
        exact .inl rfl
      · simp only [leave, last, Bool.false_eq_true, if_false]
        rcases sound.told none with signaled | ⟨other, member, signals⟩
        · exact .inl signaled
        · right
          refine ⟨other, ?_, signals⟩
          rcases List.mem_iff_getElem?.mp member with ⟨place, there⟩
          have different : place ≠ id := by
            rintro rfl
            cases found.symm.trans there
            exact last signals
          exact List.mem_eraseIdx_iff_getElem?.mpr ⟨place, different, there⟩
  | waits begins =>
      cases begins
      exact sound.told
  | goesOn internal stepped =>
      simp only [(ManualResetEvent.internal_step internal stepped).1]
      exact sound.told

theorem Sound.sawSet_act {id : ℕ} {wait : Wait} (sound : group.Sound)
    (prompt : group.Prompt event) (taken : group.act event = some next)
    (found : next.drained.waits[id]? = some wait) (saw : wait.sawSet = true) :
    group.drained.waits[id]?.any Wait.sawSet = true ∨ next.pending = 0 := by
  have before (same : next.drained.waits = group.drained.waits) :
      group.drained.waits[id]?.any Wait.sawSet = true := by
    rw [← same, found]
    exact saw
  cases move_of_act taken with
  | refuses _ | starts | finishes | cancelsSource _ | cancels => exact .inl (before rfl)
  | spawns =>
      apply Or.inl (before _)
      by_cases none : group.pending = 0 <;> simp [none, ManualResetEvent.reset,
        ManualResetEvent.compactWaiters]
  | @leaves _ call called =>
      by_cases last : call.signalDrained = true
      · exact .inr (prompt call called last)
      · apply Or.inl (before _)
        simp [leave, last]
  | waits begins =>
      cases begins
      left
      rcases getElem?_concat_cases found with before | rfl
      · rw [before]
        exact saw
      · cases saw
  | goesOn internal stepped =>
      rcases (ManualResetEvent.internal_step internal stepped).2 with ⟨_, _, _, there, waits, kept⟩
      simp only [waits] at found
      rcases getElem?_set_cases found with ⟨rfl, rfl⟩ | ⟨-, before⟩
      · rcases kept saw with already | signaled
        · left
          rw [there]
          exact already
        · exact .inr (sound.empty signaled)
      · left
        rw [before]
        exact saw

theorem Sound.step (sound : group.Sound) (prompt : group.Prompt event)
    (taken : group.step event = some next) : next.Sound := by
  rcases Option.map_eq_some_iff.mp taken with ⟨after, acted, rfl⟩
  have empty := sound.empty_act prompt acted
  have told := sound.told_act acted
  refine ⟨empty, told, ?_⟩
  intro id wait found saw
  have present : after.drained.waits[id]? = some wait := found
  simp only [look, List.getElem?_mapIdx, present, Option.map_some, Option.some.injEq]
  split_ifs with already
  · cases there : group.drained.waits[id]? with
    | none =>
        rw [there] at already
        cases already
    | some _ =>
        rw [there] at already
        rw [List.getD_eq_getElem?_getD, sound.seen there already]
        rfl
  · rcases sound.sawSet_act prompt acted present saw with earlier | none
    · exact absurd earlier already
    · rw [decide_eq_true none, Bool.or_true]

end GroupState

instance (group : GroupState) : DecidablePred group.Prompt
  | .setDrained id => inferInstanceAs (Decidable (∀ call ∈ group.finishing[id]?,
      call.signalDrained = true → group.pending = 0))
  | .spawn | .start | .finish _ | .cancelSource _ | .cancel | .wait _ | .drained _ =>
      isTrue trivial

/-- Two children, the second of which fails and cancels the group, and a wait. -/
def failingRun : List GroupEvent :=
  [.spawn, .start, .spawn, .start, .wait true, .drained (.awaitReady 0),
    .drained (.tryEmplace 0), .drained (.register 0), .finish none, .setDrained 0,
    .finish (some (.runtime "failed")), .cancelSource 0, .spawn, .setDrained 0,
    .drained (.wake 0), .drained (.deliver 0), .drained (.awaitResume 0)]

/-- A child is spawned between the critical section of `finish` and its `drained.set()`. -/
def lateSetRun : List GroupEvent :=
  [.spawn, .start, .finish none, .spawn, .setDrained 0, .wait false, .drained (.awaitReady 0)]

end Corouv
