import Mathlib.Data.List.Nodup
import Corouv.Library.Count
import Corouv.Library.Places
import Corouv.Sync.Waiting

/-!
# The invariant of the waiting protocol

Whatever the interleaving, no permit appears from nowhere, live waiters are in the line
in the order in which they came, and there is none of them when there is a free permit
and no release under way.  The invariant is proved for each kind of change to a state
(a call moves on, the line is compacted, a waiter is marked), and each step is a few of
these changes.
-/

namespace Corouv.Sync

open Library

variable {waiter : Waiter}

theorem Waiter.of_tryMarkGranted {waiter' : Waiter}
    (marked : waiter.tryMarkGranted = some waiter') :
    waiter.done = false ∧ waiter'.done = true ∧ waiter'.granted = true ∧
      waiter'.abandoned = waiter.abandoned := by
  rw [tryMarkGranted] at marked
  split_ifs at marked with done
  cases marked
  exact ⟨by simpa using done, rfl, rfl, rfl⟩

theorem Waiter.done_of_tryMarkGranted (refused : waiter.tryMarkGranted = none) :
    waiter.done = true := by
  by_contra alive
  simp [tryMarkGranted, alive] at refused

theorem Waiter.of_tryMarkCanceled {waiter' : Waiter}
    (marked : waiter.tryMarkCanceled = some waiter') : waiter' = { waiter with done := true } := by
  rw [tryMarkCanceled] at marked
  split_ifs at marked
  exact (Option.some.inj marked).symm

def Phase.isEarly : Phase → Bool
  | .starting | .ready _ | .suspending | .emplaced => true
  | _ => false

def Phase.isPast : Phase → Bool
  | .returned | .threw _ _ | .destroyed => true
  | _ => false

namespace Call

/-- The call has been given a permit at some time. -/
def obtained (call : Call) : Bool :=
  match call.phase with
  | .ready acquired | .threw acquired _ => acquired
  | .returned => true
  | _ => call.waiter.granted

/-- What is true of a call whose waiter is in the line. -/
def Queued (call : Call) : Prop :=
  call.phase = .suspended ∨ call.phase.isPast = true ∧ call.waiter.done = true

structure Sound (call : Call) : Prop where
  granted_done : call.waiter.granted = true → call.waiter.done = true
  resumes_done : 0 < call.resumes → call.waiter.done = true
  marked_done : call.cancel = .marked → call.waiter.done = true
  early : call.phase.isEarly = true → call.waiter.granted = false
  ready : call.phase = .ready false → call.canceled = true
  abandoned : call.waiter.abandoned = true → call.phase = .destroyed
  destroyed : call.phase = .destroyed → call.waiter.done = true

/-- A call moves on without its waiter being marked or given a permit. -/
structure Moves (call call' : Call) : Prop where
  sound : call'.Sound
  done_eq : call'.waiter.done = call.waiter.done
  obtained_eq : call'.obtained = call.obtained
  queued : call.Queued → call'.Queued
  waiting : call'.phase = .suspended → call'.waiter.granted = true →
    call.phase = .suspended ∧ call.waiter.granted = true ∧ call.resumes ≤ call'.resumes

variable {call : Call} {handler : Bool}

theorem Moves.trans {call' call'' : Call} (one : call.Moves call') (two : call'.Moves call'') :
    call.Moves call'' where
  sound := two.sound
  done_eq := two.done_eq.trans one.done_eq
  obtained_eq := two.obtained_eq.trans one.obtained_eq
  queued waits := two.queued (one.queued waits)
  waiting suspended granted := by
    rcases two.waiting suspended granted with ⟨suspended, granted, more⟩
    rcases one.waiting suspended granted with ⟨suspended, granted, some⟩
    exact ⟨suspended, granted, some.trans more⟩

theorem not_queued_of_isEarly (early : call.phase.isEarly = true) : ¬call.Queued := by
  rintro (suspended | ⟨_, -⟩)
  · simp [suspended, Phase.isEarly] at early
  · cases here : call.phase <;> simp_all [Phase.isEarly, Phase.isPast]

theorem sound_new (hasSlot : Bool) : Sound { hasSlot := hasSlot } := by
  constructor <;> simp [Phase.isEarly]

section

variable (sound : call.Sound)
include sound

theorem Sound.moves_signalled {canceled requested : Bool}
    {cancel : CancelStage} (later : call.canceled = true → canceled = true)
    (unmarked : cancel = .marked → call.waiter.done = true) : call.Moves { call with
      canceled := canceled, handler := handler, cancel := cancel
      waiter := { call.waiter with cancelRequested := requested } } where
  sound := ⟨sound.granted_done, sound.resumes_done, unmarked, sound.early,
    fun ready => later (sound.ready ready), sound.abandoned, sound.destroyed⟩
  done_eq := rfl
  obtained_eq := rfl
  queued := id
  waiting suspended granted := ⟨suspended, granted, le_rfl⟩

theorem Sound.moves_resumeAfterMarkedDone (done : call.waiter.done = true) :
    call.Moves call.resumeAfterMarkedDone := by
  rw [resumeAfterMarkedDone]
  split
  · exact ⟨sound, rfl, rfl, id, fun suspended granted => ⟨suspended, granted, le_rfl⟩⟩
  · exact ⟨⟨sound.granted_done, fun _ => done, sound.marked_done, sound.early, sound.ready,
      sound.abandoned, sound.destroyed⟩, rfl, rfl, id,
      fun suspended granted => ⟨suspended, granted, Nat.le_succ _⟩⟩

theorem Sound.moves_phase {phase : Phase} (early : call.phase.isEarly = true)
    (notReady : ∀ acquired, call.phase ≠ .ready acquired)
    (canceled : phase = .ready false → call.canceled = true)
    (next : phase = .ready false ∨ phase = .suspending ∨ phase = .emplaced ∨ phase = .continuing) :
    call.Moves { call with phase := phase, handler := handler } := by
  have none := sound.early early
  have nothing : call.obtained = false := by
    cases here : call.phase <;> simp_all [obtained, Phase.isEarly]
  refine ⟨⟨sound.granted_done, sound.resumes_done, sound.marked_done, fun _ => none, canceled, ?_,
    ?_⟩, rfl, ?_, fun queued => absurd queued (not_queued_of_isEarly early), ?_⟩
  · intro abandoned
    have destroyed := sound.abandoned abandoned
    simp [destroyed, Phase.isEarly] at early
  · rcases next with rfl | rfl | rfl | rfl <;> simp
  · rw [nothing]
    rcases next with rfl | rfl | rfl | rfl <;> simp [obtained, none]
  · intro _ granted
    simp [none] at granted

theorem Sound.moves_ended {phase : Phase} {resumes : ℕ}
    (notDestroyed : call.phase ≠ .destroyed) (ends : phase ≠ .destroyed)
    (past : phase.isPast = true)
    (obtains : ({ call with phase := phase } : Call).obtained = call.obtained)
    (queued : call.Queued → call.waiter.done = true) (fewer : resumes ≤ call.resumes) :
    call.Moves { call with phase := phase, handler := handler, resumes := resumes } where
  sound := {
    granted_done := sound.granted_done
    resumes_done := fun some => sound.resumes_done (by dsimp only at some; omega)
    marked_done := sound.marked_done
    early := fun early => by cases phase <;> simp_all [Phase.isEarly, Phase.isPast]
    ready := fun ready => by simp_all [Phase.isPast]
    abandoned := fun abandoned => absurd (sound.abandoned abandoned) notDestroyed
    destroyed := fun destroyed => absurd destroyed ends }
  done_eq := rfl
  obtained_eq := obtains
  queued waits := .inr ⟨past, queued waits⟩
  waiting suspended := by simp_all [Phase.isPast]

theorem Sound.moves_awaitResume (failure : Exn) {resumes : ℕ}
    (running : (∃ acquired, call.phase = .ready acquired) ∨ call.phase = .continuing ∨
      call.phase = .suspended ∧ call.waiter.done = true) (fewer : resumes ≤ call.resumes) :
    call.Moves { call.awaitResume failure with resumes := resumes } := by
  have queued : call.Queued → call.waiter.done = true := by
    rintro (suspended | ⟨-, done⟩)
    · rcases running with ⟨acquired, here⟩ | here | ⟨-, done⟩
      · simp [here] at suspended
      · simp [here] at suspended
      · exact done
    · exact done
  rcases running with ⟨acquired, here⟩ | here | ⟨here, -⟩
  · simp only [awaitResume, here]
    split_ifs with canceled
    · exact sound.moves_ended (by simp [here]) (by simp) rfl (by simp [obtained, here]) queued fewer
    · have took : acquired = true := by
        cases acquired with
        | true => rfl
        | false => exact absurd (sound.ready here) canceled
      exact sound.moves_ended (by simp [here]) (by simp) rfl (by simp [obtained, here, took])
        queued fewer
  all_goals
    simp only [awaitResume, here]
    split_ifs with granted canceled
    all_goals
      exact sound.moves_ended (by simp [here]) (by simp) rfl (by simp [obtained, here, granted])
        queued fewer

end

theorem resumes_awaitResume (failure : Exn) (call : Call) :
    (call.awaitResume failure).resumes = call.resumes := by
  rw [awaitResume]
  split <;> split_ifs <;> rfl

end Call

namespace Lock

variable {ρ : Type}

def line (state : Lock ρ) : List ℕ :=
  state.waiters.filter state.live

/-- The line is in order, and what is in it is waiting. -/
structure Lined (state : Lock ρ) : Prop where
  calls : ∀ {id : ℕ} {call : Call}, state.calls[id]? = some call → call.Sound
  nodup : state.waiters.Nodup
  queued : ∀ id ∈ state.waiters, ∃ call, state.calls[id]? = some call ∧ call.Queued
  woken : ∀ id ∈ state.wakeups, ∃ call, state.calls[id]? = some call ∧ call.waiter.done = true
  /-- A granted waiter is going to be resumed. -/
  resumed : ∀ {id : ℕ} {call : Call}, state.calls[id]? = some call → call.phase = .suspended →
    call.waiter.granted = true → id ∈ state.wakeups ∨ 0 < call.resumes
  order : Handoff.run state.moves = some state.line

/-- The permits add up, and a free one is not kept from a live waiter. -/
structure Balanced (permits : Permits ρ) (initial : ℕ) (state : Lock ρ) : Prop where
  balance : permits.free state.resource + state.tried + state.calls.countP Call.obtained =
    initial + state.released
  busy : state.releasing = true → permits.busy state.resource
  settled : state.releasing = false → permits.settled state.resource
  vacant : state.releasing = false → 0 < permits.free state.resource → state.line = []

structure Sound (permits : Permits ρ) (initial : ℕ) (state : Lock ρ) : Prop where
  lined : state.Lined
  balanced : state.Balanced permits initial

variable {permits : Permits ρ} {initial : ℕ} {state : Lock ρ} {id : ℕ} {call call' : Call}

theorem getElem?_put_self (found : state.calls[id]? = some call) :
    (state.put id call').calls[id]? = some call' :=
  getElem?_set_of_eq_some found call'

theorem getElem?_put_ne {other : ℕ} (different : id ≠ other) :
    (state.put id call').calls[other]? = state.calls[other]? :=
  List.getElem?_set_ne different

section

variable (found : state.calls[id]? = some call)
include found

theorem live_of_done (done : call.waiter.done = true) : state.live id = false := by
  simp [live, found, done]

theorem live_put_of_done_eq (same : call'.waiter.done = call.waiter.done) :
    (state.put id call').live = state.live := by
  funext other
  by_cases here : id = other
  · subst here
    simp [live, getElem?_put_self found, found, same]
  · simp only [live, getElem?_put_ne here]

theorem live_put_of_done (done : call'.waiter.done = true) (other : ℕ) :
    (state.put id call').live other = (other != id && state.live other) := by
  by_cases here : id = other
  · subst here
    simp [live, getElem?_put_self found, done]
  · have different : (other != id) = true := by
      simpa using Ne.symm here
    simp [live, getElem?_put_ne here, different]

theorem countP_put (call' : Call) (p : Call → Bool) :
    (state.put id call').calls.countP p + (p call).toNat =
      state.calls.countP p + (p call').toNat :=
  countP_set_add found call' p

end

theorem Lined.congr {state' : Lock ρ} (lined : state.Lined) (calls : state'.calls = state.calls)
    (waiters : state'.waiters = state.waiters) (wakeups : state'.wakeups = state.wakeups)
    (moves : state'.moves = state.moves) : state'.Lined := by
  have lives : state'.live = state.live := by
    funext other
    simp only [live, calls]
  constructor
  · rw [calls]
    exact lined.calls
  · rw [waiters]
    exact lined.nodup
  · rw [waiters, calls]
    exact lined.queued
  · rw [wakeups, calls]
    exact lined.woken
  · rw [wakeups, calls]
    exact lined.resumed
  · rw [moves, line, waiters, lives]
    exact lined.order

theorem line_compactWaiters (state : Lock ρ) : state.compactWaiters.line = state.line := by
  show (state.waiters.filter state.live).filter state.live = _
  rw [List.filter_filter]
  simp [line]

theorem Lined.sublist (lined : state.Lined) {waiters : List ℕ}
    (fewer : waiters.Sublist state.waiters) {moves : List (Move ℕ)}
    (order : Handoff.run moves = some (waiters.filter state.live)) :
    ({ state with waiters := waiters, moves := moves } : Lock ρ).Lined where
  calls := lined.calls
  nodup := lined.nodup.sublist fewer
  queued id member := lined.queued id (fewer.subset member)
  woken := lined.woken
  resumed := lined.resumed
  order := order

theorem Lined.compact (lined : state.Lined) : state.compactWaiters.Lined := by
  apply lined.sublist List.filter_sublist
  rw [lined.order, ← line_compactWaiters]
  rfl

theorem line_removeWaiter (dead : state.live id = false) :
    (state.removeWaiter id).line = state.line := by
  show (state.waiters.filter _).filter state.live = state.waiters.filter state.live
  rw [List.filter_filter]
  apply List.filter_congr
  intro other _
  by_cases here : other = id
  · subst here
    simp [dead]
  · simp [here]

theorem Lined.remove (lined : state.Lined) (dead : state.live id = false) :
    (state.removeWaiter id).Lined := by
  apply lined.sublist List.filter_sublist
  rw [lined.order, ← line_removeWaiter dead]
  rfl

section

variable (lined : state.Lined) (found : state.calls[id]? = some call)
include lined found

/-- A call can be replaced in line if it is queued and woken as the one before. -/
theorem Lined.replace (sound : call'.Sound) (queued : id ∈ state.waiters → call'.Queued)
    {wakeups : List ℕ} {moves : List (Move ℕ)}
    (woken : ∀ other ∈ wakeups, other = id ∧ call'.waiter.done = true ∨
      other ≠ id ∧ other ∈ state.wakeups)
    (kept : ∀ other ∈ state.wakeups, other ≠ id → other ∈ wakeups)
    (resumed : call'.phase = .suspended → call'.waiter.granted = true →
      id ∈ wakeups ∨ 0 < call'.resumes)
    (order : Handoff.run moves = some (state.put id call').line) :
    ({ state with wakeups := wakeups, moves := moves }.put id call').Lined := by
  have found' : (state.put id call').calls[id]? = some call' := getElem?_put_self found
  constructor
  · intro other held there
    by_cases here : id = other
    · subst here
      cases found'.symm.trans there
      exact sound
    · exact lined.calls ((getElem?_put_ne here).symm.trans there)
  · exact lined.nodup
  · intro other member
    by_cases here : id = other
    · subst here
      exact ⟨call', found', queued member⟩
    · rcases lined.queued other member with ⟨held, there, waits⟩
      exact ⟨held, (getElem?_put_ne here).trans there, waits⟩
  · intro other member
    rcases woken other member with ⟨rfl, done⟩ | ⟨here, old⟩
    · exact ⟨call', found', done⟩
    · rcases lined.woken other old with ⟨held, there, done⟩
      exact ⟨held, (getElem?_put_ne here.symm).trans there, done⟩
  · intro other _ there suspended granted
    by_cases here : id = other
    · subst here
      cases found'.symm.trans there
      exact resumed suspended granted
    · rcases lined.resumed ((getElem?_put_ne here).symm.trans there) suspended granted with
        old | some
      · exact .inl (kept other old (Ne.symm here))
      · exact .inr some
  · exact order

theorem Lined.put (sound : call'.Sound) (done : call.waiter.done = true → call'.waiter.done = true)
    (unnoticed : id ∈ state.waiters → call'.Queued ∧ call'.waiter.done = call.waiter.done)
    (resumed : call'.phase = .suspended → call'.waiter.granted = true →
      id ∈ state.wakeups ∨ 0 < call'.resumes) : (state.put id call').Lined := by
  apply lined.replace found sound (fun member => (unnoticed member).1) _ (fun _ old _ => old)
    resumed
  · have same : (state.put id call').line = state.line := by
      apply List.filter_congr
      intro other member
      by_cases here : id = other
      · subst here
        simp [live, getElem?_put_self found, found, (unnoticed member).2]
      · simp only [live, getElem?_put_ne here]
    rw [same]
    exact lined.order
  · intro other member
    by_cases here : other = id
    · subst here
      rcases lined.woken other member with ⟨_, there, isDone⟩
      cases found.symm.trans there
      exact .inl ⟨rfl, done isDone⟩
    · exact .inr ⟨here, member⟩

theorem Lined.queued_of_mem (member : id ∈ state.waiters) : call.Queued := by
  rcases lined.queued id member with ⟨_, there, queued⟩
  cases found.symm.trans there
  exact queued

theorem Lined.moves (moves : call.Moves call') : (state.put id call').Lined := by
  apply lined.put found moves.sound
  · intro done
    rw [moves.done_eq]
    exact done
  · intro member
    exact ⟨moves.queued (lined.queued_of_mem found member), moves.done_eq⟩
  · intro suspended granted
    rcases moves.waiting suspended granted with ⟨suspended, granted, more⟩
    rcases lined.resumed found suspended granted with member | some
    · exact .inl member
    · exact .inr (lt_of_lt_of_le some more)

end

theorem line_moves (found : state.calls[id]? = some call) (moves : call.Moves call') :
    (state.put id call').line = state.line := by
  rw [line, live_put_of_done_eq found moves.done_eq]
  rfl

theorem Lined.pass (lined : state.Lined) (empty : state.line = []) : (state.log .pass).Lined := by
  apply lined.sublist (List.Sublist.refl _)
  show Handoff.run (state.moves ++ [.pass]) = some state.line
  rw [Handoff.run_concat lined.order, Handoff.next, if_pos empty, empty]

section

variable (lined : state.Lined) (found : state.calls[id]? = some call)
include lined found

theorem line_mark (done : call'.waiter.done = true) :
    (state.put id call').line = state.line.erase id := by
  have nodup : state.line.Nodup := lined.nodup.filter _
  rw [nodup.erase_eq_filter, line, line, List.filter_filter]
  apply List.filter_congr
  intro _ _
  rw [live_put_of_done found done]

theorem Lined.mark (sound : call'.Sound) (done : call'.waiter.done = true)
    (queued : call.Queued → call'.Queued)
    (resumed : call'.phase = .suspended → call'.waiter.granted = true →
      id ∈ state.wakeups ∨ 0 < call'.resumes) : ((state.log (.leave id)).put id call').Lined := by
  apply lined.replace found sound (fun member => queued (lined.queued_of_mem found member)) _
    (fun _ old _ => old) resumed
  · rw [line_mark lined found done]
    exact Handoff.run_concat lined.order _
  · intro other member
    by_cases here : other = id
    · exact .inl ⟨here, done⟩
    · exact .inr ⟨here, member⟩

theorem Lined.enter (absent : id ∉ state.waiters) (queued : call.Queued)
    (alive : call.waiter.done = false) :
    ({ state with waiters := state.waiters ++ [id] }.log (.enter id)).Lined where
  calls := lined.calls
  nodup := by
    apply List.Nodup.append lined.nodup (List.nodup_singleton id)
    simpa using absent
  queued other member := by
    rcases List.mem_append.mp member with old | new
    · exact lined.queued other old
    · rw [List.mem_singleton.mp new]
      exact ⟨call, found, queued⟩
  woken := lined.woken
  resumed := lined.resumed
  order := by
    have isLive : state.live id = true := by
      simp [live, found, alive]
    show Handoff.run (state.moves ++ [.enter id]) = some ((state.waiters ++ [id]).filter state.live)
    rw [Handoff.run_concat lined.order, List.filter_append]
    simp [Handoff.next, line, isLive]

end

theorem Balanced.congr {state' : Lock ρ} (balanced : state.Balanced permits initial)
    (resource : state'.resource = state.resource) (releasing : state'.releasing = state.releasing)
    (tried : state'.tried = state.tried) (released : state'.released = state.released)
    (count : state'.calls.countP Call.obtained = state.calls.countP Call.obtained)
    (line : state.line = [] → state'.line = []) : state'.Balanced permits initial := by
  constructor
  · rw [resource, tried, released, count]
    exact balanced.balance
  · rw [releasing, resource]
    exact balanced.busy
  · rw [releasing, resource]
    exact balanced.settled
  · rw [releasing, resource]
    intro idle free
    exact line (balanced.vacant idle free)

theorem countP_put_of_eq (found : state.calls[id]? = some call)
    (same : call'.obtained = call.obtained) :
    (state.put id call').calls.countP Call.obtained = state.calls.countP Call.obtained := by
  have counts := countP_put found call' Call.obtained
  rw [same] at counts
  omega

section

variable (sound : state.Sound permits initial)
include sound

theorem Sound.moves (found : state.calls[id]? = some call) (moves : call.Moves call') :
    (state.put id call').Sound permits initial where
  lined := sound.lined.moves found moves
  balanced := sound.balanced.congr rfl rfl rfl rfl (countP_put_of_eq found moves.obtained_eq)
    (by rw [line_moves found moves]; exact fun empty => empty)

theorem Sound.compact : state.compactWaiters.Sound permits initial where
  lined := sound.lined.compact
  balanced := by
    refine sound.balanced.congr rfl rfl rfl rfl rfl ?_
    rw [line_compactWaiters]
    exact fun empty => empty

theorem Sound.remove (dead : state.live id = false) :
    (state.removeWaiter id).Sound permits initial where
  lined := sound.lined.remove dead
  balanced := by
    refine sound.balanced.congr rfl rfl rfl rfl rfl ?_
    rw [line_removeWaiter dead]
    exact fun empty => empty

theorem Sound.mark (found : state.calls[id]? = some call) (fine : call'.Sound)
    (done : call'.waiter.done = true) (obtained : call'.obtained = call.obtained)
    (queued : call.Queued → call'.Queued)
    (resumed : call'.phase = .suspended → call'.waiter.granted = true →
      id ∈ state.wakeups ∨ 0 < call'.resumes) :
    ((state.log (.leave id)).put id call').Sound permits initial where
  lined := sound.lined.mark found fine done queued resumed
  balanced := by
    refine sound.balanced.congr rfl rfl rfl rfl (countP_put_of_eq found obtained) fun empty => ?_
    show (state.put id call').line = []
    rw [line_mark sound.lined found done, empty]
    rfl

end

variable {resource : ρ}

theorem Sound.take (sound : state.Sound permits initial) (idle : state.releasing = false)
    (taken : permits.take state.resource = some resource) (found : state.calls[id]? = some call)
    (notQueued : ¬call.Queued) (fine : call'.Sound)
    (done : call.waiter.done = true → call'.waiter.done = true) (without : call.obtained = false)
    (obtained : call'.obtained = true) (awake : call'.phase ≠ .suspended) :
    (({ state.compactWaiters with resource := resource }.log .pass).put id call').Sound
      permits initial := by
  have free := permits.take_eq_some taken
  have empty : state.line = [] := sound.balanced.vacant idle (by omega)
  have absent : id ∉ state.compactWaiters.waiters := fun member =>
    notQueued (sound.lined.compact.queued_of_mem found member)
  have passed := sound.lined.compact.pass (by rw [line_compactWaiters, empty])
  have lined : ((state.compactWaiters.log .pass).put id call').Lined := by
    apply passed.put found fine done
    · exact fun member => absurd member absent
    · exact fun suspended => absurd suspended awake
  refine ⟨lined.congr rfl rfl rfl rfl, ⟨?_, ?_, ?_, ?_⟩⟩
  · have counts := countP_put found call' Call.obtained
    have balance := sound.balanced.balance
    simp only [without, obtained, Bool.toNat_false, Bool.toNat_true] at counts
    show permits.free resource + state.tried + (state.put id call').calls.countP Call.obtained =
      initial + state.released
    omega
  · intro busy
    rw [show state.releasing = true from busy] at idle
    cases idle
  · intro _
    exact permits.settled_take (sound.balanced.settled idle) taken
  · intro _ _
    have moved := Option.some.inj (lined.order.symm.trans passed.order)
    show ((state.compactWaiters.log .pass).put id call').line = []
    exact moved.trans ((line_compactWaiters state).trans empty)

variable {state' : Lock ρ}

section

variable (sound : state.Sound permits initial)
include sound

theorem Sound.newCall (hasSlot : Bool) :
    ({ state with calls := state.calls ++ [{ hasSlot := hasSlot }] } : Lock ρ).Sound
      permits initial := by
  have same : ({ state with calls := state.calls ++ [{ hasSlot := hasSlot }] } : Lock ρ).line =
      state.line := by
    apply List.filter_congr
    intro other member
    rcases sound.lined.queued other member with ⟨held, there, -⟩
    simp only [live, there, getElem?_append_of_eq_some there]
  refine ⟨⟨?_, sound.lined.nodup, ?_, ?_, ?_, ?_⟩, sound.balanced.congr rfl rfl rfl rfl ?_ ?_⟩
  · intro id _ found
    rcases getElem?_concat_cases found with before | rfl
    · exact sound.lined.calls before
    · exact Call.sound_new hasSlot
  · intro id member
    rcases sound.lined.queued id member with ⟨held, there, queued⟩
    exact ⟨held, getElem?_append_of_eq_some there _, queued⟩
  · intro id member
    rcases sound.lined.woken id member with ⟨held, there, done⟩
    exact ⟨held, getElem?_append_of_eq_some there _, done⟩
  · intro _ _ found suspended granted
    rcases getElem?_concat_cases found with before | rfl
    · exact sound.lined.resumed before suspended granted
    · cases suspended
  · rw [same]
    exact sound.lined.order
  · rw [List.countP_append]
    rfl
  · rw [same]
    exact fun empty => empty

theorem Sound.tryTake (taken : state.tryTake permits = some state') :
    state'.Sound permits initial := by
  rw [Lock.tryTake] at taken
  split_ifs at taken with releasing
  have idle : state.releasing = false := by simpa using releasing
  split at taken
  · cases taken
    exact sound.compact
  next resource takes =>
    cases taken
    have free := permits.take_eq_some takes
    have empty : state.line = [] := sound.balanced.vacant idle (by omega)
    have none : state.compactWaiters.line = [] := by
      rw [line_compactWaiters, empty]
    refine ⟨(sound.lined.compact.pass none).congr rfl rfl rfl rfl, ?_, ?_, ?_, fun _ _ => none⟩
    · have balance := sound.balanced.balance
      show permits.free resource + (state.tried + 1) + state.calls.countP Call.obtained =
        initial + state.released
      omega
    · exact fun busy => absurd busy releasing
    · exact fun _ => permits.settled_take (sound.balanced.settled idle) takes

section

variable (found : state.calls[id]? = some call)
include found

theorem Sound.awaitReady
    (taken : state.awaitReady permits id call = some state') : state'.Sound permits initial := by
  have fine := sound.lined.calls found
  rw [Lock.awaitReady] at taken
  split at taken
  next here =>
    have early : call.phase.isEarly = true := by simp [here, Phase.isEarly]
    split_ifs at taken with canceled releasing
    · cases taken
      exact sound.moves found (fine.moves_phase early (by simp [here]) (fun _ => canceled)
        (.inl rfl))
    · split at taken
      · cases taken
        exact sound.compact.moves found (fine.moves_phase early (by simp [here]) (by simp)
          (by simp))
      next resource takes =>
        cases taken
        have none := fine.early early
        apply sound.take (by simpa using releasing) takes found (Call.not_queued_of_isEarly early)
        · exact ⟨fine.granted_done, fine.resumes_done, fine.marked_done, fun _ => none,
            by simp, fun abandoned => by simp [fine.abandoned abandoned] at here, by simp⟩
        · exact fun done => done
        · simp [Call.obtained, here, none]
        · rfl
        · simp
  · cases taken

theorem Sound.tryEmplace
    (taken : state.tryEmplace id call = some state') : state'.Sound permits initial := by
  have fine := sound.lined.calls found
  rw [Lock.tryEmplace] at taken
  split at taken
  next here =>
    have early : call.phase.isEarly = true := by simp [here, Phase.isEarly]
    split_ifs at taken with canceled
    · cases taken
      exact sound.moves found (fine.moves_phase early (by simp [here]) (by simp) (by simp))
    · cases taken
      exact sound.moves found (fine.moves_phase early (by simp [here]) (by simp) (by simp))
  · cases taken

theorem Sound.enqueueWaiter
    (taken : state.enqueueWaiter permits id call = some state') : state'.Sound permits initial := by
  have fine := sound.lined.calls found
  rw [Lock.enqueueWaiter] at taken
  split at taken
  next here =>
    have early : call.phase.isEarly = true := by simp [here, Phase.isEarly]
    have none := fine.early early
    have notDestroyed : call.waiter.abandoned = true → ∀ phase, phase = Phase.destroyed :=
      fun abandoned => by simp [fine.abandoned abandoned] at here
    split_ifs at taken with releasing done
    · cases taken
      exact sound.compact.moves found (fine.moves_phase early (by simp [here]) (by simp) (by simp))
    · split at taken
      next resource takes =>
        cases taken
        apply sound.take (by simpa using releasing) takes found (Call.not_queued_of_isEarly early)
        · exact ⟨fun _ => rfl, fun _ => rfl, fun _ => rfl, by simp [Phase.isEarly], by simp,
            fun abandoned => notDestroyed abandoned _, by simp⟩
        · exact fun _ => rfl
        · simp [Call.obtained, here, none]
        · rfl
        · simp
      next takes =>
        cases taken
        have idle : state.releasing = false := by simpa using releasing
        have absent : id ∉ state.compactWaiters.waiters := fun member =>
          Call.not_queued_of_isEarly early (sound.lined.compact.queued_of_mem found member)
        have suspended : (state.compactWaiters.put id { call with phase := .suspended }).Lined := by
          apply sound.lined.compact.put found
          · exact ⟨fine.granted_done, fine.resumes_done, fine.marked_done,
              by simp [Phase.isEarly], by simp, fun abandoned => notDestroyed abandoned _, by simp⟩
          · exact fun done => done
          · exact fun member => absurd member absent
          · intro _ granted
            simp [none] at granted
        have lined := suspended.enter (getElem?_put_self found) absent (.inl rfl)
          (by simpa using done)
        refine ⟨lined.congr rfl rfl rfl rfl, ?_, sound.balanced.busy, sound.balanced.settled, ?_⟩
        · have balance := sound.balanced.balance
          have counts : (state.put id { call with phase := .suspended }).calls.countP
              Call.obtained = state.calls.countP Call.obtained :=
            countP_put_of_eq found (by simp [Call.obtained, here])
          exact counts ▸ balance
        · intro _ free
          have noFree := permits.take_eq_none (sound.balanced.settled idle) takes
          exact absurd noFree (Nat.pos_iff_ne_zero.mp free)
  · cases taken

theorem Sound.awaitResume
    (taken : state.awaitResume permits id call = some state') : state'.Sound permits initial := by
  have fine := sound.lined.calls found
  rw [Lock.awaitResume] at taken
  split at taken
  next acquired here =>
    cases taken
    exact sound.moves found (fine.moves_awaitResume _ (.inl ⟨acquired, here⟩)
      (Call.resumes_awaitResume _ _).le)
  next here =>
    cases taken
    exact sound.moves found (fine.moves_awaitResume _ (.inr (.inl here))
      (Call.resumes_awaitResume _ _).le)
  next here =>
    split_ifs at taken with none
    cases taken
    have done := fine.resumes_done (Nat.pos_of_ne_zero none)
    exact sound.moves found (fine.moves_awaitResume _ (.inr (.inr ⟨here, done⟩)) (Nat.sub_le _ _))
  · cases taken

theorem Sound.destroy
    (taken : state.destroy id call = some state') : state'.Sound permits initial := by
  have fine := sound.lined.calls found
  rw [Lock.destroy] at taken
  split at taken
  next here =>
    split_ifs at taken
    cases taken
    have marked : ((state.log (.leave id)).put id { call with
        phase := .destroyed
        waiter := { call.waiter with abandoned := true, done := true } }).Sound
          permits initial := by
      apply sound.mark found
      · exact ⟨fun _ => rfl, fun _ => rfl, fun _ => rfl, by simp [Phase.isEarly], by simp,
          fun _ => rfl, fun _ => rfl⟩
      · rfl
      · simp [Call.obtained, here]
      · exact fun _ => .inr ⟨rfl, rfl⟩
      · simp
    exact marked.remove (live_of_done (getElem?_put_self found) rfl)
  · cases taken

theorem Sound.signal
    (taken : state.signal id call = some state') : state'.Sound permits initial := by
  have fine := sound.lined.calls found
  rw [Lock.signal] at taken
  split_ifs at taken
  cases taken
  exact sound.moves found (fine.moves_signalled (fun _ => rfl) fine.marked_done)

theorem Sound.handle
    (taken : state.handle id call = some state') : state'.Sound permits initial := by
  have fine := sound.lined.calls found
  rw [Lock.handle] at taken
  split_ifs at taken
  cases taken
  exact sound.moves found (fine.moves_signalled (fun canceled => canceled) (by simp))

theorem Sound.cancelMark
    (taken : state.cancelMark id call = some state') : state'.Sound permits initial := by
  have fine := sound.lined.calls found
  have stops : (state.put id { call with cancel := .none }).Sound permits initial :=
    sound.moves found (fine.moves_signalled (fun canceled => canceled) (by simp))
  rw [Lock.cancelMark] at taken
  split at taken
  · split_ifs at taken
    · split at taken
      · cases taken
        exact stops
      next waiter marked =>
        cases taken
        cases Waiter.of_tryMarkCanceled marked
        have waits := sound.lined.resumed found
        apply sound.mark found
        · exact ⟨fun _ => rfl, fun _ => rfl, fun _ => rfl, fine.early, fine.ready,
            fine.abandoned, fun _ => rfl⟩
        · rfl
        · rfl
        · rintro (suspended | ⟨past, -⟩)
          · exact .inl suspended
          · exact .inr ⟨past, rfl⟩
        · intro suspended granted
          exact waits suspended granted
    · cases taken
      exact stops
  · cases taken

theorem Sound.cancelRemove
    (taken : state.cancelRemove id call = some state') : state'.Sound permits initial := by
  have fine := sound.lined.calls found
  rw [Lock.cancelRemove] at taken
  split at taken
  next here =>
    split_ifs at taken
    cases taken
    have done := fine.marked_done here
    have unmarked : call.Moves { call with cancel := .none } :=
      fine.moves_signalled (fun canceled => canceled) (by simp)
    have resumed := unmarked.trans (unmarked.sound.moves_resumeAfterMarkedDone done)
    apply (sound.moves found resumed).remove
    exact live_of_done (getElem?_put_self found) (resumed.done_eq.trans done)
  · cases taken

end

theorem Sound.release {count : ℕ} (taken : state.release permits count = some state') :
    state'.Sound permits initial := by
  rw [Lock.release] at taken
  split_ifs at taken with none releasing
  · cases taken
    exact sound
  · have idle : state.releasing = false := by simpa using releasing
    split at taken
    · cases taken
      exact sound
    next resource releases =>
      cases taken
      refine ⟨sound.lined.compact.congr rfl rfl rfl rfl, ?_, ?_, by simp, by simp⟩
      · have balance := sound.balanced.balance
        have free := permits.release_eq_some releases
        show permits.free resource + state.tried + state.calls.countP Call.obtained =
          initial + (state.released + count)
        omega
      · exact fun _ => permits.busy_release (sound.balanced.settled idle) releases

/-- A permit goes to the first waiter in line and is counted once. -/
theorem Sound.serve {candidate : ℕ} {later : List ℕ} {waiter : Waiter}
    (releasing : state.releasing = true) (grants : permits.grant state.resource = some resource)
    (first : state.waiters = candidate :: later) (found : state.calls[candidate]? = some call)
    (marked : call.waiter.tryMarkGranted = some waiter) :
    (({ state with
      resource := resource, waiters := later,
      wakeups := state.wakeups ++ [candidate] }.log (.serve candidate)).put candidate
        { call with waiter := waiter }).Sound permits initial := by
  have fine := sound.lined.calls found
  rcases Waiter.of_tryMarkGranted marked with ⟨alive, done, granted, abandoned_eq⟩
  have suspended : call.phase = .suspended := by
    rcases sound.lined.queued_of_mem found (by simp [first]) with suspended | ⟨-, isDone⟩
    · exact suspended
    · simp [alive] at isDone
  have absent : candidate ∉ later := by
    have nodup := sound.lined.nodup
    rw [first] at nodup
    exact (List.nodup_cons.mp nodup).1
  have line_eq : state.line = candidate :: later.filter state.live := by
    rw [line, first, List.filter_cons, if_pos (by simp [live, found, alive])]
  have served : Handoff.run (state.moves ++ [.serve candidate]) =
      some (later.filter state.live) := by
    rw [Handoff.run_concat sound.lined.order, line_eq]
    simp [Handoff.next]
  have lined : ({ state with
      waiters := later, wakeups := state.wakeups ++ [candidate],
      moves := state.moves ++ [Move.serve candidate] }.put candidate
        { call with waiter := waiter }).Lined := by
    apply (sound.lined.sublist (by simp [first]) served).replace found
    · exact ⟨fun _ => done, fun _ => done, fun _ => done,
        fun early => by simp [suspended, Phase.isEarly] at early, fine.ready,
        fun abandoned => fine.abandoned (abandoned_eq.symm.trans abandoned), fun _ => done⟩
    · exact fun member => absurd member absent
    · intro other member
      by_cases here : other = candidate
      · exact .inl ⟨here, done⟩
      · right
        simpa [here] using member
    · intro other old _
      exact List.mem_append_left _ old
    · intro _ _
      exact .inl (by simp)
    · rw [served]
      congr 1
      apply List.filter_congr
      intro other member
      have here : candidate ≠ other := fun same => absent (same ▸ member)
      simp only [live, Lock.put, List.getElem?_set_ne here]
  refine ⟨lined.congr rfl rfl rfl rfl, ?_, ?_, ?_, ?_⟩
  · have balance := sound.balanced.balance
    have free := permits.grant_eq_some grants
    have counts := countP_put found { call with waiter := waiter } Call.obtained
    have without : call.obtained = false := by
      cases already : call.waiter.granted with
      | false => simp [Call.obtained, suspended, already]
      | true => simp [fine.granted_done already] at alive
    have obtains : ({ call with waiter := waiter } : Call).obtained = true := by
      simp [Call.obtained, suspended, granted]
    rw [without, obtains] at counts
    simp only [Bool.toNat_false, Bool.toNat_true] at counts
    show permits.free resource + state.tried +
      (state.put candidate { call with waiter := waiter }).calls.countP Call.obtained =
        initial + state.released
    omega
  · exact fun _ => permits.busy_grant (sound.balanced.busy releasing) grants
  · exact fun idle => absurd releasing (by simp [show state.releasing = false from idle])
  · exact fun idle => absurd releasing (by simp [show state.releasing = false from idle])

theorem Sound.grant (taken : state.grant permits = some state') : state'.Sound permits initial := by
  rw [Lock.grant] at taken
  split_ifs at taken with releasing
  split at taken
  next resource candidate later grants first =>
    rcases sound.lined.queued candidate (by simp [first]) with ⟨_, found, _⟩
    simp only [found] at taken
    split at taken
    next refused =>
      cases taken
      have dead := live_of_done found (Waiter.done_of_tryMarkGranted refused)
      have line_eq : state.line = later.filter state.live := by
        rw [line, first, List.filter_cons, if_neg (by simp [dead])]
      have popped := sound.lined.sublist (by simp [first])
        (sound.lined.order.trans (congrArg some line_eq))
      refine ⟨popped.congr rfl rfl rfl rfl, sound.balanced.congr rfl rfl rfl rfl rfl ?_⟩
      intro empty
      exact line_eq.symm.trans empty
    next waiter marked =>
      cases taken
      exact sound.serve releasing grants first found marked
  · cases taken

theorem Sound.finishRelease (taken : state.finishRelease permits = some state') :
    state'.Sound permits initial := by
  rw [Lock.finishRelease] at taken
  split_ifs at taken with stops
  cases taken
  simp only [Bool.and_eq_true, Bool.or_eq_true, Option.isNone_iff_eq_none,
    List.isEmpty_iff] at stops
  have busy := sound.balanced.busy stops.1
  refine ⟨sound.lined.congr rfl rfl rfl rfl, ?_, by simp, fun _ => permits.settled_finish busy, ?_⟩
  · have balance := sound.balanced.balance
    show permits.free (permits.finish state.resource) + state.tried +
      state.calls.countP Call.obtained = initial + state.released
    rw [permits.free_finish]
    exact balance
  · intro _ free
    rcases stops.2 with none | empty
    · have noFree := permits.grant_eq_none busy none
      rw [show permits.free _ = permits.free (permits.finish state.resource) from rfl,
        permits.free_finish, noFree] at free
      cases free
    · show state.waiters.filter state.live = []
      rw [empty]
      rfl

theorem Sound.wake (found : state.calls[id]? = some call)
    (taken : state.wake id call = some state') :
    state'.Sound permits initial := by
  have fine := sound.lined.calls found
  rw [Lock.wake] at taken
  split_ifs at taken with member
  cases taken
  rcases sound.lined.woken id member with ⟨_, there, done⟩
  cases found.symm.trans there
  have moves := fine.moves_resumeAfterMarkedDone done
  refine ⟨?_, sound.balanced.congr rfl rfl rfl rfl (countP_put_of_eq found moves.obtained_eq)
    fun empty => (line_moves found moves).trans empty⟩
  apply sound.lined.replace found moves.sound
    (fun member => moves.queued (sound.lined.queued_of_mem found member))
  · intro other remaining
    by_cases here : other = id
    · exact .inl ⟨here, moves.done_eq.trans done⟩
    · exact .inr ⟨here, List.mem_of_mem_erase remaining⟩
  · intro _ old here
    exact (List.mem_erase_of_ne here).mpr old
  · intro suspended _
    right
    have waits := (moves.waiting suspended ‹_›).1
    rw [Call.resumeAfterMarkedDone]
    split
    next abandoned =>
      simp [fine.abandoned abandoned] at waits
    · exact Nat.succ_pos _
  · rw [line_moves found moves]
    exact sound.lined.order

end

theorem Sound.step (sound : state.Sound permits initial) {event : Event}
    (taken : state.step permits event = some state') : state'.Sound permits initial := by
  cases event with
  | call hasSlot =>
      cases taken
      exact sound.newCall hasSlot
  | tryTake => exact sound.tryTake taken
  | release _ => exact sound.release taken
  | grant => exact sound.grant taken
  | finishRelease => exact sound.finishRelease taken
  | wake _ => exact of_step_at taken sound.wake
  | awaitReady _ => exact of_step_at taken sound.awaitReady
  | tryEmplace _ => exact of_step_at taken sound.tryEmplace
  | enqueue _ => exact of_step_at taken sound.enqueueWaiter
  | awaitResume _ => exact of_step_at taken sound.awaitResume
  | destroy _ => exact of_step_at taken sound.destroy
  | signal _ => exact of_step_at taken sound.signal
  | handle _ => exact of_step_at taken sound.handle
  | cancelMark _ => exact of_step_at taken sound.cancelMark
  | cancelRemove _ => exact of_step_at taken sound.cancelRemove

theorem sound_new (settled : permits.settled resource) :
    ({ resource := resource } : Lock ρ).Sound permits (permits.free resource) where
  lined := ⟨by simp, List.nodup_nil, by simp, by simp, by simp, rfl⟩
  balanced := ⟨rfl, by simp, fun _ => settled, fun _ _ => rfl⟩

theorem sound_of_reached {guard : Lock ρ → Event → Prop} (settled : permits.settled resource)
    (reached : Reached (Lock.step permits) guard { resource := resource } state) :
    state.Sound permits (permits.free resource) :=
  reached.invariant (sound_new settled) fun _ _ _ sound _ taken => sound.step taken

end Lock

end Corouv.Sync
