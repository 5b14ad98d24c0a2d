import Corouv.Library.Count
import Corouv.Library.Seats
import Corouv.Net.TcpListener

/-!
# What becomes of accepted connections

`accept` returns the connections in the order of their arrival, each to one call, but for
those that were lost on the way to the queue.  Closing a listener leaves its pending connections
alone: a call that is already under way still takes one, and the others stay open.
-/

namespace Corouv.Net

open Library ListenerState
open UdpState (canceled)

namespace ListenerRun

abbrev Event := ServiceEvent Unit (SocketEvent Announcement)

abbrev AcceptCall := Call Unit (Except Exn Child)

def step (run : ListenerRun) (event : Event) : Option ListenerRun :=
  tcpListener.resource.step run event

def pending (run : ListenerRun) : List Child :=
  run.resource.state.pending

def closing (run : ListenerRun) : Bool :=
  run.resource.state.closing

def lost (run : ListenerRun) : List ℕ :=
  run.resource.state.lost

/-- The connections that calls have returned, in the order in which they did. -/
def returned (run : ListenerRun) : List Child :=
  run.results.filterMap fun result => result.outcome.toOption

/-- The call is under way and will take a connection if there is one. -/
def isTaking (call : AcceptCall) : Bool :=
  match call.stage with
  | .posted | .suspended | .woken none => true
  | .woken (some _) | .finished => false

def takers (run : ListenerRun) : ℕ :=
  run.calls.countP isTaking

/-- When the listener starts closing, there is a call under way for every pending
connection; and no connection is lost. -/
def Answered (run : ListenerRun) : Event → Prop
  | .occur (.close true) =>
      run.resource.held = true → run.closing = false → run.pending.length ≤ run.takers
  | .occur .closeOnLoop => run.closing = false → run.pending.length ≤ run.takers
  | .occur (.callback announcement) => announcement.Located
  | _ => True

instance (run : ListenerRun) : DecidablePred run.Answered
  | .occur (.close true) => inferInstanceAs (Decidable (_ → _ → _ ≤ _))
  | .occur .closeOnLoop => inferInstanceAs (Decidable (_ → _ ≤ _))
  | .occur (.callback announcement) => inferInstanceAs (Decidable announcement.Located)
  | .occur (.close false) | .call _ _ | .register _ | .resume _ | .abandon _ => isTrue trivial

variable {run run' : ListenerRun} {index : ℕ} {call : AcceptCall} {event : Event}

theorem awaitResume_eq (state : ListenerState) :
    ∃ outcome, state.awaitResume = (outcome, { state with pending := state.pending.tail }) ∧
      outcome.toOption = state.pending.head? := by
  rcases state with ⟨pending, _, _, _, _, _⟩
  cases pending with
  | nil =>
      simp only [awaitResume]
      split
      · exact ⟨_, rfl, rfl⟩
      · exact ⟨_, rfl, rfl⟩
  | cons child _ => exact ⟨.ok child, rfl, rfl⟩

theorem registerWaiter_frame {state state' : ListenerState} {caller : ℕ}
    {entry : Entry (Except Exn Child)}
    (registers : state.registerWaiter caller = (entry, state')) :
    ∃ waiter, state' = { state with acceptWaiter := waiter } := by
  rcases registerWaiter_cases registers with ⟨-, -, rfl⟩ | ⟨-, -, -, rfl⟩ | ⟨-, -, -, rfl⟩
  · exact ⟨state'.acceptWaiter, rfl⟩
  · exact ⟨state'.acceptWaiter, rfl⟩
  · exact ⟨some caller, rfl⟩

theorem slotted :
    tcpListener.resource.Slotted (fun owner => owner.state.acceptWaiter)
      fun outcome => outcome.toOption = none where
  enter := by
    intro owner _ _ _ _ enters
    rcases Socket.enter_eq enters with ⟨_, registers, rfl⟩
    rcases registerWaiter_cases registers with ⟨-, -, rfl⟩ | ⟨-, -, -, rfl⟩ | ⟨-, -, waits, rfl⟩
    · exact .inr (.inl rfl)
    · exact .inr (.inl rfl)
    · exact .inr (.inr ⟨waits, rfl⟩)
  refused := by
    intro owner _ _ _ _ enters
    rcases Socket.enter_eq enters with ⟨_, registers, rfl⟩
    rcases registerWaiter_cases registers with
      ⟨-, passes, -⟩ | ⟨-, -, refused, -⟩ | ⟨-, -, waits, -⟩
    · cases passes
    · cases refused
      rfl
    · cases waits
  take := by
    intro owner _
    rcases awaitResume_eq owner.state with ⟨_, taken, -⟩
    simp only [Socket.resource, tcpListener, taken]
  occur := by
    intro _ _ _ woken happens
    rcases (Socket.occurrence happens).change.1 with ⟨same, none⟩ | change
    · exact .inl ⟨none, congrArg acceptWaiter same⟩
    · rcases change_cases change with
        ⟨same, none, -⟩ | ⟨same, none, -⟩ | ⟨woken, -, ⟨_, -, -, same⟩ | same | same⟩
      · exact .inl ⟨none, congrArg acceptWaiter same⟩
      · exact .inl ⟨none, by rw [same]; rfl⟩
      · exact .inr ⟨woken, congrArg acceptWaiter same⟩
      · exact .inr ⟨woken, congrArg acceptWaiter same⟩
      · exact .inr ⟨woken, congrArg acceptWaiter same⟩

/-- The listener is closed by its owner, and nothing closes the connections that wait. -/
structure Tended (owner : Owner ListenerState) : Prop where
  proper : tcpListener.Proper owner
  untouched : ∀ child ∈ owner.state.pending, child.closing = false
  lost : ∀ arrival ∈ owner.state.lost, arrival < owner.state.arrived

theorem keeps_tended : tcpListener.resource.Keeps Tended where
  enter := by
    intro owner _ _ _ _ tended enters
    rcases Socket.enter_eq enters with ⟨_, registers, rfl⟩
    rcases registerWaiter_frame registers with ⟨_, rfl⟩
    exact ⟨tended.proper.of_isOpen rfl, tended.untouched, tended.lost⟩
  take := by
    intro owner _ tended
    rcases awaitResume_eq owner.state with ⟨_, taken, -⟩
    simp only [Socket.resource, tcpListener, taken]
    refine ⟨tended.proper.of_isOpen rfl, ?_, tended.lost⟩
    intro child member
    exact tended.untouched child (List.mem_of_mem_tail member)
  occur := by
    intro _ _ _ _ tended happens
    have proper := tended.proper.occur (fun called => (callback_spec called).2.1)
      (Socket.occurrence happens)
    rcases (Socket.occurrence happens).change.1 with ⟨same, -⟩ | change
    · exact ⟨proper, same ▸ tended.untouched, same ▸ tended.lost⟩
    · rcases change_cases change with
        ⟨same, -⟩ | ⟨same, -⟩ | ⟨-, -, ⟨_, -, -, same⟩ | same | same⟩
      · exact ⟨proper, same ▸ tended.untouched, same ▸ tended.lost⟩
      · refine ⟨proper, same ▸ tended.untouched, ?_⟩
        rw [same]
        intro arrival member
        rcases List.mem_append.mp member with old | new
        · exact Nat.lt_succ_of_lt (tended.lost arrival old)
        · rw [List.mem_singleton.mp new]
          exact Nat.lt_succ_self _
      · exact ⟨proper, same ▸ tended.untouched, same ▸ tended.lost⟩
      · refine ⟨proper, ?_, ?_⟩
        · rw [same]
          intro child member
          rcases List.mem_append.mp member with old | new
          · exact tended.untouched child old
          · rw [List.mem_singleton.mp new]
        · rw [same]
          exact fun arrival member => Nat.lt_succ_of_lt (tended.lost arrival member)
      · exact ⟨proper, same ▸ tended.untouched, same ▸ tended.lost⟩

/-- The connections that were returned and those that are pending are those that arrived and
were not lost, in order. -/
def Ordered (run : ListenerRun) : Prop :=
  (run.returned ++ run.pending).map Child.arrival =
    (List.range run.resource.state.arrived).filter fun arrival => arrival ∉ run.lost

variable {outcome : Except Exn Child} {owner : Owner ListenerState}

theorem returned_finish :
    returned (run.finish index call outcome) = run.returned ++ outcome.toOption.toList := by
  cases outcome <;> simp [returned, Service.finish, Except.toOption]

theorem Ordered.finish (ordered : run.Ordered) (nothing : outcome.toOption = none) :
    Ordered (run.finish index call outcome) := by
  unfold Ordered
  rw [returned_finish, nothing, Option.toList_none, List.append_nil]
  exact ordered

theorem state_serve : (tcpListener.resource.serve run index call).resource.state =
    { run.resource.state with pending := run.pending.tail } := by
  rcases awaitResume_eq run.resource.state with ⟨_, taken, -⟩
  exact congrArg Prod.snd taken

theorem pending_serve : pending (tcpListener.resource.serve run index call) = run.pending.tail :=
  congrArg ListenerState.pending state_serve

theorem frame_serve : closing (tcpListener.resource.serve run index call) = run.closing ∧
    lost (tcpListener.resource.serve run index call) = run.lost := by
  simp [closing, lost, state_serve]

theorem Ordered.serve (ordered : run.Ordered) :
    Ordered (tcpListener.resource.serve run index call) := by
  rcases awaitResume_eq run.resource.state with ⟨_, taken, first⟩
  have returns : returned (tcpListener.resource.serve run index call) =
      run.returned ++ run.pending.head?.toList := by
    simp only [Resource.serve, Socket.resource, tcpListener, taken]
    exact returned_finish.trans (congrArg (fun child => run.returned ++ child.toList) first)
  have parts : run.pending.head?.toList ++ run.pending.tail = run.pending := by
    cases run.pending <;> rfl
  unfold Ordered lost
  rw [returns, pending_serve, state_serve, List.append_assoc, parts]
  exact ordered

theorem Ordered.register (ordered : run.Ordered) {onLoop : Bool} :
    Ordered (tcpListener.resource.register run index call onLoop) := by
  have entered : ∀ {entry : Entry (Except Exn Child)} {owner : Owner ListenerState},
      tcpListener.resource.enter run.resource call.request index = (entry, owner) →
      Ordered (run.setResource owner) := by
    intro _ _ enters
    rcases Socket.enter_eq enters with ⟨_, registers, rfl⟩
    rcases registerWaiter_frame registers with ⟨_, rfl⟩
    exact ordered
  apply Resource.register_cases
  · intro _ enters
    exact entered enters
  · intro _ enters _
    exact (entered enters).serve
  · intro _ enters _
    exact entered enters
  · intro _ _ enters _
    exact (entered enters).finish (slotted.refused enters)
  · intro _ _ enters _
    exact entered enters

theorem filter_range_lose {lost : List ℕ} {arrived : ℕ}
    (earlier : ∀ arrival ∈ lost, arrival < arrived) :
    ((List.range (arrived + 1)).filter fun arrival => arrival ∉ lost ++ [arrived]) =
        ((List.range arrived).filter fun arrival => arrival ∉ lost) ∧
      ((List.range (arrived + 1)).filter fun arrival => arrival ∉ lost) =
        ((List.range arrived).filter fun arrival => arrival ∉ lost) ++ [arrived] := by
  have fresh : arrived ∉ lost := fun member => Nat.lt_irrefl _ (earlier arrived member)
  constructor
  · rw [List.range_succ, List.filter_append]
    simp only [List.mem_append, List.mem_singleton, List.filter_cons, or_true, not_true_eq_false,
      decide_false, Bool.false_eq_true, if_false, List.filter_nil, List.append_nil]
    apply List.filter_congr
    intro arrival member
    have other : arrival ≠ arrived := Nat.ne_of_lt (List.mem_range.mp member)
    simp [other]
  · rw [List.range_succ, List.filter_append]
    simp [fresh]

theorem Ordered.occur (ordered : run.Ordered) (tended : Tended run.resource)
    {event : SocketEvent Announcement} {woken : List ℕ}
    (happens : tcpListener.resource.occur run.resource event = some (owner, woken)) :
    Ordered ((run.setResource owner).wake woken) := by
  show (run.returned ++ owner.state.pending).map Child.arrival =
    (List.range owner.state.arrived).filter fun arrival => arrival ∉ owner.state.lost
  rcases (Socket.occurrence happens).change.1 with ⟨same, -⟩ | change
  · rw [same]
    exact ordered
  · rcases change_cases change with
      ⟨same, -⟩ | ⟨same, -⟩ | ⟨-, -, ⟨_, -, -, same⟩ | same | same⟩ <;> rw [same]
    · exact ordered
    · exact ordered.trans (filter_range_lose tended.lost).1.symm
    · exact ordered
    · rw [(filter_range_lose tended.lost).2, ← List.append_assoc, List.map_append]
      exact congrArg (· ++ [run.resource.state.arrived]) ordered
    · exact ordered

structure Sound (run : ListenerRun) : Prop where
  ordered : run.Ordered
  tended : Tended run.resource
  seated : Seated (fun owner => owner.state.acceptWaiter)
    (fun outcome => outcome.toOption = none) run

theorem screen_eq (owner : Owner ListenerState) (request : Unit) :
    tcpListener.resource.screen owner request =
      if owner.held && owner.state.isOpen then none else some closedListener := rfl

theorem screen_outcome {request : Unit}
    (known : tcpListener.resource.screen owner request = some outcome) :
    outcome.toOption = none := by
  rw [screen_eq] at known
  split at known
  · cases known
  · cases known
    rfl

theorem Sound.step (sound : run.Sound) (taken : run.step event = some run') : run'.Sound := by
  refine ⟨?_, keeps_tended.step sound.tended taken, slotted.step sound.seated taken⟩
  have ordered := sound.ordered
  cases Resource.move_of_step taken with
  | @screened request _ _ known =>
      have added : Ordered (run.add { request }) := ordered
      exact added.finish (screen_outcome known)
  | posts _ | abandons _ _ _ => exact ordered
  | @enters request _ =>
      have added : Ordered (run.add { request }) := ordered
      exact added.register
  | registers _ _ => exact ordered.register
  | takes _ _ => exact ordered.serve
  | learns found stage =>
      exact ordered.finish (sound.seated.settled _ (List.mem_of_getElem? found) _ stage)
  | occurs changed => exact ordered.occur sound.tended changed

theorem takers_put (found : run.calls[index]? = some call) (new : AcceptCall) :
    takers (run.put index new) + (isTaking call).toNat = run.takers + (isTaking new).toNat :=
  countP_set_add found new isTaking

theorem takers_add (run : ListenerRun) (new : AcceptCall) :
    takers (run.add new) = run.takers + (isTaking new).toNat := by
  cases taking : isTaking new <;> simp [takers, Service.add, List.countP_append, taking]

theorem takers_wake (sound : run.Sound) :
    takers ((run.setResource owner).wake run.resource.state.acceptWaiter.toList) = run.takers := by
  have same : ((run.setResource owner).wake
      run.resource.state.acceptWaiter.toList).calls.map isTaking = run.calls.map isTaking := by
    apply List.ext_getElem?
    intro place
    simp only [Service.wake, Service.setResource, List.getElem?_map, List.getElem?_mapIdx,
      Option.map_map]
    cases found : run.calls[place]? with
    | none => rfl
    | some _ =>
        simp only [Option.map_some, Function.comp, Option.mem_toList]
        split
        next waiting =>
          rcases sound.seated.waiter place waiting with ⟨_, foundOther, stage⟩
          cases found.symm.trans foundOther
          simp [isTaking, stage]
        · rfl
  have count : ∀ calls : List AcceptCall,
      calls.countP isTaking = (calls.map isTaking).countP id := by
    intro _
    rw [List.countP_map]
    rfl
  rw [takers, count, same, ← count]
  rfl

/-- On a closed listener a call under way takes a connection, and that is all. -/
theorem closed_step (sound : run.Sound) (closing : run.closing = true)
    (taken : run.step event = some run') :
    run'.closing = true ∧
      (run'.pending = run.pending ∧ run'.takers = run.takers ∨
        run'.pending = run.pending.tail ∧ run'.takers + 1 = run.takers) := by
  have shut : run.resource.state.isOpen = false := by
    rw [ListenerState.isOpen, show run.resource.state.closing = true from closing, Bool.not_true]
  have given := sound.tended.proper.closed shut
  have refused : ∀ request, tcpListener.resource.screen run.resource request ≠ none := by
    intro request
    rw [screen_eq, given]
    exact Option.some_ne_none _
  cases Resource.move_of_step taken with
  | @screened request _ _ _ =>
      refine ⟨closing, .inl ⟨rfl, ?_⟩⟩
      have counted := run.takers_add { request, stage := .finished }
      rw [← Service.add_put run { request }] at counted
      exact counted
  | posts unknown | enters unknown => exact absurd unknown (refused _)
  | @registers index call found stage =>
      have ready : run.resource.state.isReady = true := by simp [isReady, shut]
      have enters : tcpListener.resource.enter run.resource call.request index =
          (.passes, run.resource) := by
        simp [Socket.resource, tcpListener, ListenerState.registerWaiter, ready]
      simp only [Resource.register, enters, Bool.false_eq_true, if_false]
      refine ⟨closing, .inl ⟨rfl, ?_⟩⟩
      have counted := takers_put found { call with stage := .woken none }
      simp only [isTaking, stage] at counted
      exact Nat.add_right_cancel counted
  | @takes _ call found stage =>
      refine ⟨frame_serve.1.trans closing, .inr ⟨pending_serve, ?_⟩⟩
      have counted := takers_put found { call with stage := .finished }
      simp only [isTaking, stage] at counted
      exact counted
  | @learns _ call _ found stage =>
      refine ⟨closing, .inl ⟨rfl, ?_⟩⟩
      have counted := takers_put found { call with stage := .finished }
      simp only [isTaking, stage] at counted
      exact counted
  | @abandons _ call found _ _ =>
      refine ⟨closing, .inl ⟨rfl, ?_⟩⟩
      have counted := takers_put found { call with abandoned := true }
      exact Nat.add_right_cancel counted
  | @occurs _ owner woken changed =>
      have quiet : owner.state = run.resource.state ∧ woken = [] := by
        rcases (Socket.occurrence changed).change.1 with quiet | change
        · exact quiet
        · rcases change_cases change with ⟨same, none, -⟩ | ⟨-, -, isOpen⟩ | ⟨-, isOpen, -⟩
          · exact ⟨same, none⟩
          · cases isOpen.symm.trans closing
          · cases isOpen.symm.trans closing
      rcases quiet with ⟨same, rfl⟩
      rw [Service.wake_nil]
      exact ⟨(congrArg ListenerState.closing same).trans closing,
        .inl ⟨congrArg ListenerState.pending same, rfl⟩⟩

theorem closeOnLoop_step (sound : run.Sound) (isOpen : run.closing = false) (held posted : Bool)
    {after : ListenerRun}
    (closes : after = (run.setResource ⟨run.resource.state.closeOnLoop.1, held, posted⟩).wake
      run.resource.state.closeOnLoop.2) :
    after.closing = true ∧ after.pending = run.pending ∧ after.takers = run.takers := by
  rw [closeOnLoop_eq isOpen] at closes
  subst closes
  exact ⟨rfl, rfl, takers_wake sound⟩

theorem frame_register {onLoop : Bool} :
    closing (tcpListener.resource.register run index call onLoop) = run.closing ∧
      lost (tcpListener.resource.register run index call onLoop) = run.lost := by
  have entered : ∀ {entry : Entry (Except Exn Child)} {owner : Owner ListenerState},
      tcpListener.resource.enter run.resource call.request index = (entry, owner) →
      owner.state.closing = run.closing ∧ owner.state.lost = run.lost := by
    intro _ _ enters
    rcases Socket.enter_eq enters with ⟨_, registers, rfl⟩
    rcases registerWaiter_frame registers with ⟨_, rfl⟩
    exact ⟨rfl, rfl⟩
  apply Resource.register_cases
    (motive := fun after => closing after = run.closing ∧ lost after = run.lost)
  · intro _ enters
    exact entered enters
  · intro _ enters _
    exact ⟨frame_serve.1.trans (entered enters).1, frame_serve.2.trans (entered enters).2⟩
  · intro _ enters _
    exact entered enters
  · intro _ _ enters _
    exact entered enters
  · intro _ _ enters _
    exact entered enters

theorem lost_closeOnLoop (state : ListenerState) : state.closeOnLoop.1.lost = state.lost := by
  rw [closeOnLoop]
  split <;> rfl

/-- What an announcement loses stays lost, and nothing else is. -/
theorem lost_step (taken : run.step event = some run') :
    run'.lost = run.lost ∨
      ¬run.Answered event ∧ run'.lost = run.lost ++ [run.resource.state.arrived] := by
  cases Resource.move_of_step taken with
  | screened _ | posts _ | learns _ _ | abandons _ _ _ => exact .inl rfl
  | enters _ | registers _ _ => exact .inl frame_register.2
  | takes _ _ => exact .inl frame_serve.2
  | @occurs _ _ _ changed =>
      cases Socket.occurrence changed with
      | callback called =>
          rcases (callback_spec called).2.2 with ⟨-, same⟩ | unlocated
          · exact .inl same
          · exact .inr unlocated
      | again _ | posts _ => exact .inl rfl
      | closes _ | closeOnLoop _ => exact .inl (lost_closeOnLoop _)

/-- Where the listener starts closing, it makes a difference whether the step is answered. -/
theorem closing_step (sound : run.Sound) (isOpen : run.closing = false)
    (taken : run.step event = some run') :
    run'.closing = false ∧
        (run.Answered event ∨ run'.lost = run.lost ++ [run.resource.state.arrived]) ∨
      run'.closing = true ∧ run'.pending = run.pending ∧ run'.takers = run.takers ∧
        (run.Answered event ↔ run.pending.length ≤ run.takers) := by
  cases Resource.move_of_step taken with
  | screened _ | posts _ | learns _ _ | abandons _ _ _ => exact .inl ⟨isOpen, .inl trivial⟩
  | enters _ | registers _ _ => exact .inl ⟨frame_register.1.trans isOpen, .inl trivial⟩
  | takes _ _ => exact .inl ⟨frame_serve.1.trans isOpen, .inl trivial⟩
  | @occurs _ _ _ changed =>
      cases Socket.occurrence changed with
      | callback called =>
          rcases callback_spec called with ⟨-, stays, lost⟩
          simp only [ListenerState.isOpen, Bool.not_inj_iff] at stays
          refine .inl ⟨stays.trans isOpen, ?_⟩
          rcases lost with ⟨located, -⟩ | ⟨-, lost⟩
          · exact .inl located
          · exact .inr lost
      | @again onLoop given =>
          rw [Service.wake_nil]
          refine .inl ⟨isOpen, .inl ?_⟩
          cases onLoop with
          | true => exact fun held => absurd held (by simp [given])
          | false => trivial
      | closes held =>
          right
          rcases closeOnLoop_step sound isOpen false run.resource.closePosted rfl with
            ⟨closing, pending, takers⟩
          refine ⟨closing, pending, takers, ?_⟩
          exact ⟨fun answered => answered held isOpen, fun enough _ _ => enough⟩
      | posts _ => exact .inl ⟨isOpen, .inl trivial⟩
      | closeOnLoop _ =>
          right
          rcases closeOnLoop_step sound isOpen run.resource.held false rfl with
            ⟨closing, pending, takers⟩
          refine ⟨closing, pending, takers, ?_⟩
          exact ⟨fun answered => answered isOpen, fun enough _ => enough⟩

theorem answered_of_closing (closing : run.closing = true) (taken : run.step event = some run') :
    run.Answered event := by
  have started : run.closing ≠ false := by simp [closing]
  cases Resource.move_of_step taken with
  | screened _ | posts _ | learns _ _ | abandons _ _ _ | enters _ | registers _ _
  | takes _ _ => trivial
  | @occurs _ _ _ changed =>
      cases Socket.occurrence changed with
      | callback called =>
          have isOpen := (callback_spec called).1
          rw [ListenerState.isOpen, Bool.not_eq_true'] at isOpen
          exact absurd isOpen started
      | @again onLoop given =>
          cases onLoop with
          | true => exact fun _ isOpen => absurd isOpen started
          | false => trivial
      | closes _ => exact fun _ isOpen => absurd isOpen started
      | posts _ => trivial
      | closeOnLoop _ => exact fun isOpen => absurd isOpen started

/-- A listener that has just been opened. -/
def opened : ListenerRun :=
  { resource := { state := {} } }

theorem sound_opened : Sound opened := by
  refine ⟨rfl, ⟨⟨?_, ?_⟩, ?_, ?_⟩, .start rfl⟩
  · intro closed
    cases closed
  · intro posted
    cases posted
  · intro _ member
    cases member
  · intro _ member
    cases member

/-- However it is closed, a listener returns no connection twice or out of order. -/
theorem connections_in_order (events : List Event) : Sound (runOf step opened events) :=
  runOf_invariant sound_opened Sound.step events

/-- A closed listener has a call under way for every pending connection. -/
def Provided (run : ListenerRun) : Prop :=
  run.closing = true → run.pending.length ≤ run.takers

theorem Provided.step (provided : run.Provided) (sound : run.Sound) (answered : run.Answered event)
    (taken : run.step event = some run') : run'.Provided := by
  cases before : run.closing with
  | false =>
      intro after
      rcases closing_step sound before taken with ⟨isOpen, -⟩ | ⟨-, pending, takers, enough⟩
      · cases after.symm.trans isOpen
      · rw [pending, takers]
        exact enough.mp answered
  | true =>
      intro _
      have enough := provided before
      rcases (closed_step sound before taken).2 with ⟨pending, takers⟩ | ⟨pending, takers⟩
      · rw [pending, takers]
        exact enough
      · rw [pending, List.length_tail]
        omega

theorem short_reached (sound : run.Sound) (closing : run.closing = true)
    (short : run.takers < run.pending.length) {later : ListenerRun}
    (reached : Reached step (fun _ _ => True) run later) :
    later.Sound ∧ later.closing = true ∧ later.takers < later.pending.length := by
  apply reached.invariant
  · exact ⟨sound, closing, short⟩
  · intro run event run' ⟨sound, closing, short⟩ _ taken
    rcases closed_step sound closing taken with ⟨closingAfter, same | fewer⟩
    · refine ⟨sound.step taken, closingAfter, ?_⟩
      rw [same.1, same.2]
      exact short
    · refine ⟨sound.step taken, closingAfter, ?_⟩
      rw [fewer.1, List.length_tail]
      omega

/-- No call is under way. -/
def AtRest (run : ListenerRun) : Prop :=
  ∀ call ∈ run.calls, call.stage = .finished

theorem takers_eq_zero (atRest : run.AtRest) : run.takers = 0 := by
  apply List.countP_eq_zero.mpr
  intro call member
  simp [isTaking, atRest call member]

/-- A connection stays open that no call returns: it is pending on a closed listener, or it
has been lost. -/
def Strands (run : ListenerRun) : Prop :=
  (run.closing = true ∧ ∃ child ∈ run.pending, child.closing = false) ∨
    ∃ arrival ∈ run.lost, arrival ∉ (run.returned ++ run.pending).map Child.arrival

theorem strands_of_lost (sound : run.Sound) {arrival : ℕ} (lost : arrival ∈ run.lost)
    {later : ListenerRun} (reached : Reached step (fun _ _ => True) run later) :
    later.Strands := by
  have kept : later.Sound ∧ arrival ∈ later.lost := by
    apply reached.invariant
    · exact ⟨sound, lost⟩
    · intro run event run' ⟨sound, lost⟩ _ taken
      refine ⟨sound.step taken, ?_⟩
      rcases lost_step taken with same | ⟨-, more⟩
      · rw [same]
        exact lost
      · rw [more]
        exact List.mem_append_left _ lost
  refine .inr ⟨arrival, kept.2, ?_⟩
  rw [kept.1.ordered]
  simp [kept.2]

theorem strands_of_short (sound : run.Sound) (closing : run.closing = true)
    (short : run.takers < run.pending.length) {later : ListenerRun}
    (reached : Reached step (fun _ _ => True) run later) : later.Strands := by
  rcases short_reached sound closing short reached with ⟨soundLater, closingLater, shortLater⟩
  have some : later.pending ≠ [] := by
    intro none
    rw [none] at shortLater
    cases shortLater
  rcases List.exists_mem_of_ne_nil _ some with ⟨child, member⟩
  exact .inl ⟨closingLater, child, member, soundLater.tended.untouched child member⟩

/-- While every step is answered, the connections are returned or pending in the order of their
arrival, and a closed listener at rest has none left.  A step that is not answered leaves one
open for good. -/
theorem connections_returned (run : ListenerRun) (reached : Reached step Answered opened run) :
    (run.returned ++ run.pending).map Child.arrival = List.range run.resource.state.arrived ∧
      (run.closing = true → run.AtRest → run.pending = []) ∧
      ∀ event run', run.step event = some run' → ¬run.Answered event →
        ∀ later, Reached step (fun _ _ => True) run' later → later.Strands := by
  have kept : (run.Sound ∧ run.Provided) ∧ run.lost = [] := by
    apply reached.invariant
    · refine ⟨⟨sound_opened, ?_⟩, rfl⟩
      intro closing
      cases closing
    · intro run event run' ⟨⟨sound, provided⟩, whole⟩ answered taken
      refine ⟨⟨sound.step taken, provided.step sound answered taken⟩, ?_⟩
      rcases lost_step taken with same | ⟨unanswered, -⟩
      · exact same.trans whole
      · exact absurd answered unanswered
  rcases kept with ⟨⟨sound, provided⟩, whole⟩
  refine ⟨?_, ?_, ?_⟩
  · rw [sound.ordered, whole]
    simp
  · intro closing atRest
    have enough := provided closing
    rw [takers_eq_zero atRest] at enough
    exact List.length_eq_zero_iff.mp (Nat.le_zero.mp enough)
  · intro _ run' taken unanswered later reachedLater
    have isOpen : run.closing = false :=
      Bool.eq_false_iff.mpr fun closing => unanswered (answered_of_closing closing taken)
    rcases closing_step sound isOpen taken with
      ⟨-, answered | lost⟩ | ⟨closing, pending, takers, enough⟩
    · exact absurd answered unanswered
    · have member : run.resource.state.arrived ∈ run'.lost := by
        rw [lost]
        exact List.mem_append_right _ List.mem_cons_self
      exact strands_of_lost (sound.step taken) member reachedLater
    · have short : run'.takers < run'.pending.length := by
        rw [pending, takers]
        exact Nat.lt_of_not_le fun few => unanswered (enough.mpr few)
      exact strands_of_short (sound.step taken) closing short reachedLater

theorem connections_returned_while_closing :
    ∃ run : ListenerRun, Reached step Answered opened run ∧ run.closing = true ∧
      run.returned.map Child.arrival = [0, 1] ∧ run.pending = [] := by
  have followed : (follow step Answered opened
      [.call () true, .occur (.callback ⟨0, 0, true⟩), .occur (.callback ⟨0, 0, true⟩),
        .call () false, .occur (.close true), .resume 0, .register 1, .resume 1]).map
        (fun run => (run.closing, run.calls.map fun call => call.stage,
          run.resource.state.arrived)) = some (true, [.finished, .finished], 2) := by
    decide +kernel
  rcases exists_of_follow followed with ⟨run, -, reached, seen⟩
  simp only [Prod.mk.injEq] at seen
  rcases seen with ⟨closing, stages, arrived⟩
  have atRest : run.AtRest := by
    intro call member
    have stage : call.stage ∈ run.calls.map fun call => call.stage := List.mem_map_of_mem member
    rw [stages] at stage
    simpa using stage
  rcases connections_returned run reached with ⟨ordered, closed, -⟩
  have empty := closed closing atRest
  rw [empty, List.append_nil, arrived] at ordered
  exact ⟨run, reached, closing, ordered, empty⟩

/-- A listener that is closed while no one accepts leaves the connection that waits open. -/
theorem pending_connection_stays_open :
    (follow step (fun _ _ => True) opened
      [.occur (.callback ⟨0, 0, true⟩), .occur (.close true)]).map
        (fun run => (run.closing, run.calls.length, run.returned, run.pending)) =
      some (true, 0, [], [⟨0, false⟩]) := by
  decide +kernel

end ListenerRun

end Corouv.Net
