import Corouv.Library.Turns

/-!
# The owner of a socket

`TcpStream`, `TcpListener` and `UdpSocket` each own a state that the awaiters of their calls
and the callbacks of libuv share.  `close()` gives the state up and calls `request_close`,
which schedules `close_on_loop` unless it runs on the loop thread.  What the three classes do
in their own ways are the fields of `Socket`.
-/

namespace Corouv.Net

open Library

variable {σ κ ε ω : Type}

structure Socket (σ κ ε ω : Type) where
  isOpen : σ → Bool
  /-- What a call comes to if the socket is not open. -/
  closed : ω
  /-- What a call comes to that has nothing to wait for. -/
  immediate : κ → Option ω
  registerWaiter : σ → κ → ℕ → Entry ω × σ
  awaitResume : σ → κ → ω × σ
  closeOnLoop : σ → σ × List ℕ
  /-- The callbacks of libuv. -/
  callback : σ → ε → Option (σ × List ℕ)

structure Owner (σ : Type) where
  state : σ
  /-- The owner has not given the state up. -/
  held : Bool := true
  closePosted : Bool := false

inductive SocketEvent (ε : Type) where
  | callback (event : ε)
  | close (onLoop : Bool)
  | closeOnLoop

namespace Socket

def close (socket : Socket σ κ ε ω) (owner : Owner σ) (onLoop : Bool) : Owner σ × List ℕ :=
  if owner.held then
    if onLoop then
      let closing := socket.closeOnLoop owner.state
      ({ owner with state := closing.1, held := false }, closing.2)
    else ({ owner with held := false, closePosted := true }, [])
  else (owner, [])

def resource (socket : Socket σ κ ε ω) : Resource (Owner σ) κ (SocketEvent ε) ω where
  screen owner request :=
    if owner.held && socket.isOpen owner.state then socket.immediate request
    else some socket.closed
  enter owner request index :=
    let entered := socket.registerWaiter owner.state request index
    (entered.1, { owner with state := entered.2 })
  take owner request :=
    let taken := socket.awaitResume owner.state request
    (taken.1, { owner with state := taken.2 })
  occur owner
    | .callback event =>
        (socket.callback owner.state event).map fun changed =>
          ({ owner with state := changed.1 }, changed.2)
    | .close onLoop => some (socket.close owner onLoop)
    | .closeOnLoop =>
        if owner.closePosted then
          let closing := socket.closeOnLoop owner.state
          some ({ owner with state := closing.1, closePosted := false }, closing.2)
        else none

/-- What an event can do to the owner of a socket. -/
inductive Occurrence (socket : Socket σ κ ε ω) (owner : Owner σ) :
    SocketEvent ε → Owner σ → List ℕ → Prop
  | callback {event : ε} {state : σ} {woken : List ℕ}
      (called : socket.callback owner.state event = some (state, woken)) :
      Occurrence socket owner (.callback event) { owner with state } woken
  | again {onLoop : Bool} (given : owner.held = false) :
      Occurrence socket owner (.close onLoop) owner []
  | closes (held : owner.held = true) :
      Occurrence socket owner (.close true)
        { owner with state := (socket.closeOnLoop owner.state).1, held := false }
        (socket.closeOnLoop owner.state).2
  | posts (held : owner.held = true) :
      Occurrence socket owner (.close false) { owner with held := false, closePosted := true } []
  | closeOnLoop (posted : owner.closePosted = true) :
      Occurrence socket owner .closeOnLoop
        { owner with state := (socket.closeOnLoop owner.state).1, closePosted := false }
        (socket.closeOnLoop owner.state).2

variable {owner owner' : Owner σ} {event : SocketEvent ε} {woken : List ℕ}

theorem occurrence {socket : Socket σ κ ε ω}
    (happens : socket.resource.occur owner event = some (owner', woken)) :
    socket.Occurrence owner event owner' woken := by
  cases event with
  | callback _ =>
      rcases Option.map_eq_some_iff.mp happens with ⟨⟨_, _⟩, called, same⟩
      cases same
      exact .callback called
  | close onLoop =>
      have called := Option.some.inj happens
      unfold close at called
      split at called
      next held =>
        cases onLoop with
        | true =>
            cases called
            exact .closes held
        | false =>
            cases called
            exact .posts held
      next given =>
        cases called
        exact .again (Bool.eq_false_iff.mpr given)
  | closeOnLoop =>
      simp only [resource] at happens
      split at happens
      next posted =>
        cases happens
        exact .closeOnLoop posted
      · cases happens

/-- What callbacks and `close_on_loop` do to the state. -/
inductive Change (socket : Socket σ κ ε ω) (state : σ) : σ → List ℕ → Prop
  | callback {event : ε} {state' : σ} {woken : List ℕ}
      (happens : socket.callback state event = some (state', woken)) :
      Change socket state state' woken
  | closeOnLoop :
      Change socket state (socket.closeOnLoop state).1 (socket.closeOnLoop state).2

structure Lawful (socket : Socket σ κ ε ω) (protocol : Protocol σ κ ω) : Prop where
  immediate : ∀ {state request outcome}, socket.immediate request = some outcome →
    protocol.excused state request outcome
  waits : ∀ {state state' request index}, protocol.idle state →
    socket.registerWaiter state request index = (.waits, state') →
    protocol.holds state' index request
  passes : ∀ {state state' request index}, protocol.idle state →
    socket.registerWaiter state request index = (.passes, state') →
    protocol.idle state' ∧ protocol.ready state' request
  refused : ∀ {state state' request index outcome}, protocol.idle state →
    socket.registerWaiter state request index = (.refused outcome, state') →
    protocol.idle state' ∧ protocol.excused state' request outcome ∧
      outcome ≠ protocol.rejection
  rejected : ∀ {state request request' index index'}, protocol.holds state index' request' →
    protocol.notices request request' →
    socket.registerWaiter state request index = (.refused protocol.rejection, state)
  overlooked : ∀ {state request request' index index'}, protocol.holds state index' request' →
    ¬protocol.notices request request' →
    (socket.registerWaiter state request index).1 ≠ .passes ∧
      (socket.registerWaiter state request index).1 ≠ .refused protocol.rejection
  take : ∀ {state request}, protocol.idle state → protocol.ready state request →
    protocol.idle (socket.awaitResume state request).2 ∧
      protocol.excused (socket.awaitResume state request).2 request
        (socket.awaitResume state request).1
  takes : ∀ {state request}, (socket.awaitResume state request).1 ≠ protocol.rejection
  changes : ∀ {state state' woken}, protocol.idle state → socket.Change state state' woken →
    protocol.idle state' ∧ woken = [] ∧
      ∀ {request}, protocol.ready state request → protocol.ready state' request
  wakes : ∀ {state state' woken index request}, protocol.holds state index request →
    socket.Change state state' woken →
    protocol.holds state' index request ∧ woken = [] ∨
      protocol.idle state' ∧ protocol.ready state' request ∧ woken = [index]
  rejection : ∀ {state request}, protocol.excused state request protocol.rejection
  register_excused : ∀ {state state' request index entry request' outcome},
    socket.registerWaiter state request index = (entry, state') →
    protocol.excused state request' outcome → protocol.excused state' request' outcome
  take_excused : ∀ {state request request' outcome},
    protocol.excused state request' outcome →
    protocol.excused (socket.awaitResume state request).2 request' outcome
  change_excused : ∀ {state state' woken request outcome},
    socket.Change state state' woken →
    protocol.excused state request outcome → protocol.excused state' request outcome
  register_isOpen : ∀ {state state' request index entry},
    socket.registerWaiter state request index = (entry, state') →
    socket.isOpen state' = socket.isOpen state
  take_isOpen : ∀ {state request},
    socket.isOpen (socket.awaitResume state request).2 = socket.isOpen state
  callback_isOpen : ∀ {state state' event woken},
    socket.callback state event = some (state', woken) →
    socket.isOpen state' = socket.isOpen state

/-- The state is closed by its owner. -/
structure Proper (socket : Socket σ κ ε ω) (owner : Owner σ) : Prop where
  closed : socket.isOpen owner.state = false → owner.held = false
  posted : owner.closePosted = true → owner.held = false

/-- A call that comes after `close()` is told so. -/
def protocol (socket : Socket σ κ ε ω) (inner : Protocol σ κ ω) : Protocol (Owner σ) κ ω where
  idle owner := inner.idle owner.state ∧ socket.Proper owner
  holds owner index request := inner.holds owner.state index request ∧ socket.Proper owner
  ready owner request := inner.ready owner.state request
  excused owner request outcome :=
    inner.excused owner.state request outcome ∨ owner.held = false ∧ outcome = socket.closed
  notices := inner.notices
  rejection := inner.rejection

variable {socket : Socket σ κ ε ω} {inner : Protocol σ κ ω}

theorem Proper.of_isOpen {state : σ} (proper : socket.Proper owner)
    (same : socket.isOpen state = socket.isOpen owner.state) :
    socket.Proper { owner with state } := by
  constructor
  · intro closed
    exact proper.closed (same.symm.trans closed)
  · exact proper.posted

theorem enter_eq {request : κ} {index : ℕ} {entry : Entry ω}
    (enters : socket.resource.enter owner request index = (entry, owner')) :
    ∃ state, socket.registerWaiter owner.state request index = (entry, state) ∧
      owner' = { owner with state } := by
  rcases Prod.mk.inj enters with ⟨rfl, rfl⟩
  exact ⟨_, rfl, rfl⟩

theorem Occurrence.change (occurrence : socket.Occurrence owner event owner' woken) :
    (owner'.state = owner.state ∧ woken = [] ∨ socket.Change owner.state owner'.state woken) ∧
      (owner.held = false → owner'.held = false) := by
  cases occurrence with
  | callback called => exact ⟨.inr (.callback called), id⟩
  | again _ => exact ⟨.inl ⟨rfl, rfl⟩, id⟩
  | closes _ => exact ⟨.inr .closeOnLoop, fun _ => rfl⟩
  | posts _ => exact ⟨.inl ⟨rfl, rfl⟩, fun _ => rfl⟩
  | closeOnLoop _ => exact ⟨.inr .closeOnLoop, id⟩

theorem Proper.occur (proper : socket.Proper owner)
    (stays : ∀ {state state' event woken}, socket.callback state event = some (state', woken) →
      socket.isOpen state' = socket.isOpen state)
    (occurrence : socket.Occurrence owner event owner' woken) : socket.Proper owner' := by
  cases occurrence with
  | callback called => exact proper.of_isOpen (stays called)
  | again _ => exact proper
  | closes _ | posts _ => exact ⟨fun _ => rfl, fun _ => rfl⟩
  | closeOnLoop posted => exact ⟨fun _ => proper.posted posted, fun _ => proper.posted posted⟩

theorem Lawful.resource (lawful : socket.Lawful inner) :
    socket.resource.Lawful (socket.protocol inner) where
  screen := by
    intro owner request outcome standing known
    have proper : socket.Proper owner := by
      rcases standing with idle | ⟨_, _, holds⟩
      · exact idle.2
      · exact holds.2
    simp only [Socket.resource] at known
    split at known
    · exact .inl (lawful.immediate known)
    next closed =>
      cases known
      refine .inr ⟨?_, rfl⟩
      by_contra held
      rw [Bool.not_eq_false] at held
      rw [held, Bool.true_and] at closed
      exact absurd (proper.closed (Bool.eq_false_iff.mpr closed)) (by simp [held])
  waits := by
    intro owner owner' request index ⟨idle, proper⟩ enters
    rcases enter_eq enters with ⟨_, registers, rfl⟩
    exact ⟨lawful.waits idle registers, proper.of_isOpen (lawful.register_isOpen registers)⟩
  passes := by
    intro owner owner' request index ⟨idle, proper⟩ enters
    rcases enter_eq enters with ⟨_, registers, rfl⟩
    rcases lawful.passes idle registers with ⟨idleAfter, ready⟩
    exact ⟨⟨idleAfter, proper.of_isOpen (lawful.register_isOpen registers)⟩, ready⟩
  refused := by
    intro owner owner' request index outcome ⟨idle, proper⟩ enters
    rcases enter_eq enters with ⟨_, registers, rfl⟩
    rcases lawful.refused idle registers with ⟨idleAfter, excused, different⟩
    have properAfter := proper.of_isOpen (lawful.register_isOpen registers)
    exact ⟨⟨idleAfter, properAfter⟩, .inl excused, different⟩
  rejected := by
    intro owner request request' index index' ⟨holds, proper⟩ noticed
    simp only [Socket.resource, lawful.rejected holds noticed]
    rfl
  overlooked := by
    intro owner owner' request request' index index' entry ⟨holds, proper⟩ unnoticed enters
    cases enters
    exact lawful.overlooked holds unnoticed
  take := by
    intro owner request ⟨idle, proper⟩ ready
    rcases lawful.take idle ready with ⟨idleAfter, excused⟩
    exact ⟨⟨idleAfter, proper.of_isOpen lawful.take_isOpen⟩, .inl excused⟩
  takes := lawful.takes
  occurs := by
    intro owner owner' event woken ⟨idle, proper⟩ happens
    have properAfter := proper.occur lawful.callback_isOpen (occurrence happens)
    rcases (occurrence happens).change.1 with ⟨same, rfl⟩ | change
    · simp only [Socket.protocol, same]
      exact ⟨⟨idle, properAfter⟩, trivial, id⟩
    · rcases lawful.changes idle change with ⟨idleAfter, none, ready⟩
      exact ⟨⟨idleAfter, properAfter⟩, none, ready⟩
  wakes := by
    intro owner owner' event woken index request ⟨holds, proper⟩ happens
    have properAfter := proper.occur lawful.callback_isOpen (occurrence happens)
    rcases (occurrence happens).change.1 with ⟨same, rfl⟩ | change
    · simp only [Socket.protocol, same]
      exact .inl ⟨⟨holds, properAfter⟩, trivial⟩
    · rcases lawful.wakes holds change with ⟨holdsAfter, none⟩ | ⟨idle, ready, woken⟩
      · exact .inl ⟨⟨holdsAfter, properAfter⟩, none⟩
      · exact .inr ⟨⟨idle, properAfter⟩, ready, woken⟩
  rejection := .inl lawful.rejection
  enter_excused := by
    intro _ _ _ _ _ _ _ enters excused
    rcases enter_eq enters with ⟨_, registers, rfl⟩
    rcases excused with excused | closed
    · exact .inl (lawful.register_excused registers excused)
    · exact .inr closed
  take_excused := by
    intro _ _ _ _ excused
    rcases excused with excused | closed
    · exact .inl (lawful.take_excused excused)
    · exact .inr closed
  occur_excused := by
    intro _ _ _ _ _ _ happens excused
    rcases (occurrence happens).change with ⟨change, given⟩
    rcases excused with excused | ⟨held, told⟩
    · left
      rcases change with ⟨same, -⟩ | change
      · rw [same]
        exact excused
      · exact lawful.change_excused change excused
    · exact .inr ⟨given held, told⟩

theorem Lawful.reached (lawful : socket.Lawful inner) {state : σ}
    {service : Service (Owner σ) κ ω} (idle : inner.idle state)
    (isOpen : socket.isOpen state = true)
    (reached : Reached socket.resource.step (socket.resource.Apart inner.notices)
      { resource := { state } } service) : Orderly (socket.protocol inner) service := by
  refine Resource.Lawful.reached lawful.resource ?_ reached
  refine ⟨idle, ?_, ?_⟩
  · intro closed
    cases closed.symm.trans isOpen
  · intro posted
    cases posted

end Socket

end Corouv.Net
