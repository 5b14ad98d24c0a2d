import Corouv.Net.Owner
import Corouv.Net.Udp

/-!
# Accepting connections with a `TcpListener`

The state behind a listener, the callback in which libuv announces a connection, and the
awaiter of `accept`.  Of the state of a connection only its number, in the order of arrival,
and whether its close has been requested are kept.  A connection whose addresses cannot be
read is lost: `on_connection` throws once `uv_accept` has taken it.
-/

namespace Corouv.Net

open Library
open UdpState (canceled)

structure Child where
  arrival : ℕ
  closing : Bool := false
  deriving DecidableEq

structure ListenerState where
  pending : List Child := []
  acceptWaiter : Option ℕ := none
  acceptError : ℤ := 0
  closing : Bool := false
  /-- How many connections `uv_accept` has taken. -/
  arrived : ℕ := 0
  /-- The connections that are open and held by nothing but their handles. -/
  lost : List ℕ := []

/-- A call of `on_connection`. -/
structure Announcement where
  status : ℤ
  /-- What comes of the initialisation of the child and of `uv_accept`. -/
  rc : ℤ
  /-- `refresh_endpoints` finds the addresses of the connection and does not throw. -/
  located : Bool

/-- A connection that `uv_accept` takes has addresses. -/
def Announcement.Located (announcement : Announcement) : Prop :=
  0 ≤ announcement.status → announcement.rc = 0 → announcement.located = true

instance (announcement : Announcement) : Decidable announcement.Located :=
  inferInstanceAs (Decidable (_ → _ → _))

/-- libuv does not announce that a listener has been closed. -/
def Announcement.isSensible (announcement : Announcement) : Bool :=
  announcement.status ≠ canceled && announcement.rc ≠ canceled

namespace ListenerState

def isOpen (state : ListenerState) : Bool :=
  !state.closing

/-- The waiting call is woken, to find an error. -/
def fail (state : ListenerState) (code : ℤ) : ListenerState × List ℕ :=
  ({ state with acceptError := code, acceptWaiter := none }, state.acceptWaiter.toList)

def closeOnLoop (state : ListenerState) : ListenerState × List ℕ :=
  if state.closing then (state, [])
  else fail { state with closing := true } canceled

/-- What is left of `on_connection` when `refresh_endpoints` has thrown. -/
def lose (state : ListenerState) : ListenerState :=
  { state with arrived := state.arrived + 1, lost := state.lost ++ [state.arrived] }

def onConnection (state : ListenerState) (announcement : Announcement) :
    ListenerState × List ℕ :=
  if announcement.status < 0 then state.fail announcement.status
  else if announcement.rc = 0 then
    if announcement.located then
      ({ state with
          pending := state.pending ++ [⟨state.arrived, false⟩]
          arrived := state.arrived + 1
          acceptWaiter := none },
        state.acceptWaiter.toList)
    else (state.lose, [])
  else state.fail announcement.rc

def isReady (state : ListenerState) : Bool :=
  state.pending ≠ [] || !state.isOpen || state.acceptError ≠ 0

def concurrentAccept : Except Exn Child :=
  .error (.logic "corouv::net::TcpListener does not support concurrent accept calls")

def closedListener : Except Exn Child :=
  .error (.logic "corouv::net::TcpListener is closed")

def registerWaiter (state : ListenerState) (caller : ℕ) :
    Entry (Except Exn Child) × ListenerState :=
  if state.isReady then (.passes, state)
  else if state.acceptWaiter.isSome then (.refused concurrentAccept, state)
  else (.waits, { state with acceptWaiter := some caller })

def awaitResume (state : ListenerState) : Except Exn Child × ListenerState :=
  match state.pending with
  | child :: later => (.ok child, { state with pending := later })
  | [] =>
      if state.acceptError ≠ 0 ∧ state.acceptError ≠ canceled then
        (.error (.runtime "uv_listen/uv_accept"), state)
      else (closedListener, state)

end ListenerState

/-- `TcpListener`.  libuv announces nothing once the listener is being closed. -/
def tcpListener : Socket ListenerState Unit Announcement (Except Exn Child) where
  isOpen := ListenerState.isOpen
  closed := ListenerState.closedListener
  immediate _ := none
  registerWaiter state _ caller := state.registerWaiter caller
  awaitResume state _ := state.awaitResume
  closeOnLoop := ListenerState.closeOnLoop
  callback state announcement :=
    if state.isOpen && announcement.isSensible then some (state.onConnection announcement)
    else none

/-- A listener, the calls of `accept` and what they have come to. -/
abbrev ListenerRun := Service (Owner ListenerState) Unit (Except Exn Child)

namespace ListenerState

variable {state state' : ListenerState} {caller : ℕ}

theorem registerWaiter_cases {entry : Entry (Except Exn Child)}
    (registers : state.registerWaiter caller = (entry, state')) :
    (state.isReady = true ∧ entry = .passes ∧ state' = state) ∨
      (state.isReady = false ∧ state.acceptWaiter ≠ none ∧ entry = .refused concurrentAccept ∧
        state' = state) ∨
      (state.isReady = false ∧ state.acceptWaiter = none ∧ entry = .waits ∧
        state' = { state with acceptWaiter := some caller }) := by
  unfold registerWaiter at registers
  split at registers
  next ready =>
    cases registers
    exact .inl ⟨ready, rfl, rfl⟩
  next notReady =>
    have blank := Bool.eq_false_iff.mpr notReady
    right
    split at registers
    next busy =>
      cases registers
      exact .inl ⟨blank, Option.isSome_iff_ne_none.mp busy, rfl, rfl⟩
    next free =>
      cases registers
      exact .inr ⟨blank, by simpa using free, rfl, rfl⟩

theorem closeOnLoop_eq (isOpen : state.closing = false) :
    state.closeOnLoop =
      ({ state with closing := true, acceptError := canceled, acceptWaiter := none },
        state.acceptWaiter.toList) := by
  rw [closeOnLoop, if_neg (Bool.eq_false_iff.mp isOpen)]
  rfl

/-- What an announcement or `close_on_loop` can do.  All but the first two wake the waiting
call. -/
theorem change_cases {woken : List ℕ} (change : tcpListener.Change state state' woken) :
    (state' = state ∧ woken = [] ∧ state.closing = true) ∨
      (state' = state.lose ∧ woken = [] ∧ state.closing = false) ∨
      (woken = state.acceptWaiter.toList ∧ state.closing = false ∧
        ((∃ code, code ≠ 0 ∧ code ≠ canceled ∧
            state' = { state with acceptError := code, acceptWaiter := none }) ∨
          state' =
            { state with
              pending := state.pending ++ [⟨state.arrived, false⟩]
              arrived := state.arrived + 1
              acceptWaiter := none } ∨
          state' =
            { state with closing := true, acceptError := canceled, acceptWaiter := none })) := by
  cases change with
  | @callback _ _ _ called =>
      simp only [tcpListener] at called
      split at called
      next possible =>
        simp only [Bool.and_eq_true, isOpen, Announcement.isSensible, decide_eq_true_eq,
          Bool.not_eq_true'] at possible
        rcases possible with ⟨isOpen, status, rc⟩
        have announced := Option.some.inj called
        right
        unfold onConnection at announced
        split_ifs at announced with failed taken located
        · cases announced
          exact .inr ⟨rfl, isOpen, .inl ⟨_, by omega, status, rfl⟩⟩
        · cases announced
          exact .inr ⟨rfl, isOpen, .inr (.inl rfl)⟩
        · cases announced
          exact .inl ⟨rfl, rfl, isOpen⟩
        · cases announced
          exact .inr ⟨rfl, isOpen, .inl ⟨_, taken, rc, rfl⟩⟩
      · cases called
  | closeOnLoop =>
      simp only [tcpListener, closeOnLoop]
      split
      next closing => exact .inl ⟨rfl, rfl, closing⟩
      next isOpen => exact .inr (.inr ⟨rfl, Bool.eq_false_iff.mpr isOpen, .inr (.inr rfl)⟩)

theorem callback_spec {announcement : Announcement} {woken : List ℕ}
    (called : tcpListener.callback state announcement = some (state', woken)) :
    state.isOpen = true ∧ state'.isOpen = state.isOpen ∧
      (announcement.Located ∧ state'.lost = state.lost ∨
        ¬announcement.Located ∧ state'.lost = state.lost ++ [state.arrived]) := by
  simp only [tcpListener] at called
  split at called
  next possible =>
    refine ⟨(Bool.and_eq_true_iff.mp possible).1, ?_⟩
    have announced := Option.some.inj called
    unfold onConnection at announced
    split_ifs at announced with failed taken located <;> cases announced <;>
      refine ⟨rfl, ?_⟩
    · exact .inl ⟨fun fine => absurd fine (by omega), rfl⟩
    · exact .inl ⟨fun _ _ => located, rfl⟩
    · exact .inr ⟨fun fine => located (fine (by omega) taken), rfl⟩
    · exact .inl ⟨fun _ none => absurd none taken, rfl⟩
  · cases called

end ListenerState

end Corouv.Net
