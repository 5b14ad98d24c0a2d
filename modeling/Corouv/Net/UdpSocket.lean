import Corouv.Net.Owner
import Corouv.Net.UdpDelivery

/-!
# The calls of a `UdpSocket`

Any number of calls of `recv` and `recv_some` on one socket.  What `recv_some` leaves in the
buffer of its caller is not followed here.
-/

namespace Corouv.Net

open Library
open UdpState (canceled)

deriving instance DecidableEq for RecvRequest

structure UdpRequest where
  kind : RecvRequest
  /-- What `uv_udp_recv_start` returns, should it be called. -/
  code : ℤ := 0
  /-- It is not cancelled. -/
  sensible : code ≠ canceled := by decide
  deriving DecidableEq

/-- `recv` overlooks a waiting `recv_some`. -/
def UdpRequest.Notices (request other : UdpRequest) : Prop :=
  match request.kind, other.kind with
  | .recv, .recvSome _ => False
  | _, _ => True

instance (request other : UdpRequest) : Decidable (request.Notices other) := by
  unfold UdpRequest.Notices
  split <;> infer_instance

abbrev UdpOutcome := Except Exn (Datagram ⊕ DatagramInfo)

namespace UdpState

/-- What libuv can report. -/
def Received.isSensible : Received → Bool
  | .datagram payload _ _ => payload ≠ []
  | .nothing => true
  | .failure code => code < 0 && code ≠ canceled

def Registration.entry (registration : Registration) : Entry UdpOutcome :=
  match registration, registration.problem with
  | _, some error => .refused (.error error)
  | .suspended, none => .waits
  | _, none => .passes

def registerWaiter (state : UdpState ℕ) (request : UdpRequest) (caller : ℕ) :
    Entry UdpOutcome × UdpState ℕ :=
  let registered :=
    match request.kind with
    | .recv => state.registerRecv caller request.code
    | .recvSome buffer => state.registerRecvSome caller buffer.length request.code
  (registered.1.entry, registered.2)

def awaitResume (state : UdpState ℕ) (request : UdpRequest) : UdpOutcome × UdpState ℕ :=
  match request.kind with
  | .recv => (state.takeRecv.1.map .inl, state.takeRecv.2)
  | .recvSome buffer =>
      ((state.takeRecvSome buffer).1.map fun received => .inr received.1,
        (state.takeRecvSome buffer).2)

def closedSocket : UdpOutcome :=
  .error (.logic "corouv::net::UdpSocket is closed")

def concurrentRecv : UdpOutcome :=
  .error (.logic "corouv::net::UdpSocket does not support concurrent recv calls")

end UdpState

/-- `UdpSocket`, as far as receiving is concerned. -/
def udpSocket : Socket (UdpState ℕ) UdpRequest UdpState.Received UdpOutcome where
  isOpen := UdpState.isOpen
  closed := UdpState.closedSocket
  immediate _ := none
  registerWaiter := UdpState.registerWaiter
  awaitResume := UdpState.awaitResume
  closeOnLoop := UdpState.closeOnLoop
  callback state received :=
    if state.recvStarted && received.isSensible then
      some ((state.recvCb received).state, (state.recvCb received).resumed)
    else none

/-- A socket, the calls on it and what they have come to. -/
abbrev UdpRun := Service (Owner (UdpState ℕ)) UdpRequest UdpOutcome

namespace UdpState

variable {state state' : UdpState ℕ}

def isReady (state : UdpState ℕ) : Bool :=
  state.pending ≠ [] || !state.isOpen || state.recvError ≠ 0

theorem isReady_eq_true_iff :
    state.isReady = true ↔ state.pending ≠ [] ∨ state.isOpen = false ∨ state.recvError ≠ 0 := by
  simp [isReady, or_assoc]

theorem startReceivingOnLoop_cases (state : UdpState ℕ) (code : ℤ) :
    state.startReceivingOnLoop code = (0, state) ∨
      state.startReceivingOnLoop code = (0, { state with recvStarted := true }) ∨
      code ≠ 0 ∧ state.startReceivingOnLoop code = (code, state) := by
  unfold startReceivingOnLoop
  split
  · exact .inl rfl
  · split
    · exact .inr (.inl rfl)
    next fails => exact .inr (.inr ⟨fails, rfl⟩)

/-- The ways a registration can end. -/
theorem register_cases {busy : Bool} {enter leave : UdpState ℕ → UdpState ℕ} {code : ℤ}
    {verdict : Registration}
    (registers : state.register busy enter leave code = (verdict, state')) :
    (state.isReady = true ∧ verdict = .ready ∧ state' = state) ∨
      (state.isReady = false ∧ busy = true ∧ verdict = .concurrent ∧ state' = state) ∨
      (state.isReady = false ∧ busy = false ∧
        (verdict = .failed code ∧ code ≠ 0 ∧
            state' = { leave (enter state) with recvError := code } ∨
          verdict = .suspended ∧ (state' = enter state ∨
            state' = { enter state with recvStarted := true }))) := by
  unfold register at registers
  split at registers
  next ready =>
    cases registers
    exact .inl ⟨isReady_eq_true_iff.mpr (by simpa using ready), rfl, rfl⟩
  next notReady =>
    have blank : state.isReady = false := by
      apply Bool.eq_false_iff.mpr
      intro ready
      exact notReady (by simpa using isReady_eq_true_iff.mp ready)
    right
    split at registers
    next isBusy =>
      cases registers
      exact .inl ⟨blank, isBusy, rfl, rfl⟩
    next free =>
      refine .inr ⟨blank, Bool.eq_false_iff.mpr free, ?_⟩
      rcases startReceivingOnLoop_cases (enter state) code with same | started | ⟨fails, same⟩
      · simp only [same, ne_eq, not_true_eq_false, if_false] at registers
        cases registers
        exact .inr ⟨rfl, .inl rfl⟩
      · simp only [started, ne_eq, not_true_eq_false, if_false] at registers
        cases registers
        exact .inr ⟨rfl, .inr rfl⟩
      · simp only [same, if_pos fails] at registers
        cases registers
        exact .inl ⟨rfl, fails, rfl⟩

/-- Another call is in the way. -/
def isBusy (state : UdpState ℕ) : RecvRequest → Bool
  | .recv => state.recvWaiter.isSome
  | .recvSome _ => state.recvWaiter.isSome || state.recvSomeWaiter.isSome

def Vacant (state : UdpState ℕ) : Prop :=
  state.recvWaiter = none ∧ state.recvSomeWaiter = none

/-- The call is registered, and no other one. -/
def Registered (state : UdpState ℕ) (caller : ℕ) : RecvRequest → Prop
  | .recv => state.recvWaiter = some caller ∧ state.recvSomeWaiter = none
  | .recvSome _ => state.recvWaiter = none ∧ state.recvSomeWaiter = some caller

theorem registerWaiter_cases {request : UdpRequest} {caller : ℕ} {entry : Entry UdpOutcome}
    (registers : state.registerWaiter request caller = (entry, state')) :
    (state.isReady = true ∧ entry = .passes ∧ state' = state) ∨
      (state.isReady = false ∧ state.isBusy request.kind = true ∧
        entry = .refused concurrentRecv ∧ state' = state) ∨
      (state.isReady = false ∧ state.isBusy request.kind = false ∧ state'.isOpen = state.isOpen ∧
        (entry = .refused (.error (.runtime "uv_udp_recv_start")) ∧
            state'.recvError = request.code ∧ (state.Vacant → state'.Vacant) ∨
          entry = .waits ∧ state'.recvError = state.recvError ∧ state'.isReady = state.isReady ∧
            (state.Vacant → state'.Registered caller request.kind))) := by
  rcases request with ⟨kind, code, _⟩
  cases kind with
  | recv =>
      rcases verdict : state.registerRecv caller code with ⟨_, _⟩
      simp only [registerWaiter, verdict, Prod.mk.injEq] at registers
      rcases registers with ⟨rfl, rfl⟩
      rcases register_cases verdict with
        ⟨ready, rfl, rfl⟩ | ⟨blank, busy, rfl, rfl⟩ | ⟨blank, free, ⟨rfl, -, rfl⟩ | ⟨rfl, entered⟩⟩
      · exact .inl ⟨ready, rfl, rfl⟩
      · exact .inr (.inl ⟨blank, busy, rfl, rfl⟩)
      · exact .inr (.inr ⟨blank, free, rfl, .inl ⟨rfl, rfl, fun vacant => ⟨rfl, vacant.2⟩⟩⟩)
      · rcases entered with rfl | rfl <;>
          exact .inr (.inr ⟨blank, free, rfl, .inr ⟨rfl, rfl, rfl, fun vacant => ⟨rfl, vacant.2⟩⟩⟩)
  | recvSome buffer =>
      rcases verdict : state.registerRecvSome caller buffer.length code with ⟨_, _⟩
      simp only [registerWaiter, verdict, Prod.mk.injEq] at registers
      rcases registers with ⟨rfl, rfl⟩
      rcases register_cases verdict with
        ⟨ready, rfl, rfl⟩ | ⟨blank, busy, rfl, rfl⟩ | ⟨blank, free, ⟨rfl, -, rfl⟩ | ⟨rfl, entered⟩⟩
      · exact .inl ⟨ready, rfl, rfl⟩
      · exact .inr (.inl ⟨blank, busy, rfl, rfl⟩)
      · exact .inr (.inr ⟨blank, free, rfl, .inl ⟨rfl, rfl, fun vacant => ⟨vacant.1, rfl⟩⟩⟩)
      · rcases entered with rfl | rfl <;>
          exact .inr (.inr ⟨blank, free, rfl, .inr ⟨rfl, rfl, rfl, fun vacant => ⟨vacant.1, rfl⟩⟩⟩)

/-- A callback or `close_on_loop` leaves the waiting calls alone, or wakes them all.  A
datagram that is handed over directly is not left for anyone else. -/
theorem change_cases {woken : List ℕ} (change : udpSocket.Change state state' woken) :
    (woken = [] ∧ state' = state) ∨
      (woken = state.recvWaiter.toList ++ state.recvSomeWaiter.toList ∧ state'.Vacant ∧
        (state.recvSomeWaiter = none → state'.isReady = true) ∧
        (state'.isOpen = false ∨ state'.isOpen = state.isOpen ∧
          (state'.recvError = state.recvError ∨ state'.recvError ≠ canceled))) := by
  cases change with
  | @callback received _ _ called =>
      simp only [udpSocket] at called
      split at called
      next possible =>
        rw [Bool.and_eq_true] at possible
        have reported := Option.some.inj called
        cases received with
        | datagram _ _ _ =>
            cases direct : state.recvSomeWaiter with
            | none =>
                simp only [recvCb, direct] at reported
                cases reported
                refine .inr ⟨by simp, ⟨rfl, rfl⟩, ?_, .inr ⟨rfl, .inl rfl⟩⟩
                exact fun _ => by simp [isReady]
            | some _ =>
                simp only [recvCb, direct] at reported
                cases reported
                refine .inr ⟨rfl, ⟨rfl, rfl⟩, ?_, .inr ⟨rfl, .inl rfl⟩⟩
                intro none
                cases none
        | nothing =>
            cases reported
            exact .inl ⟨rfl, rfl⟩
        | failure code =>
            cases reported
            have negative : code < 0 ∧ code ≠ canceled := by
              simpa [Received.isSensible] using possible.2
            have nonzero : code ≠ 0 := by omega
            refine .inr ⟨rfl, ⟨rfl, rfl⟩, ?_, .inr ⟨rfl, .inr negative.2⟩⟩
            exact fun _ => isReady_eq_true_iff.mpr (.inr (.inr nonzero))
      · cases called
  | closeOnLoop =>
      simp only [udpSocket, closeOnLoop]
      split
      · exact .inr ⟨rfl, ⟨rfl, rfl⟩, fun _ => by simp [isReady], .inl rfl⟩
      · exact .inl ⟨rfl, rfl⟩

theorem isBusy_eq_true_iff {request other : UdpRequest} {caller : ℕ}
    (registered : state.Registered caller other.kind) :
    state.isBusy request.kind = true ↔ request.Notices other := by
  rcases request with ⟨kind, _, _⟩
  rcases other with ⟨otherKind, _, _⟩
  cases kind <;> cases otherKind <;>
    simp [isBusy, UdpRequest.Notices, registered.1, registered.2]

theorem awaitResume_frame (state : UdpState ℕ) (request : UdpRequest) :
    ((state.Vacant → (state.awaitResume request).2.Vacant) ∧
      (state.awaitResume request).2.isOpen = state.isOpen) ∧
      (state.awaitResume request).2.recvError = state.recvError := by
  rcases request with ⟨kind, _, _⟩
  cases kind with
  | recv =>
      simp only [awaitResume, takeRecv]
      split <;> exact ⟨⟨id, rfl⟩, rfl⟩
  | recvSome _ =>
      simp only [awaitResume, takeRecvSome]
      split
      · exact ⟨⟨id, rfl⟩, rfl⟩
      · split <;> exact ⟨⟨id, rfl⟩, rfl⟩

theorem callback_isOpen {received : Received} {woken : List ℕ}
    (called : udpSocket.callback state received = some (state', woken)) :
    state'.isOpen = state.isOpen := by
  simp only [udpSocket] at called
  split at called
  · have reported := Option.some.inj called
    cases received with
    | datagram _ _ _ =>
        cases direct : state.recvSomeWaiter <;> simp only [recvCb, direct] at reported <;>
          cases reported <;> rfl
    | nothing | failure code =>
        cases reported
        rfl
  · cases called

end UdpState

end Corouv.Net
