import Mathlib.Data.List.Forall2
import Corouv.Library.Transition
import Corouv.Net.Udp

/-!
# Datagrams in the order of their arrival

One consumer calls `recv` and `recv_some`, one call after the other, while libuv
delivers datagrams.  Between the moment a datagram is handed to a waiting `recv_some` and
the moment the executor resumes the caller, another datagram may arrive; it is then the
one that is returned, and the first is lost.  If none arrives at that moment, the calls
return the datagrams in order.
-/

namespace Corouv.Net

open Library

inductive RecvRequest where
  | recv
  /-- With the buffer as the caller passes it. -/
  | recvSome (buffer : Bytes)

inductive ConsumerPhase where
  | idle
  /-- The registration has been scheduled on the loop. -/
  | registering (request : RecvRequest)
  | waiting (request : RecvRequest)
  /-- The resumption has been scheduled; `problem` is what the awaiter has to throw. -/
  | woken (request : RecvRequest) (problem : Option Exn)

/-- What a call has given to the consumer, and how much room there was for the payload. -/
structure Receipt where
  capacity : Option ℕ
  peer : Endpoint
  flags : ℕ
  payload : Bytes
  deriving DecidableEq, Repr

/-- What a call is to give to the consumer. -/
def Datagram.receipt (datagram : Datagram) : Option ℕ → Receipt
  | none => ⟨none, datagram.peer, datagram.flags, datagram.payload⟩
  | some capacity =>
      ⟨some capacity, datagram.peer,
        markTruncated datagram.flags datagram.payload.length capacity,
        datagram.payload.take capacity⟩

/-- A socket and its consumer, with everything that was delivered and returned so far. -/
structure Receiver where
  socket : UdpState Unit := {}
  phase : ConsumerPhase := .idle
  buffer : Bytes := []
  delivered : List Datagram := []
  receipts : List Receipt := []

inductive UdpEvent where
  | deliver (payload : Bytes) (address : Option Endpoint) (flags : ℕ)
  /-- On the loop thread or off it. -/
  | call (request : RecvRequest) (onLoop : Bool) (code : ℤ)
  | register (code : ℤ)
  | resume

namespace Receiver

/-- The buffer that comes with the request. -/
def lend (receiver : Receiver) : RecvRequest → Receiver
  | .recv => receiver
  | .recvSome buffer => { receiver with buffer := buffer }

/-- `register_waiter` of the awaiter that belongs to the request. -/
def enter (receiver : Receiver) (request : RecvRequest) (code : ℤ) :
    UdpState.Registration × Receiver :=
  match request with
  | .recv =>
      let outcome := receiver.socket.registerRecv () code
      (outcome.1, { receiver with socket := outcome.2 })
  | .recvSome _ =>
      let outcome := receiver.socket.registerRecvSome () receiver.buffer.length code
      (outcome.1, { receiver with socket := outcome.2 })

/-- `await_resume`, and what the consumer gets from it. -/
def finish (receiver : Receiver) (request : RecvRequest) : Option Exn → Receiver
  | some _ => { receiver with phase := .idle }
  | none =>
      match request with
      | .recv =>
          match receiver.socket.takeRecv with
          | (.ok datagram, socket) =>
              { receiver with
                socket := socket
                phase := .idle
                receipts := receiver.receipts ++
                  [⟨none, datagram.peer, datagram.flags, datagram.payload⟩] }
          | (.error _, socket) => { receiver with socket := socket, phase := .idle }
      | .recvSome _ =>
          match receiver.socket.takeRecvSome receiver.buffer with
          | (.ok (info, buffer), socket) =>
              { receiver with
                socket := socket
                phase := .idle
                buffer := buffer
                receipts := receiver.receipts ++
                  [⟨some receiver.buffer.length, info.peer, info.flags, buffer.take info.size⟩] }
          | (.error _, socket) => { receiver with socket := socket, phase := .idle }

def wake : ConsumerPhase → ConsumerPhase
  | .waiting request => .woken request none
  | phase => phase

/-- The bytes that `recv_cb` copies overwrite the beginning of the buffer. -/
def overwrite (buffer : Bytes) : Option (Unit × Bytes) → Bytes
  | some (_, bytes) => bytes ++ buffer.drop bytes.length
  | none => buffer

/-- libuv calls `recv_cb` with a datagram. -/
def deliver (receiver : Receiver) (payload : Bytes) (address : Option Endpoint) (flags : ℕ) :
    Receiver :=
  let callback := receiver.socket.recvCb (.datagram payload address flags)
  { receiver with
    socket := callback.state
    buffer := overwrite receiver.buffer callback.copied
    phase := if callback.resumed = [] then receiver.phase else wake receiver.phase
    delivered := receiver.delivered ++ [⟨address.getD receiver.socket.peer, payload, flags⟩] }

def step (receiver : Receiver) : UdpEvent → Option Receiver
  | .deliver payload address flags =>
      if receiver.socket.recvStarted ∧ payload ≠ [] then
        some (receiver.deliver payload address flags)
      else none
  | .call request onLoop code =>
      match receiver.phase with
      | .idle =>
          if onLoop then
            match (receiver.lend request).enter request code with
            | (.suspended, entered) => some { entered with phase := .waiting request }
            | (verdict, entered) => some (entered.finish request verdict.problem)
          else some { receiver.lend request with phase := .registering request }
      | _ => none
  | .register code =>
      match receiver.phase with
      | .registering request =>
          match receiver.enter request code with
          | (.suspended, entered) => some { entered with phase := .waiting request }
          | (verdict, entered) => some { entered with phase := .woken request verdict.problem }
      | _ => none
  | .resume =>
      match receiver.phase with
      | .woken request problem => some (receiver.finish request problem)
      | _ => none

/-- The calls have returned the datagrams that arrived first, each as it is to be. -/
def InOrder (receiver : Receiver) : Prop :=
  ∃ taken later, receiver.delivered = taken ++ later ∧
    List.Forall₂ (fun receipt datagram => receipt = datagram.receipt receipt.capacity)
      receiver.receipts taken

/-- No datagram arrives while one that was handed over directly waits to be picked up. -/
def Undisturbed (receiver : Receiver) : UdpEvent → Prop
  | .deliver _ _ _ => receiver.socket.recvSomeResult.isBlank = true
  | _ => True

instance (receiver : Receiver) : DecidablePred receiver.Undisturbed
  | .deliver _ _ _ => inferInstanceAs (Decidable (_ = true))
  | .call _ _ _ | .register _ | .resume => isTrue trivial

/-- Who waits on the socket, by what the consumer does. -/
def Registered (receiver : Receiver) : Prop :=
  match receiver.phase with
  | .waiting .recv =>
      receiver.socket.recvWaiter = some () ∧ receiver.socket.recvSomeWaiter = none
  | .waiting (.recvSome _) =>
      receiver.socket.recvWaiter = none ∧ receiver.socket.recvSomeWaiter = some () ∧
        receiver.socket.recvSomeData = some () ∧
        receiver.socket.recvSomeCapacity = receiver.buffer.length ∧ receiver.socket.pending = []
  | _ => receiver.socket.recvWaiter = none ∧ receiver.socket.recvSomeWaiter = none

/-- The datagram has been handed over to a `recv_some` that is about to be resumed. -/
structure Handed (receiver : Receiver) (datagram : Datagram) : Prop where
  phase : ∃ passed, receiver.phase = .woken (.recvSome passed) none
  pending : receiver.socket.pending = []
  full : receiver.socket.recvSomeResult.isBlank = false
  result : receiver.socket.recvSomeResult =
    ⟨datagram.peer, min datagram.payload.length receiver.buffer.length,
      markTruncated datagram.flags datagram.payload.length receiver.buffer.length⟩
  copied : receiver.buffer.take (min datagram.payload.length receiver.buffer.length) =
    datagram.payload.take receiver.buffer.length

/-- `queued` is what has arrived and was not returned yet. -/
structure Holds (receiver : Receiver) (queued : List Datagram) : Prop where
  registered : receiver.Registered
  queue : (receiver.socket.recvSomeResult.isBlank = true ∧ queued = receiver.socket.pending) ∨
    ∃ datagram, receiver.Handed datagram ∧ queued = [datagram]

/-- The receipts match the first of the delivered datagrams, and `queued` are the others. -/
def Leaves (receiver : Receiver) (queued : List Datagram) : Prop :=
  ∃ taken, receiver.delivered = taken ++ queued ∧
    List.Forall₂ (fun receipt datagram => receipt = datagram.receipt receipt.capacity)
      receiver.receipts taken

def Sound (receiver : Receiver) : Prop :=
  ∃ queued, receiver.Holds queued ∧ receiver.Leaves queued

variable {receiver : Receiver}

theorem registered_of_not_waiting (notWaiting : ∀ request, receiver.phase ≠ .waiting request)
    (noRecv : receiver.socket.recvWaiter = none)
    (noDirect : receiver.socket.recvSomeWaiter = none) :
    receiver.Registered := by
  simp only [Registered]
  split
  next waiting => exact absurd waiting (notWaiting _)
  next waiting => exact absurd waiting (notWaiting _)
  · exact ⟨noRecv, noDirect⟩

theorem Registered.of_not_waiting (registered : receiver.Registered)
    (notWaiting : ∀ request, receiver.phase ≠ .waiting request) :
    receiver.socket.recvWaiter = none ∧ receiver.socket.recvSomeWaiter = none := by
  simp only [Registered] at registered
  split at registered
  next waiting => exact absurd waiting (notWaiting _)
  next waiting => exact absurd waiting (notWaiting _)
  · exact registered

theorem holds_of_isBlank (notWaiting : ∀ request, receiver.phase ≠ .waiting request)
    (noRecv : receiver.socket.recvWaiter = none) (noDirect : receiver.socket.recvSomeWaiter = none)
    (blank : receiver.socket.recvSomeResult.isBlank = true) :
    receiver.Holds receiver.socket.pending :=
  ⟨registered_of_not_waiting notWaiting noRecv noDirect, .inl ⟨blank, rfl⟩⟩

theorem Sound.inOrder (sound : receiver.Sound) : receiver.InOrder := by
  rcases sound with ⟨queued, -, taken, split, matched⟩
  exact ⟨taken, queued, split, matched⟩

variable {receiver' : Receiver} {queued : List Datagram} {datagram : Datagram}

theorem Leaves.deliver (leaves : receiver.Leaves queued)
    (delivered : receiver'.delivered = receiver.delivered ++ [datagram])
    (receipts : receiver'.receipts = receiver.receipts) :
    receiver'.Leaves (queued ++ [datagram]) := by
  rcases leaves with ⟨taken, split, matched⟩
  refine ⟨taken, ?_, ?_⟩
  · rw [delivered, split, List.append_assoc]
  · rw [receipts]
    exact matched

theorem Leaves.take (leaves : receiver.Leaves (datagram :: queued)) (capacity : Option ℕ)
    (delivered : receiver'.delivered = receiver.delivered)
    (receipts : receiver'.receipts = receiver.receipts ++ [datagram.receipt capacity]) :
    receiver'.Leaves queued := by
  rcases leaves with ⟨taken, split, matched⟩
  refine ⟨taken ++ [datagram], ?_, ?_⟩
  · rw [delivered, split, List.append_assoc]
    rfl
  · rw [receipts]
    apply List.rel_append matched
    apply List.Forall₂.cons _ List.Forall₂.nil
    cases capacity with
    | none | some room => rfl

theorem isBlank_direct {payload : Bytes} (nonempty : payload ≠ []) (peer : Endpoint)
    (flags capacity : ℕ) :
    DatagramInfo.isBlank ⟨peer, min payload.length capacity,
      markTruncated flags payload.length capacity⟩ = false := by
  have positive := List.length_pos_iff.mpr nonempty
  cases capacity with
  | zero =>
      have marked : markTruncated flags payload.length 0 ≠ 0 := by
        rw [markTruncated, if_pos positive]
        exact fun none => absurd (Nat.or_eq_zero_iff.mp none).2 (by norm_num)
      simp [DatagramInfo.isBlank, marked]
  | succ capacity =>
      have some : 0 < min payload.length (capacity + 1) := by omega
      simp only [DatagramInfo.isBlank, gt_iff_lt, some, decide_true, Bool.true_or, Bool.not_true]

theorem overwrite_direct (buffer payload : Bytes) :
    overwrite buffer (if min payload.length buffer.length > 0 then
      some ((), payload.take (min payload.length buffer.length)) else none) =
      payload.take (min payload.length buffer.length) ++
        buffer.drop (min payload.length buffer.length) := by
  split
  · simp only [overwrite, List.length_take]
    congr 2
    omega
  next none =>
    have zero : min payload.length buffer.length = 0 := by omega
    simp [overwrite, zero]

theorem take_overwritten (buffer payload : Bytes) :
    (payload.take (min payload.length buffer.length) ++
      buffer.drop (min payload.length buffer.length)).take (min payload.length buffer.length) =
        payload.take buffer.length := by
  have length : (payload.take (min payload.length buffer.length)).length =
      min payload.length buffer.length := by
    simp
  rw [List.take_left' length]
  rcases le_total payload.length buffer.length with fits | longer
  · rw [Nat.min_eq_left fits, List.take_length, List.take_of_length_le fits]
  · rw [Nat.min_eq_right longer]

section Deliver

variable {receiver : Receiver} {payload : Bytes} (address : Option Endpoint) (flags : ℕ)

variable {queued : List Datagram}

theorem Holds.deliver_direct {passed : Bytes} (nonempty : payload ≠ [])
    (waiting : receiver.phase = .waiting (.recvSome passed)) (registered : receiver.Registered)
    (queue : queued = receiver.socket.pending) :
    (receiver.deliver payload address flags).Holds
      (queued ++ [⟨address.getD receiver.socket.peer, payload, flags⟩]) := by
  simp only [Registered, waiting] at registered
  rcases registered with ⟨_, direct, owner, capacity, empty⟩
  have buffer : (receiver.deliver payload address flags).buffer =
      payload.take (min payload.length receiver.buffer.length) ++
        receiver.buffer.drop (min payload.length receiver.buffer.length) := by
    rw [← overwrite_direct]
    simp only [Receiver.deliver, UdpState.recvCb, direct, owner, capacity, Option.map_some]
  have size : (receiver.deliver payload address flags).buffer.length = receiver.buffer.length := by
    rw [buffer]
    simp only [List.length_append, List.length_take, List.length_drop]
    omega
  have phase : (receiver.deliver payload address flags).phase = .woken (.recvSome passed) none := by
    simp [Receiver.deliver, UdpState.recvCb, direct, waiting, wake]
  have result : (receiver.deliver payload address flags).socket.recvSomeResult =
      ⟨address.getD receiver.socket.peer, min payload.length receiver.buffer.length,
        markTruncated flags payload.length receiver.buffer.length⟩ := by
    simp only [Receiver.deliver, UdpState.recvCb, direct, capacity]
  refine ⟨?_, .inr ⟨⟨address.getD receiver.socket.peer, payload, flags⟩, ?_, ?_⟩⟩
  · simp only [Registered, phase]
    simp [Receiver.deliver, UdpState.recvCb, direct, UdpState.forgetDirect]
  · refine ⟨⟨passed, phase⟩, ?_, ?_, ?_, ?_⟩
    · simpa [Receiver.deliver, UdpState.recvCb, direct, UdpState.forgetDirect] using empty
    · rw [result]
      exact isBlank_direct nonempty _ _ _
    · rw [result, size]
    · rw [size, buffer]
      exact take_overwritten receiver.buffer payload
  · rw [queue, empty]
    rfl

theorem Holds.deliver_queued (blank : receiver.socket.recvSomeResult.isBlank = true)
    (noDirect : receiver.socket.recvSomeWaiter = none) (registered : receiver.Registered)
    (queue : queued = receiver.socket.pending) :
    (receiver.deliver payload address flags).Holds
      (queued ++ [⟨address.getD receiver.socket.peer, payload, flags⟩]) := by
  have socket : (receiver.deliver payload address flags).socket = { receiver.socket with
        recvWaiter := none
        pending := receiver.socket.pending ++
          [⟨address.getD receiver.socket.peer, payload, flags⟩] } := by
    simp only [Receiver.deliver, UdpState.recvCb, noDirect]
  have phase : (receiver.deliver payload address flags).phase =
      if receiver.socket.recvWaiter.toList = [] then receiver.phase else wake receiver.phase := by
    simp only [Receiver.deliver, UdpState.recvCb, noDirect]
  have notWaiting : ∀ request,
      (receiver.deliver payload address flags).phase ≠ .waiting request := by
    intro _
    rw [phase]
    cases present : receiver.phase with
    | idle | registering other | woken other problem => simp [wake]
    | waiting other =>
        simp only [Registered, present] at registered
        cases other with
        | recv => simp [registered.1, wake]
        | recvSome _ => simp [noDirect] at registered
  refine ⟨?_, .inl ⟨?_, ?_⟩⟩
  · apply registered_of_not_waiting notWaiting
    · rw [socket]
    · rw [socket]
      exact noDirect
  · rw [socket]
    exact blank
  · rw [socket, queue]

theorem Sound.deliver (sound : receiver.Sound) (nonempty : payload ≠ [])
    (blank : receiver.socket.recvSomeResult.isBlank = true) :
    (receiver.deliver payload address flags).Sound := by
  rcases sound with ⟨_, ⟨registered, ⟨-, queue⟩ | ⟨_, handed, -⟩⟩, leaves⟩
  · refine ⟨_, ?_, leaves.deliver rfl rfl⟩
    cases direct : receiver.socket.recvSomeWaiter with
    | none => exact Holds.deliver_queued address flags blank direct registered queue
    | some _ =>
        have waiting : ∃ passed, receiver.phase = .waiting (.recvSome passed) := by
          simp only [Registered, direct] at registered
          split at registered
          · cases registered.2
          next passed waiting => exact ⟨passed, waiting⟩
          · cases registered.2
        rcases waiting with ⟨_, waiting⟩
        exact Holds.deliver_direct address flags nonempty waiting registered queue
  · rw [handed.full] at blank
    cases blank

end Deliver

/-- Two states of affairs with the same datagrams. -/
structure SameQueue (receiver receiver' : Receiver) : Prop where
  pending : receiver'.socket.pending = receiver.socket.pending
  result : receiver'.socket.recvSomeResult = receiver.socket.recvSomeResult
  delivered : receiver'.delivered = receiver.delivered
  receipts : receiver'.receipts = receiver.receipts

variable {receiver : Receiver}

variable {receiver' : Receiver} {request : RecvRequest}

theorem Sound.of_sameQueue (sound : receiver.Sound)
    (notWoken : ∀ request problem, receiver.phase ≠ .woken request problem)
    (registered : receiver'.Registered) (same : SameQueue receiver receiver') :
    receiver'.Sound := by
  rcases sound with ⟨queued, ⟨-, ⟨blank, queue⟩ | ⟨_, handed, -⟩⟩, taken, split, matched⟩
  · refine ⟨queued, ⟨registered, .inl ⟨?_, ?_⟩⟩, taken, ?_, ?_⟩
    · rw [same.result]
      exact blank
    · rw [same.pending]
      exact queue
    · rw [same.delivered]
      exact split
    · rw [same.receipts]
      exact matched
  · rcases handed.phase with ⟨_, woken⟩
    exact absurd woken (notWoken _ _)

/-- How a registration can end. -/
inductive Entered (receiver : Receiver) (request : RecvRequest) :
    UdpState.Registration × Receiver → Prop
  | suspended {entered : Receiver} (same : SameQueue receiver entered)
      (registered : Registered { entered with phase := .waiting request }) :
      Entered receiver request (.suspended, entered)
  | refused {verdict : UdpState.Registration} {entered : Receiver} (other : verdict ≠ .suspended)
      (same : SameQueue receiver entered) (noRecv : entered.socket.recvWaiter = none)
      (noDirect : entered.socket.recvSomeWaiter = none) :
      Entered receiver request (verdict, entered)

theorem startReceivingOnLoop_eq {handle : Type} (state : UdpState handle) (code : ℤ) :
    ∃ rc started, state.startReceivingOnLoop code =
      (rc, { state with recvStarted := started }) := by
  simp only [UdpState.startReceivingOnLoop]
  split
  · exact ⟨0, state.recvStarted, rfl⟩
  · split
    · exact ⟨0, true, rfl⟩
    · exact ⟨code, state.recvStarted, rfl⟩

theorem enter_spec (request : RecvRequest) (code : ℤ) (noRecv : receiver.socket.recvWaiter = none)
    (noDirect : receiver.socket.recvSomeWaiter = none) :
    Entered receiver request (receiver.enter request code) := by
  cases request with
  | recv =>
      simp only [enter, UdpState.registerRecv, UdpState.register]
      split
      · exact .refused (by simp) ⟨rfl, rfl, rfl, rfl⟩ noRecv noDirect
      · split
        · exact .refused (by simp) ⟨rfl, rfl, rfl, rfl⟩ noRecv noDirect
        · rcases startReceivingOnLoop_eq { receiver.socket with recvWaiter := some () } code with
            ⟨_, _, outcome⟩
          simp only [outcome]
          split
          · exact .refused (by simp) ⟨rfl, rfl, rfl, rfl⟩ rfl noDirect
          · exact .suspended ⟨rfl, rfl, rfl, rfl⟩ ⟨rfl, noDirect⟩
  | recvSome _ =>
      simp only [enter, UdpState.registerRecvSome, UdpState.register]
      split
      · exact .refused (by simp) ⟨rfl, rfl, rfl, rfl⟩ noRecv noDirect
      next empty =>
        split
        · exact .refused (by simp) ⟨rfl, rfl, rfl, rfl⟩ noRecv noDirect
        · rcases startReceivingOnLoop_eq { receiver.socket with
              recvSomeWaiter := some ()
              recvSomeData := some ()
              recvSomeCapacity := receiver.buffer.length } code with ⟨_, _, outcome⟩
          simp only [outcome]
          split
          · exact .refused (by simp) ⟨rfl, rfl, rfl, rfl⟩ noRecv rfl
          · simp only [ne_eq, not_or, not_not] at empty
            exact .suspended ⟨rfl, rfl, rfl, rfl⟩ ⟨noRecv, rfl, rfl, rfl, empty.1⟩

theorem Sound.finish {problem : Option Exn} (sound : receiver.Sound)
    (woken : receiver.phase = .woken request problem) :
    (receiver.finish request problem).Sound := by
  have waiters := (sound.choose_spec.1.registered).of_not_waiting (by simp [woken])
  rcases sound with ⟨_, ⟨_, ⟨blank, rfl⟩ | ⟨datagram, handed, rfl⟩⟩, leaves⟩
  · cases problem with
    | some _ =>
        refine ⟨_, holds_of_isBlank ?_ waiters.1 waiters.2 blank, leaves⟩
        simp [Receiver.finish]
    | none =>
        cases request with
        | recv =>
            simp only [Receiver.finish, UdpState.takeRecv]
            cases pending : receiver.socket.pending with
            | nil => exact ⟨_, holds_of_isBlank (by simp) waiters.1 waiters.2 blank, leaves⟩
            | cons datagram _ =>
                rw [pending] at leaves
                refine ⟨_, holds_of_isBlank (by simp) waiters.1 waiters.2 blank, ?_⟩
                exact leaves.take none rfl rfl
        | recvSome _ =>
            simp only [Receiver.finish, UdpState.takeRecvSome]
            cases pending : receiver.socket.pending with
            | nil =>
                simp only [blank, if_true]
                exact ⟨_, holds_of_isBlank (by simp) waiters.1 waiters.2 blank, leaves⟩
            | cons datagram _ =>
                rw [pending] at leaves
                refine ⟨_, holds_of_isBlank (by simp) waiters.1 waiters.2 blank, ?_⟩
                refine leaves.take (some receiver.buffer.length) rfl ?_
                have held := take_overwritten receiver.buffer datagram.payload
                rw [Nat.min_comm] at held
                simp only [Datagram.receipt, held]
  -- Only a `recv_some` finds a datagram handed over directly.
  · rcases handed.phase with ⟨_, phase⟩
    cases woken.symm.trans phase
    simp only [Receiver.finish, UdpState.takeRecvSome, handed.pending, handed.full,
      Bool.false_eq_true, if_false]
    refine ⟨[], ⟨registered_of_not_waiting (by simp) waiters.1 waiters.2, .inl ⟨rfl, rfl⟩⟩, ?_⟩
    refine leaves.take (some receiver.buffer.length) rfl ?_
    simp only [handed.result, handed.copied, Datagram.receipt]

theorem finish_phase (receiver : Receiver) (request : RecvRequest) (problem : Option Exn)
    (phase : ConsumerPhase) :
    Receiver.finish { receiver with phase := phase } request problem =
      receiver.finish request problem := by
  cases problem with
  | some _ => rfl
  | none =>
      cases request with
      | recv | recvSome passed => rfl

theorem Sound.enter {entered : Receiver} {code : ℤ} {verdict : UdpState.Registration}
    (sound : receiver.Sound) (notWaiting : ∀ request, receiver.phase ≠ .waiting request)
    (notWoken : ∀ request problem, receiver.phase ≠ .woken request problem)
    (enters : receiver.enter request code = (verdict, entered)) :
    (verdict = .suspended → Receiver.Sound { entered with phase := .waiting request }) ∧
      (verdict ≠ .suspended →
        Receiver.Sound { entered with phase := .woken request verdict.problem }) := by
  have waiters := (sound.choose_spec.1.registered).of_not_waiting notWaiting
  have spec := enter_spec request code waiters.1 waiters.2
  rw [enters] at spec
  cases spec with
  | suspended same registered =>
      refine ⟨fun _ => ?_, fun other => absurd rfl other⟩
      exact sound.of_sameQueue notWoken registered
        ⟨same.pending, same.result, same.delivered, same.receipts⟩
  | refused other same noRecv noDirect =>
      refine ⟨fun suspended => absurd suspended other, fun _ => ?_⟩
      exact sound.of_sameQueue notWoken (registered_of_not_waiting (by simp) noRecv noDirect)
        ⟨same.pending, same.result, same.delivered, same.receipts⟩

/-- An undisturbed step hands out the datagrams in the order of their delivery. -/
theorem Sound.step {event : UdpEvent} (sound : receiver.Sound)
    (undisturbed : receiver.Undisturbed event) (taken : receiver.step event = some receiver') :
    receiver'.Sound := by
  cases event with
  | deliver _ address flags =>
      simp only [Receiver.step] at taken
      split at taken
      next possible =>
        cases taken
        exact sound.deliver address flags possible.2 undisturbed
      · cases taken
  | call request _ _ =>
      simp only [Receiver.step] at taken
      split at taken
      next idle =>
        have phase : (receiver.lend request).phase = .idle := by
          cases request with
          | recv | recvSome buffer => exact idle
        have same : SameQueue receiver (receiver.lend request) := by
          cases request with
          | recv | recvSome buffer => exact ⟨rfl, rfl, rfl, rfl⟩
        have notWaiting : ∀ other, (receiver.lend request).phase ≠ .waiting other := by
          simp [phase]
        have notWoken : ∀ other problem, (receiver.lend request).phase ≠ .woken other problem := by
          simp [phase]
        have waiters := (sound.choose_spec.1.registered).of_not_waiting (by simp [idle])
        have lent : (receiver.lend request).socket = receiver.socket := by
          cases request with
          | recv | recvSome buffer => rfl
        rw [← lent] at waiters
        have ready : (receiver.lend request).Sound := sound.of_sameQueue (by simp [idle])
          (registered_of_not_waiting notWaiting waiters.1 waiters.2) same
        split at taken
        · split at taken
          next entered enters =>
            cases taken
            exact (ready.enter notWaiting notWoken enters).1 rfl
          next verdict entered other enters =>
            cases taken
            rw [← finish_phase _ _ _ (.woken request verdict.problem)]
            apply Sound.finish _ rfl
            apply (ready.enter notWaiting notWoken enters).2
            rintro rfl
            exact other rfl
        · cases taken
          exact ready.of_sameQueue notWoken
            (registered_of_not_waiting (by simp) waiters.1 waiters.2) ⟨rfl, rfl, rfl, rfl⟩
      · cases taken
  | register _ =>
      simp only [Receiver.step] at taken
      split at taken
      next request registering =>
        have notWaiting : ∀ request, receiver.phase ≠ .waiting request := by
          simp [registering]
        have notWoken : ∀ request problem, receiver.phase ≠ .woken request problem := by
          simp [registering]
        split at taken
        next entered enters =>
          cases taken
          exact (sound.enter notWaiting notWoken enters).1 rfl
        next verdict entered other enters =>
          cases taken
          apply (sound.enter notWaiting notWoken enters).2
          rintro rfl
          exact other rfl
      · cases taken
  | resume =>
      simp only [Receiver.step] at taken
      split at taken
      next request problem woken =>
        cases taken
        exact sound.finish woken
      · cases taken

end Receiver

/-- As long as no datagram arrives between the direct hand-over of another and the
resumption of the caller, the consumer gets the datagrams in order. -/
theorem receiver_inOrder (peer : Endpoint) (receiver : Receiver)
    (reached : Reached Receiver.step Receiver.Undisturbed { socket := { peer := peer } } receiver) :
    receiver.InOrder := by
  apply Receiver.Sound.inOrder
  apply reached.invariant
  · exact ⟨[], ⟨⟨rfl, rfl⟩, .inl ⟨rfl, rfl⟩⟩, [], rfl, List.Forall₂.nil⟩
  · intro _ _ _ sound undisturbed taken
    exact sound.step undisturbed taken

/-- Two datagrams for a `recv_some` with room for one byte, the second of which arrives
after the caller has been resumed, and one for a `recv` off the loop thread. -/
def patientRun : List UdpEvent :=
  [.call (.recvSome [0]) true 0, .deliver (ascii "AB") none 0, .resume,
    .deliver (ascii "C") none 0, .call (.recvSome [0]) true 0, .call .recv false 0, .register 0,
    .deliver (ascii "D") none 0, .resume]

theorem receiver_inOrder_patient :
    ∃ receiver, follow Receiver.step Receiver.Undisturbed {} patientRun = some receiver ∧
      receiver.receipts.map Receipt.payload = [ascii "A", ascii "C", ascii "D"] ∧
      receiver.InOrder := by
  have followed : (follow Receiver.step Receiver.Undisturbed {} patientRun).map
      (fun receiver => receiver.receipts.map Receipt.payload) =
        some [ascii "A", ascii "C", ascii "D"] := by
    decide +kernel
  rcases exists_of_follow followed with ⟨receiver, ran, reached, payloads⟩
  exact ⟨receiver, ran, payloads, receiver_inOrder {} receiver reached⟩

/-- Two datagrams arrive before the caller of `recv_some` is resumed. -/
def overtakingRun : List UdpEvent :=
  [.call (.recvSome [0]) true 0, .deliver (ascii "A") none 0, .deliver (ascii "B") none 0, .resume]

/-- The call returns the second. -/
theorem handed_datagram_overtaken :
    ∃ receiver, follow Receiver.step (fun _ _ => True) {} overtakingRun = some receiver ∧
      receiver.delivered.map Datagram.payload = [ascii "A", ascii "B"] ∧
      receiver.receipts.map Receipt.payload = [ascii "B"] ∧ ¬receiver.InOrder := by
  have followed : (follow Receiver.step (fun _ _ => True) {} overtakingRun).map
      (fun receiver => (receiver.delivered, receiver.receipts)) =
        some ([⟨{}, ascii "A", 0⟩, ⟨{}, ascii "B", 0⟩], [⟨some 1, {}, 0, ascii "B"⟩]) := by
    decide +kernel
  rcases Option.map_eq_some_iff.mp followed with ⟨receiver, ran, outcome⟩
  rcases Prod.mk.inj outcome with ⟨delivered, receipts⟩
  refine ⟨receiver, ran, by rw [delivered]; rfl, by rw [receipts]; rfl, ?_⟩
  rintro ⟨_, _, split, matched⟩
  rw [receipts] at matched
  rw [delivered] at split
  cases matched with
  | @cons _ first _ _ same _ =>
      have earliest : (⟨{}, ascii "A", 0⟩ : Datagram) = first := (List.cons.inj split).1
      rw [← earliest] at same
      exact absurd same (by decide)

end Corouv.Net
