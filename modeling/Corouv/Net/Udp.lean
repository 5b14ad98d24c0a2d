import Corouv.Base

/-!
# Receiving on a `UdpSocket`

The state behind a socket, the callback in which libuv delivers a datagram, and the
two awaiters.  A datagram reaches a caller by way of the queue of pending datagrams or,
if a `recv_some` is waiting, directly: it is copied to the buffer of the caller and
described in `recv_some_result`.  Either way the caller is resumed by the executor later.

A coroutine handle is a value of an arbitrary type.
-/

namespace Corouv.Net

structure Endpoint where
  host : Bytes := []
  port : ℕ := 0
  deriving DecidableEq, Repr

structure Datagram where
  peer : Endpoint
  payload : Bytes
  flags : ℕ := 0
  deriving DecidableEq, Repr

structure DatagramInfo where
  peer : Endpoint := {}
  size : ℕ := 0
  flags : ℕ := 0
  deriving DecidableEq, Repr

/-- The flags with `UV_UDP_PARTIAL`, if the payload does not fit. -/
def markTruncated (flags length capacity : ℕ) : ℕ :=
  if length > capacity then flags ||| 2 else flags

structure UdpState (handle : Type) where
  pending : List Datagram := []
  recvWaiter : Option handle := none
  recvSomeWaiter : Option handle := none
  /-- The caller whose buffer `recv_some_data` points to. -/
  recvSomeData : Option handle := none
  recvSomeCapacity : ℕ := 0
  recvSomeResult : DatagramInfo := {}
  recvError : ℤ := 0
  recvStarted : Bool := false
  isOpen : Bool := true
  peer : Endpoint := {}

namespace UdpState

variable {handle : Type}

/-- The arguments of `recv_cb`, by the sign of `nread`. -/
inductive Received where
  | datagram (payload : Bytes) (address : Option Endpoint) (flags : ℕ)
  | nothing
  | failure (code : ℤ)

/-- What `recv_cb` does besides changing the state: the bytes it copies to the buffer of a
caller, and the coroutines it passes to `resume_handle`. -/
structure Callback (handle : Type) where
  state : UdpState handle
  copied : Option (handle × Bytes) := none
  resumed : List handle := []

/-- No `recv_some` is waiting any more. -/
def forgetDirect (state : UdpState handle) : UdpState handle :=
  { state with recvSomeWaiter := none, recvSomeData := none, recvSomeCapacity := 0 }

def recvCb (state : UdpState handle) : Received → Callback handle
  | .datagram payload address flags =>
      let peer := address.getD state.peer
      match state.recvSomeWaiter with
      | some direct =>
          let copy := min payload.length state.recvSomeCapacity
          { state :=
              { state.forgetDirect with
                recvWaiter := none
                recvSomeResult :=
                  ⟨peer, copy, markTruncated flags payload.length state.recvSomeCapacity⟩ }
            copied :=
              if copy > 0 then state.recvSomeData.map fun owner => (owner, payload.take copy)
              else none
            resumed := state.recvWaiter.toList ++ [direct] }
      | none =>
          { state :=
              { state with
                recvWaiter := none, pending := state.pending ++ [⟨peer, payload, flags⟩] }
            resumed := state.recvWaiter.toList }
  | .nothing => { state := state }
  | .failure code =>
      { state :=
          { state.forgetDirect with recvWaiter := none, recvError := code, recvStarted := false }
        resumed := state.recvWaiter.toList ++ state.recvSomeWaiter.toList }

/-- `code` is what `uv_udp_recv_start` returns, should it be called. -/
def startReceivingOnLoop (state : UdpState handle) (code : ℤ) : ℤ × UdpState handle :=
  if !state.isOpen || state.recvStarted || state.recvError ≠ 0 then (0, state)
  else if code = 0 then (0, { state with recvStarted := true })
  else (code, state)

/-- How `register_waiter` ends: with the coroutine suspended, or with `await_resume` to be
called next. -/
inductive Registration where
  | suspended
  | ready
  | concurrent
  | failed (code : ℤ)

def register (state : UdpState handle) (busy : Bool)
    (enter leave : UdpState handle → UdpState handle) (code : ℤ) :
    Registration × UdpState handle :=
  if state.pending ≠ [] ∨ !state.isOpen ∨ state.recvError ≠ 0 then (.ready, state)
  else if busy then (.concurrent, state)
  else
    match startReceivingOnLoop (enter state) code with
    | (rc, started) =>
        if rc ≠ 0 then (.failed rc, { leave started with recvError := rc })
        else (.suspended, started)

/-- `UdpRecvAwaiter` looks out for another `recv` only. -/
def registerRecv (state : UdpState handle) (caller : handle) (code : ℤ) :
    Registration × UdpState handle :=
  state.register state.recvWaiter.isSome (fun state => { state with recvWaiter := some caller })
    (fun state => { state with recvWaiter := none }) code

def registerRecvSome (state : UdpState handle) (caller : handle) (capacity : ℕ) (code : ℤ) :
    Registration × UdpState handle :=
  state.register (state.recvWaiter.isSome || state.recvSomeWaiter.isSome)
    (fun state =>
      { state with
        recvSomeWaiter := some caller
        recvSomeData := some caller
        recvSomeCapacity := capacity })
    forgetDirect code

/-- `UV_ECANCELED`. -/
def canceled : ℤ := -125

/-- Neither a datagram nor a description of one is there. -/
def noDatagram (state : UdpState handle) : Exn :=
  if state.recvError ≠ 0 ∧ state.recvError ≠ canceled then .runtime "uv_udp_recv"
  else .logic "corouv::net::UdpSocket is closed"

/-- The exception that the outcome of the registration calls for. -/
def Registration.problem : Registration → Option Exn
  | .suspended | .ready => none
  | .concurrent => some (.logic "corouv::net::UdpSocket does not support concurrent recv calls")
  | .failed _ => some (.runtime "uv_udp_recv_start")

def closeOnLoop (state : UdpState handle) : UdpState handle × List handle :=
  if state.isOpen then
    ({ state.forgetDirect with
        isOpen := false
        recvStarted := false
        recvError :=
          if state.pending = [] ∧ state.recvError = 0 then canceled else state.recvError
        recvWaiter := none },
      state.recvWaiter.toList ++ state.recvSomeWaiter.toList)
  else (state, [])

def takeRecv (state : UdpState handle) : Except Exn Datagram × UdpState handle :=
  match state.pending with
  | datagram :: later => (.ok datagram, { state with pending := later })
  | [] => (.error state.noDatagram, state)

end UdpState

/-- Nothing has been described. -/
def DatagramInfo.isBlank (info : DatagramInfo) : Bool :=
  !(info.size > 0 || info.flags ≠ 0 || info.peer.host ≠ [] || info.peer.port ≠ 0)

/-- The result of `recv_some` comes with the contents of the caller's buffer. -/
def UdpState.takeRecvSome {handle : Type} (state : UdpState handle) (buffer : Bytes) :
    Except Exn (DatagramInfo × Bytes) × UdpState handle :=
  match state.pending with
  | datagram :: later =>
      let size := min buffer.length datagram.payload.length
      (.ok (⟨datagram.peer, size,
          markTruncated datagram.flags datagram.payload.length buffer.length⟩,
        datagram.payload.take size ++ buffer.drop size),
        { state with pending := later })
  | [] =>
      if state.recvSomeResult.isBlank then (.error state.noDatagram, state)
      else (.ok (state.recvSomeResult, buffer), { state with recvSomeResult := {} })

end Corouv.Net
