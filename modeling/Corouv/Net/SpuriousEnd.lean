import Corouv.Net.ByteConservation
import Corouv.Net.Accepting
import Corouv.Net.UdpSocket

/-!
# The end of a stream that has not ended

Waking a call frees its slot at once, while the call is resumed later.  A call that is made in
between passes the test for concurrent calls and can take what the other one was woken for,
which is then told that the stream has ended or the socket is closed.  Calls that keep apart
are told so only if it is true.
-/

namespace Corouv.Net

open Library
open UdpState (canceled)

namespace StreamState

/-- The flags say what has happened. -/
structure Honest (state : StreamState) : Prop where
  closing : state.closing = true → state.eof = true ∨ state.readError ≠ 0
  error : state.readError ≠ endOfFile
  eof : state.eof = true → ReadReport.eof ∈ state.delivered

def protocol : Protocol StreamState ReadRequest (Except Exn Bytes) where
  idle state := state.readWaiter = none ∧ state.Honest
  holds state caller _ := state.readWaiter = some caller ∧ state.isReady = false ∧ state.Honest
  ready state _ := state.isReady = true
  excused state request outcome :=
    outcome = .ok [] → 0 < request.size → ReadReport.eof ∈ state.delivered
  notices _ _ := True
  rejection := concurrentRead

variable {state state' : StreamState} {request : ReadRequest}

theorem registerWaiter_frame {entry : Entry (Except Exn Bytes)} {caller : ℕ}
    (registers : state.registerWaiter request caller = (entry, state')) :
    state'.delivered = state.delivered ∧ state'.isOpen = state.isOpen := by
  rcases registerWaiter_cases registers with
    ⟨-, -, rfl⟩ | ⟨-, -, -, rfl⟩ | ⟨-, -, ⟨-, -, rfl⟩ | ⟨-, rfl⟩⟩ <;> exact ⟨rfl, rfl⟩

theorem Honest.react {woken : List ℕ} (honest : state.Honest)
    (reaction : state.Reaction state' woken) : state'.Honest := by
  have kept : ∀ {report : ReadReport}, state.eof = true →
      ReadReport.eof ∈ state.delivered ++ [report] :=
    fun ended => List.mem_append_left _ (honest.eof ended)
  cases reaction with
  | data _ | nothing => exact ⟨honest.closing, honest.error, kept⟩
  | eof => exact ⟨fun _ => .inl rfl, honest.error, fun _ => by simp⟩
  | failure nonzero different => exact ⟨fun _ => .inr nonzero, different, kept⟩
  | closes _ told known =>
      refine ⟨fun _ => told, ?_, honest.eof⟩
      rcases known with rfl | rfl
      · show canceled ≠ endOfFile
        decide
      · exact honest.error
  | closed _ => exact honest

theorem awaitResume_idle (idle : protocol.idle state) (ready : state.isReady = true) :
    protocol.idle (state.awaitResume request).2 ∧
      protocol.excused (state.awaitResume request).2 request (state.awaitResume request).1 := by
  rcases idle with ⟨free, honest⟩
  unfold awaitResume
  split
  next some =>
    refine ⟨⟨free, honest.closing, honest.error, honest.eof⟩, ?_⟩
    intro nothing _
    have taken := List.take_eq_nil_iff.mp (Except.ok.inj nothing)
    rcases taken with empty | none
    · omega
    · exact absurd none some
  next empty =>
    split
    · refine ⟨⟨free, honest⟩, ?_⟩
      intro failed
      cases failed
    next unfailed =>
      refine ⟨⟨free, honest⟩, fun _ _ => honest.eof ?_⟩
      have fine : state.readError = 0 := by
        by_contra failed
        exact unfailed ⟨failed, honest.error⟩
      have blank : state.readBuffer = [] := not_not.mp empty
      simp only [isReady, isOpen, blank, fine, ne_eq, not_true_eq_false, decide_false,
        Bool.or_false, Bool.not_not, Bool.or_eq_true] at ready
      rcases ready with closing | ended
      · exact (honest.closing closing).resolve_right (not_not.mpr fine)
      · exact ended

theorem admits {entry : Entry (Except Exn Bytes)} {index : ℕ} (idle : protocol.idle state)
    (registers : state.registerWaiter request index = (entry, state')) :
    protocol.Admits request index state' entry := by
  rcases idle with ⟨free, honest⟩
  rcases registerWaiter_cases registers with
    ⟨ready, rfl, rfl⟩ | ⟨-, waiting, -⟩ | ⟨notReady, -, ⟨rfl, fails, rfl⟩ | ⟨rfl, rfl⟩⟩
  · exact ⟨⟨free, honest⟩, ready⟩
  · exact absurd free waiting
  · refine ⟨⟨rfl, fun _ => .inr fails, request.sensible, honest.eof⟩, ?_, ?_⟩
    · intro ended
      cases ended
    · intro same
      cases same
  · exact ⟨rfl, notReady, ⟨honest.closing, honest.error, honest.eof⟩⟩

theorem lawful : tcpStream.Lawful protocol where
  immediate := by
    intro state request outcome known
    simp only [tcpStream] at known
    split at known
    next empty =>
      intro _ sized
      omega
    · cases known
  waits := admits
  passes := admits
  refused := admits
  rejected := by
    rintro state request request' index index' ⟨waiting, notReady, _⟩ _
    simp only [tcpStream, registerWaiter, notReady, waiting, Option.isSome_some, Bool.false_eq_true,
      if_false, if_true]
    rfl
  overlooked := by
    intro state request _ index _ _ unnoticed
    exact absurd trivial unnoticed
  take := awaitResume_idle
  takes := awaitResume_ne _ _
  changes := by
    rintro state state' woken ⟨free, honest⟩ change
    have honestAfter := honest.react (reaction change)
    rcases (reaction change).waiter with ⟨none, waiter, ready⟩ | ⟨woken, none, ready⟩
    · exact ⟨⟨waiter.trans free, honestAfter⟩, none, ready.trans⟩
    · rw [free] at woken
      exact ⟨⟨none, honestAfter⟩, woken, fun _ => ready⟩
  wakes := by
    rintro state state' woken index request ⟨waiting, notReady, honest⟩ change
    have honestAfter := honest.react (reaction change)
    rcases (reaction change).waiter with ⟨none, waiter, ready⟩ | ⟨woken, none, ready⟩
    · exact .inl ⟨⟨waiter.trans waiting, ready.trans notReady, honestAfter⟩, none⟩
    · rw [waiting] at woken
      exact .inr ⟨⟨none, honestAfter⟩, ready, woken⟩
  rejection := by
    intro state request ended
    cases ended
  register_excused := by
    intro state _ request _ _ _ _ registers excused ended sized
    have same := (registerWaiter_frame registers).1
    exact same ▸ excused ended sized
  take_excused := by
    intro state request _ _ excused ended sized
    have same := awaitResume_delivered state request
    exact same ▸ excused ended sized
  change_excused := by
    intro _ _ _ _ _ change excused ended sized
    exact (reaction change).delivered (excused ended sized)
  register_isOpen := by
    intro _ _ _ _ _ registers
    exact (registerWaiter_frame registers).2
  take_isOpen := by
    intro _ _
    simp only [tcpStream, awaitResume]
    split
    · rfl
    · split <;> rfl
  callback_isOpen := by
    intro _ _ report _ called
    simp only [tcpStream] at called
    split at called
    · have reported := Option.some.inj called
      cases report <;> cases reported <;> rfl
    · cases called

theorem idle_opened : protocol.idle {} := by
  refine ⟨rfl, ?_, by decide, ?_⟩
  · intro closing
    cases closing
  · intro ended
    cases ended

end StreamState

namespace ListenerState

/-- The code of a cancellation says that the listener is being closed. -/
def Honest (state : ListenerState) : Prop :=
  state.acceptError = canceled → state.isOpen = false

def protocol : Protocol ListenerState Unit (Except Exn Child) where
  idle state := state.acceptWaiter = none ∧ state.Honest
  holds state caller _ := state.acceptWaiter = some caller ∧ state.isReady = false ∧ state.Honest
  ready state _ := state.isReady = true
  excused state _ outcome := outcome = closedListener → state.isOpen = false
  notices _ _ := True
  rejection := concurrentAccept

variable {state state' : ListenerState}

theorem awaitResume_idle (idle : protocol.idle state) (ready : state.isReady = true) :
    protocol.idle state.awaitResume.2 ∧
      protocol.excused state.awaitResume.2 () state.awaitResume.1 := by
  rcases idle with ⟨free, honest⟩
  rcases state with ⟨pending, _, acceptError, _, _⟩
  cases pending with
  | cons _ _ =>
      refine ⟨⟨free, honest⟩, ?_⟩
      intro closed
      cases closed
  | nil =>
      simp only [awaitResume]
      split
      · refine ⟨⟨free, honest⟩, ?_⟩
        intro closed
        cases closed
      next unfailed =>
        refine ⟨⟨free, honest⟩, fun _ => ?_⟩
        by_cases failed : acceptError = 0
        · simpa [isReady, failed] using ready
        · exact honest (not_not.mp fun different => unfailed ⟨failed, different⟩)

variable {woken : List ℕ}

theorem Honest.change (honest : state.Honest) (change : tcpListener.Change state state' woken) :
    state'.Honest := by
  rcases change_cases change with
    ⟨rfl, -⟩ | ⟨rfl, -⟩ | ⟨-, -, ⟨_, -, different, rfl⟩ | rfl | rfl⟩
  · exact honest
  · exact honest
  · intro same
    exact absurd same different
  · exact honest
  · intro _
    rfl

theorem change_waiter (change : tcpListener.Change state state' woken) :
    (woken = [] ∧ state'.acceptWaiter = state.acceptWaiter ∧ state'.isReady = state.isReady) ∨
      (woken = state.acceptWaiter.toList ∧ state'.acceptWaiter = none ∧ state'.isReady = true) := by
  rcases change_cases change with
    ⟨rfl, none, -⟩ | ⟨rfl, none, -⟩ | ⟨woken, -, ⟨_, nonzero, -, rfl⟩ | rfl | rfl⟩
  · exact .inl ⟨none, rfl, rfl⟩
  · exact .inl ⟨none, rfl, rfl⟩
  · exact .inr ⟨woken, rfl, by simp [isReady, nonzero]⟩
  · exact .inr ⟨woken, rfl, by simp [isReady]⟩
  · exact .inr ⟨woken, rfl, by simp [isReady, isOpen]⟩

theorem change_isOpen (change : tcpListener.Change state state' woken)
    (closed : state.isOpen = false) : state'.isOpen = false := by
  rcases change_cases change with ⟨rfl, -⟩ | ⟨rfl, -⟩ | ⟨-, isOpen, -⟩
  · exact closed
  · exact closed
  · simp [ListenerState.isOpen, isOpen] at closed

theorem admits {entry : Entry (Except Exn Child)} {index : ℕ} (idle : protocol.idle state)
    (registers : state.registerWaiter index = (entry, state')) :
    protocol.Admits () index state' entry := by
  rcases registerWaiter_cases registers with
    ⟨ready, rfl, rfl⟩ | ⟨-, waiting, -⟩ | ⟨notReady, -, rfl, rfl⟩
  · exact ⟨idle, ready⟩
  · exact absurd idle.1 waiting
  · exact ⟨rfl, notReady, idle.2⟩

theorem lawful : tcpListener.Lawful protocol where
  immediate := by
    intro state request outcome known
    cases known
  waits := admits
  passes := admits
  refused := admits
  rejected := by
    rintro state request request' index index' ⟨waiting, notReady, _⟩ _
    simp only [tcpListener, registerWaiter, notReady, waiting, Option.isSome_some,
      Bool.false_eq_true, if_false, if_true]
    rfl
  overlooked := by
    intro state request _ index _ _ unnoticed
    exact absurd trivial unnoticed
  take := awaitResume_idle
  takes := by
    intro state request
    simp only [tcpListener, awaitResume]
    split
    · intro same
      cases same
    · split
      · intro same
        cases same
      · simp [closedListener, protocol, concurrentAccept]
  changes := by
    rintro state state' woken ⟨free, honest⟩ change
    have honestAfter := honest.change change
    rcases change_waiter change with ⟨none, waiter, ready⟩ | ⟨woken, none, ready⟩
    · exact ⟨⟨waiter.trans free, honestAfter⟩, none, ready.trans⟩
    · rw [free] at woken
      exact ⟨⟨none, honestAfter⟩, woken, fun _ => ready⟩
  wakes := by
    rintro state state' woken index request ⟨waiting, notReady, honest⟩ change
    have honestAfter := honest.change change
    rcases change_waiter change with ⟨none, waiter, ready⟩ | ⟨woken, none, ready⟩
    · exact .inl ⟨⟨waiter.trans waiting, ready.trans notReady, honestAfter⟩, none⟩
    · rw [waiting] at woken
      exact .inr ⟨⟨none, honestAfter⟩, ready, woken⟩
  rejection := by
    intro state _ closed
    simp [protocol, closedListener, concurrentAccept] at closed
  register_excused := by
    intro state _ _ _ _ _ _ registers excused
    rcases ListenerRun.registerWaiter_frame registers with ⟨_, rfl⟩
    exact excused
  take_excused := by
    intro state _ _ _ excused
    rcases ListenerRun.awaitResume_eq state with ⟨_, taken, -⟩
    simp only [tcpListener, taken]
    exact excused
  change_excused := by
    intro state _ _ _ _ change excused closed
    exact change_isOpen change (excused closed)
  register_isOpen := by
    intro state _ _ _ _ registers
    rcases ListenerRun.registerWaiter_frame registers with ⟨_, rfl⟩
    rfl
  take_isOpen := by
    intro state _
    rcases ListenerRun.awaitResume_eq state with ⟨_, taken, -⟩
    simp only [tcpListener, taken]
    rfl
  callback_isOpen called := (callback_spec called).2.1

theorem idle_opened : protocol.idle {} := by
  refine ⟨rfl, ?_⟩
  intro failed
  cases failed

end ListenerState

namespace UdpState

/-- The code of a cancellation says that the socket is being closed. -/
def Honest (state : UdpState ℕ) : Prop :=
  state.recvError = canceled → state.isOpen = false

def protocol : Protocol (UdpState ℕ) UdpRequest UdpOutcome where
  idle state := state.Vacant ∧ state.Honest
  holds state caller request :=
    state.Registered caller request.kind ∧ state.isReady = false ∧ state.Honest
  ready state request := request.kind = .recv → state.isReady = true
  excused state request outcome :=
    request.kind = .recv → outcome = closedSocket → state.isOpen = false
  notices := UdpRequest.Notices
  rejection := concurrentRecv

variable {state state' : UdpState ℕ} {request : UdpRequest}

variable {woken : List ℕ}

theorem Honest.change (honest : state.Honest) (change : udpSocket.Change state state' woken) :
    state'.Honest := by
  rcases change_cases change with ⟨-, rfl⟩ | ⟨-, -, -, closed | ⟨same, error | different⟩⟩
  · exact honest
  · exact fun _ => closed
  · intro canceled
    exact same.trans (honest (error.symm.trans canceled))
  · exact fun canceled => absurd canceled different

theorem change_isOpen (change : udpSocket.Change state state' woken)
    (closed : state.isOpen = false) :
    state'.isOpen = false := by
  rcases change_cases change with ⟨-, rfl⟩ | ⟨-, -, -, closing | ⟨same, -⟩⟩
  · exact closed
  · exact closing
  · exact same.trans closed

theorem awaitResume_idle (idle : protocol.idle state) (ready : protocol.ready state request) :
    protocol.idle (state.awaitResume request).2 ∧
      protocol.excused (state.awaitResume request).2 request (state.awaitResume request).1 := by
  rcases idle with ⟨vacant, honest⟩
  rcases awaitResume_frame state request with ⟨⟨vacantAfter, isOpen⟩, error⟩
  refine ⟨⟨vacantAfter vacant, ?_⟩, ?_⟩
  · intro canceled
    exact isOpen.trans (honest (error.symm.trans canceled))
  · intro kind closed
    refine isOpen.trans ?_
    simp only [awaitResume, kind, takeRecv] at closed
    split at closed
    · cases closed
    next empty =>
      rcases isReady_eq_true_iff.mp (ready kind) with some | shut | failed
      · exact absurd empty some
      · exact shut
      · apply honest
        by_contra different
        simp [noDatagram, failed, different, closedSocket, Except.map] at closed

theorem awaitResume_ne (state : UdpState ℕ) (request : UdpRequest) :
    (state.awaitResume request).1 ≠ concurrentRecv := by
  have told : state.noDatagram ≠
      .logic "corouv::net::UdpSocket does not support concurrent recv calls" := by
    unfold noDatagram
    split <;> simp
  rcases request with ⟨kind, _, _⟩
  cases kind with
  | recv =>
      simp only [awaitResume, takeRecv]
      split
      · simp [Except.map, concurrentRecv]
      · simpa [Except.map, concurrentRecv] using told
  | recvSome _ =>
      simp only [awaitResume, takeRecvSome]
      split
      · simp [Except.map, concurrentRecv]
      · split
        · simpa [Except.map, concurrentRecv] using told
        · simp [Except.map, concurrentRecv]

theorem registerWaiter_isOpen {entry : Entry UdpOutcome} {caller : ℕ}
    (registers : state.registerWaiter request caller = (entry, state')) :
    state'.isOpen = state.isOpen := by
  rcases registerWaiter_cases registers with ⟨-, -, rfl⟩ | ⟨-, -, -, rfl⟩ | ⟨-, -, same, -⟩
  · rfl
  · rfl
  · exact same

theorem admits {entry : Entry UdpOutcome} {index : ℕ} (idle : protocol.idle state)
    (registers : state.registerWaiter request index = (entry, state')) :
    protocol.Admits request index state' entry := by
  rcases idle with ⟨vacant, honest⟩
  rcases registerWaiter_cases registers with ⟨ready, rfl, rfl⟩ | ⟨-, busy, -⟩ |
      ⟨blank, -, isOpen, ⟨rfl, error, left⟩ | ⟨rfl, error, ready, registered⟩⟩
  · exact ⟨⟨vacant, honest⟩, fun _ => ready⟩
  · rcases request with ⟨kind, _, _⟩
    cases kind <;> simp [isBusy, vacant.1, vacant.2] at busy
  · refine ⟨⟨left vacant, ?_⟩, ?_, ?_⟩
    · intro canceled
      exact absurd (error.symm.trans canceled) request.sensible
    · intro _ closed
      cases closed
    · intro same
      cases same
  · refine ⟨registered vacant, ready.trans blank, ?_⟩
    intro canceled
    exact isOpen.trans (honest (error.symm.trans canceled))

theorem lawful : udpSocket.Lawful protocol where
  immediate := by
    intro state request outcome known
    cases known
  waits := admits
  passes := admits
  refused := admits
  rejected := by
    rintro state request request' index index' ⟨registered, notReady, _⟩ noticed
    have busy := (isBusy_eq_true_iff registered).mpr noticed
    rcases registers : state.registerWaiter request index with ⟨_, _⟩
    rcases registerWaiter_cases registers with ⟨ready, -⟩ | ⟨-, -, rfl, rfl⟩ | ⟨-, free, -⟩
    · cases notReady.symm.trans ready
    · exact registers
    · cases busy.symm.trans free
  overlooked := by
    rintro state request request' index index' ⟨registered, notReady, _⟩ unnoticed
    have free : state.isBusy request.kind ≠ true :=
      fun busy => unnoticed ((isBusy_eq_true_iff registered).mp busy)
    rcases registers : state.registerWaiter request index with ⟨_, _⟩
    simp only [udpSocket, registers]
    rcases registerWaiter_cases registers with
      ⟨ready, -⟩ | ⟨-, busy, -⟩ | ⟨-, -, -, ⟨rfl, -⟩ | ⟨rfl, -⟩⟩
    · cases notReady.symm.trans ready
    · exact absurd busy free
    · simp [protocol, concurrentRecv]
    · simp
  take := awaitResume_idle
  takes := awaitResume_ne _ _
  changes := by
    rintro state state' woken ⟨vacant, honest⟩ change
    have honestAfter := honest.change change
    rcases change_cases change with ⟨none, rfl⟩ | ⟨woken, vacantAfter, ready, -⟩
    · exact ⟨⟨vacant, honestAfter⟩, none, id⟩
    · rw [vacant.1, vacant.2] at woken
      exact ⟨⟨vacantAfter, honestAfter⟩, woken, fun _ _ => ready vacant.2⟩
  wakes := by
    rintro state state' woken index request ⟨registered, notReady, honest⟩ change
    have honestAfter := honest.change change
    rcases change_cases change with ⟨none, rfl⟩ | ⟨woken, vacantAfter, ready, -⟩
    · exact .inl ⟨⟨registered, notReady, honestAfter⟩, none⟩
    · right
      rcases request with ⟨kind, _, _⟩
      cases kind with
      | recv =>
          rw [registered.1, registered.2] at woken
          exact ⟨⟨vacantAfter, honestAfter⟩, fun _ => ready registered.2, woken⟩
      | recvSome _ =>
          rw [registered.1, registered.2] at woken
          refine ⟨⟨vacantAfter, honestAfter⟩, ?_, woken⟩
          intro direct
          cases direct
  rejection := by
    intro state request _ closed
    simp [protocol, closedSocket, concurrentRecv] at closed
  register_excused := by
    intro state _ request _ _ _ _ registers excused kind closed
    exact (registerWaiter_isOpen registers).trans (excused kind closed)
  take_excused := by
    intro state request _ _ excused kind closed
    exact (awaitResume_frame state request).1.2.trans (excused kind closed)
  change_excused := by
    intro _ _ _ _ _ change excused kind closed
    exact change_isOpen change (excused kind closed)
  register_isOpen := registerWaiter_isOpen
  take_isOpen := (awaitResume_frame _ _).1.2
  callback_isOpen := callback_isOpen

theorem idle_opened : protocol.idle {} := by
  refine ⟨⟨rfl, rfl⟩, ?_⟩
  intro failed
  cases failed

end UdpState

/-- A `UdpSocket` that has just been opened. -/
def UdpRun.opened : UdpRun :=
  { resource := { state := {} } }

namespace Socket

variable {σ κ ε ω : Type}

/-- While another call is in progress, a call on the loop thread that comes to registering is
turned away if and only if it keeps apart. -/
def RejectsIffApart (socket : Socket σ κ ε ω) (notices : κ → κ → Prop) (rejection : ω)
    (run : Service (Owner σ) κ ω) : Prop :=
  ∀ request run', (∃ call ∈ run.calls, call.stage ≠ .finished) →
    socket.resource.screen run.resource request = none →
    socket.resource.step run (.call request true) = some run' →
    (run'.results = run.results ++ [⟨run.calls.length, request, true, rejection⟩] ↔
      socket.resource.Apart notices run (.call request true))

variable {socket : Socket σ κ ε ω} {inner : Protocol σ κ ω} {run : Service (Owner σ) κ ω}

theorem Lawful.rejectsIffApart (lawful : socket.Lawful inner)
    (orderly : Orderly (socket.protocol inner) run) :
    socket.RejectsIffApart inner.notices inner.rejection run := by
  intro _ _ busy unknown taken
  exact Resource.Lawful.rejected_iff lawful.resource orderly.standing busy unknown taken

theorem proper_of_orderly (orderly : Orderly (socket.protocol inner) run) :
    socket.Proper run.resource := by
  cases orderly.standing with
  | quiet idle _ | woken _ _ idle _ _ => exact idle.2
  | waiting _ _ holds _ => exact holds.2

end Socket

/-- In runs where each call comes to registering alone, no result says that the peer has ended or
the owner has closed unless that is so; and a call is rejected as concurrent exactly if it is not
alone. -/
theorem no_spurious_end (stream : StreamRun) (listener : ListenerRun) (socket : UdpRun)
    (streamReached : Reached tcpStream.resource.step
      (tcpStream.resource.Apart fun _ _ => True) StreamRun.opened stream)
    (listenerReached : Reached tcpListener.resource.step
      (tcpListener.resource.Apart fun _ _ => True) ListenerRun.opened listener)
    (socketReached : Reached udpSocket.resource.step
      (udpSocket.resource.Apart UdpRequest.Notices) UdpRun.opened socket) :
    ((∀ result ∈ stream.results, result.outcome = .ok [] → 0 < result.request.size →
        ReadReport.eof ∈ stream.resource.state.delivered) ∧
      tcpStream.RejectsIffApart (fun _ _ => True) StreamState.concurrentRead stream) ∧
    ((∀ result ∈ listener.results, result.outcome = ListenerState.closedListener →
        listener.resource.held = false) ∧
      tcpListener.RejectsIffApart (fun _ _ => True) ListenerState.concurrentAccept listener) ∧
    (∀ result ∈ socket.results, result.request.kind = .recv →
        result.outcome = UdpState.closedSocket → socket.resource.held = false) ∧
      udpSocket.RejectsIffApart UdpRequest.Notices UdpState.concurrentRecv socket := by
  refine ⟨?_, ?_, ?_⟩
  · have orderly := StreamState.lawful.reached StreamState.idle_opened rfl streamReached
    refine ⟨?_, StreamState.lawful.rejectsIffApart orderly⟩
    intro result member nothing sized
    rcases orderly.accounted result member with excused | ⟨-, closed⟩
    · exact excused nothing sized
    · cases nothing.symm.trans closed
  · have orderly := ListenerState.lawful.reached ListenerState.idle_opened rfl listenerReached
    refine ⟨?_, ListenerState.lawful.rejectsIffApart orderly⟩
    intro result member closed
    rcases orderly.accounted result member with excused | ⟨given, -⟩
    · exact (Socket.proper_of_orderly orderly).closed (excused closed)
    · exact given
  · have orderly := UdpState.lawful.reached UdpState.idle_opened rfl socketReached
    refine ⟨?_, UdpState.lawful.rejectsIffApart orderly⟩
    intro result member kind closed
    rcases orderly.accounted result member with excused | ⟨given, -⟩
    · exact (Socket.proper_of_orderly orderly).closed (excused kind closed)
    · exact given

theorem no_spurious_end_in_turn :
    ∃ (stream : StreamRun) (listener : ListenerRun) (socket : UdpRun),
      stream.results =
        [⟨1, ⟨8, 0, by decide⟩, true, StreamState.concurrentRead⟩,
          ⟨0, ⟨8, 0, by decide⟩, true, .ok []⟩] ∧
      ReadReport.eof ∈ stream.resource.state.delivered ∧
      listener.results =
        [⟨1, (), true, ListenerState.concurrentAccept⟩,
          ⟨0, (), true, ListenerState.closedListener⟩] ∧
      listener.resource.held = false ∧
      socket.results =
        [⟨1, ⟨.recvSome [0], 0, by decide⟩, true, UdpState.concurrentRecv⟩,
          ⟨0, ⟨.recv, 0, by decide⟩, true, UdpState.closedSocket⟩] ∧
      socket.resource.held = false := by
  have streamFollowed : (follow tcpStream.resource.step
      (tcpStream.resource.Apart fun _ _ => True) StreamRun.opened
      [.call ⟨8, 0, by decide⟩ true, .call ⟨8, 0, by decide⟩ true, .occur (.callback .eof),
        .resume 0]).map (fun run => run.results) =
      some [⟨1, ⟨8, 0, by decide⟩, true, StreamState.concurrentRead⟩,
        ⟨0, ⟨8, 0, by decide⟩, true, .ok []⟩] := by
    decide +kernel
  have listenerFollowed : (follow tcpListener.resource.step
      (tcpListener.resource.Apart fun _ _ => True) ListenerRun.opened
      [.call () true, .call () true, .occur (.close true), .resume 0]).map
      (fun run => run.results) =
      some [⟨1, (), true, ListenerState.concurrentAccept⟩,
        ⟨0, (), true, ListenerState.closedListener⟩] := by
    decide +kernel
  have socketFollowed : (follow udpSocket.resource.step
      (udpSocket.resource.Apart UdpRequest.Notices) UdpRun.opened
      [.call ⟨.recv, 0, by decide⟩ true, .call ⟨.recvSome [0], 0, by decide⟩ true,
        .occur (.close false), .occur .closeOnLoop, .resume 0]).map (fun run => run.results) =
      some [⟨1, ⟨.recvSome [0], 0, by decide⟩, true, UdpState.concurrentRecv⟩,
        ⟨0, ⟨.recv, 0, by decide⟩, true, UdpState.closedSocket⟩] := by
    decide +kernel
  rcases exists_of_follow streamFollowed with ⟨stream, -, streamReached, streamResults⟩
  rcases exists_of_follow listenerFollowed with ⟨listener, -, listenerReached, listenerResults⟩
  rcases exists_of_follow socketFollowed with ⟨socket, -, socketReached, socketResults⟩
  rcases no_spurious_end stream listener socket streamReached listenerReached socketReached with
    ⟨⟨ended, -⟩, ⟨closedListener, -⟩, closedSocket, -⟩
  refine ⟨stream, listener, socket, streamResults, ?_, listenerResults, ?_, socketResults, ?_⟩
  · exact ended ⟨0, ⟨8, 0, by decide⟩, true, .ok []⟩ (by simp [streamResults]) rfl (by decide)
  · exact closedListener ⟨0, (), true, ListenerState.closedListener⟩ (by simp [listenerResults]) rfl
  · exact closedSocket ⟨0, ⟨.recv, 0, by decide⟩, true, UdpState.closedSocket⟩
      (by simp [socketResults]) rfl rfl

/-- The second call is made between the wakeup of the first and its resumption. -/
theorem second_call_ends_the_first :
    (follow tcpStream.resource.step (fun _ _ => True) StreamRun.opened
      [.call ⟨8, 0, by decide⟩ true, .occur (.callback (.data (ascii "abc"))),
        .call ⟨8, 0, by decide⟩ true, .resume 0]).map
        (fun run => (run.results.map fun result => (result.call, result.outcome),
          run.resource.state.delivered)) =
      some ([(1, .ok (ascii "abc")), (0, .ok [])], [.data (ascii "abc")]) ∧
    (follow tcpListener.resource.step (fun _ _ => True) ListenerRun.opened
      [.call () true, .occur (.callback ⟨0, 0, true⟩), .call () true, .resume 0]).map
        (fun run => (run.results.map fun result => (result.call, result.outcome),
          run.resource.held)) =
      some ([(1, .ok ⟨0, false⟩),
        (0, .error (.logic "corouv::net::TcpListener is closed"))], true) ∧
    (follow udpSocket.resource.step (fun _ _ => True) UdpRun.opened
      [.call ⟨.recv, 0, by decide⟩ true,
        .occur (.callback (.datagram (ascii "abc") none 0)),
        .call ⟨.recv, 0, by decide⟩ true, .resume 0]).map
        (fun run => (run.results.map fun result => (result.call, result.outcome),
          run.resource.held)) =
      some ([(1, .ok (.inl ⟨{}, ascii "abc", 0⟩)),
        (0, .error (.logic "corouv::net::UdpSocket is closed"))], true) := by
  refine ⟨?_, ?_, ?_⟩ <;> decide +kernel

end Corouv.Net
