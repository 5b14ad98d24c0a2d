import Corouv.Net.Owner
import Corouv.Net.Udp

/-!
# Reading from a `TcpStream`

The state behind a stream, the callback in which libuv reports what it has read, and the
awaiter of `read_some`.  A read returns the bytes it has put at the beginning of the buffer of
its caller; a read that returns zero returns no bytes.
-/

namespace Corouv.Net

open Library
open UdpState (canceled)

/-- `UV_EOF`. -/
def endOfFile : ℤ := -4095

/-- The arguments of `read_cb`, by the value of `nread`. -/
inductive ReadReport where
  | data (bytes : Bytes)
  | nothing
  | eof
  | failure (code : ℤ)
  deriving DecidableEq

namespace ReadReport

/-- What libuv can report. -/
def isSensible : ReadReport → Bool
  | .data bytes => bytes ≠ []
  | .failure code => code < 0 && code ≠ endOfFile
  | _ => true

def bytes : ReadReport → Bytes
  | .data bytes => bytes
  | _ => []

end ReadReport

structure StreamState where
  readBuffer : Bytes := []
  readWaiter : Option ℕ := none
  readError : ℤ := 0
  readStarted : Bool := false
  eof : Bool := false
  closing : Bool := false
  /-- Every report so far. -/
  delivered : List ReadReport := []

structure ReadRequest where
  /-- The size of the buffer. -/
  size : ℕ
  /-- What `uv_read_start` returns, should it be called. -/
  code : ℤ := 0
  /-- The end of a stream is reported to the callback only. -/
  sensible : code ≠ endOfFile := by decide
  deriving DecidableEq

namespace StreamState

def isOpen (state : StreamState) : Bool :=
  !state.closing

def startReadingOnLoop (state : StreamState) (code : ℤ) : ℤ × StreamState :=
  if !state.isOpen || state.readStarted || state.eof || state.readError ≠ 0 then (0, state)
  else if code = 0 then (0, { state with readStarted := true })
  else (code, state)

def closeOnLoop (state : StreamState) : StreamState × List ℕ :=
  if state.closing then (state, [])
  else
    ({ state with
        closing := true
        readStarted := false
        readError := if !state.eof && state.readError = 0 then canceled else state.readError
        readWaiter := none },
      state.readWaiter.toList)

def readCb (state : StreamState) (report : ReadReport) : StreamState × List ℕ :=
  match report with
  | .data bytes =>
      ({ state with readBuffer := state.readBuffer ++ bytes, readWaiter := none },
        state.readWaiter.toList)
  | .nothing => (state, [])
  | .eof =>
      ({ state with eof := true, readStarted := false, readWaiter := none },
        state.readWaiter.toList)
  | .failure code =>
      ({ state with readError := code, readStarted := false, readWaiter := none },
        state.readWaiter.toList)

def isReady (state : StreamState) : Bool :=
  !state.isOpen || state.readBuffer ≠ [] || state.eof || state.readError ≠ 0

def concurrentRead : Except Exn Bytes :=
  .error (.logic "corouv::net::TcpStream does not support concurrent reads")

def registerWaiter (state : StreamState) (request : ReadRequest) (caller : ℕ) :
    Entry (Except Exn Bytes) × StreamState :=
  if state.isReady then (.passes, state)
  else if state.readWaiter.isSome then (.refused concurrentRead, state)
  else
    match startReadingOnLoop { state with readWaiter := some caller } request.code with
    | (rc, started) =>
        if rc ≠ 0 then
          (.refused (.error (.runtime "uv_read_start")),
            { started with readWaiter := none, readError := rc })
        else (.waits, started)

def awaitResume (state : StreamState) (request : ReadRequest) :
    Except Exn Bytes × StreamState :=
  if state.readBuffer ≠ [] then
    (.ok (state.readBuffer.take request.size),
      { state with readBuffer := state.readBuffer.drop request.size })
  else if state.readError ≠ 0 ∧ state.readError ≠ endOfFile then
    (.error (.runtime "uv_read"), state)
  else (.ok [], state)

end StreamState

/-- `TcpStream`, as far as reading is concerned.  libuv reports while it has been told to
read. -/
def tcpStream : Socket StreamState ReadRequest ReadReport (Except Exn Bytes) where
  isOpen := StreamState.isOpen
  closed := .error (.logic "corouv::net::TcpStream is closed")
  immediate request := if request.size = 0 then some (.ok []) else none
  registerWaiter := StreamState.registerWaiter
  awaitResume := StreamState.awaitResume
  closeOnLoop := StreamState.closeOnLoop
  callback state report :=
    if state.readStarted && report.isSensible then
      some (StreamState.readCb { state with delivered := state.delivered ++ [report] } report)
    else none

/-- A stream, the reads on it and what they have returned. -/
abbrev StreamRun := Service (Owner StreamState) ReadRequest (Except Exn Bytes)

namespace StreamState

variable {state state' : StreamState} {request : ReadRequest} {caller : ℕ}

theorem isReady_eq_false_iff :
    state.isReady = false ↔ state.closing = false ∧ state.readBuffer = [] ∧
      state.eof = false ∧ state.readError = 0 := by
  simp [isReady, isOpen, and_assoc]

theorem startReadingOnLoop_eq (blank : state.isReady = false) (code : ℤ) :
    startReadingOnLoop { state with readWaiter := some caller } code =
      if state.readStarted = false ∧ code ≠ 0 then
        (code, { state with readWaiter := some caller })
      else (0, { state with readWaiter := some caller, readStarted := true }) := by
  rcases isReady_eq_false_iff.mp blank with ⟨closing, _, eof, error⟩
  rcases state with ⟨_, _, _, readStarted, _, _, _⟩
  cases closing
  cases eof
  cases error
  cases readStarted with
  | true => simp [startReadingOnLoop, isOpen]
  | false => by_cases started : code = 0 <;> simp [startReadingOnLoop, isOpen, started]

theorem registerWaiter_cases {entry : Entry (Except Exn Bytes)}
    (registers : state.registerWaiter request caller = (entry, state')) :
    (state.isReady = true ∧ entry = .passes ∧ state' = state) ∨
      (state.isReady = false ∧ state.readWaiter ≠ none ∧ entry = .refused concurrentRead ∧
        state' = state) ∨
      (state.isReady = false ∧ state.readWaiter = none ∧
        (entry = .refused (.error (.runtime "uv_read_start")) ∧ request.code ≠ 0 ∧
            state' = { state with readWaiter := none, readError := request.code } ∨
          entry = .waits ∧
            state' = { state with readWaiter := some caller, readStarted := true })) := by
  unfold registerWaiter at registers
  split at registers
  next ready =>
    cases registers
    exact .inl ⟨ready, rfl, rfl⟩
  next notReady =>
    have blank := Bool.eq_false_iff.mpr notReady
    right
    split at registers
    next busy =>
      cases registers
      exact .inl ⟨blank, Option.isSome_iff_ne_none.mp busy, rfl, rfl⟩
    next free =>
      refine .inr ⟨blank, by simpa using free, ?_⟩
      rw [startReadingOnLoop_eq blank] at registers
      by_cases fails : state.readStarted = false ∧ request.code ≠ 0
      · simp only [if_pos fails, if_pos fails.2] at registers
        cases registers
        exact .inl ⟨rfl, fails.2, rfl⟩
      · simp only [if_neg fails, ne_eq, not_true_eq_false, if_false] at registers
        cases registers
        exact .inr ⟨rfl, rfl⟩

theorem awaitResume_waiter (state : StreamState) (request : ReadRequest) :
    (state.awaitResume request).2.readWaiter = state.readWaiter := by
  unfold awaitResume
  split
  · rfl
  · split <;> rfl

theorem awaitResume_delivered (state : StreamState) (request : ReadRequest) :
    (state.awaitResume request).2.delivered = state.delivered := by
  unfold awaitResume
  split
  · rfl
  · split <;> rfl

theorem awaitResume_ne (state : StreamState) (request : ReadRequest) :
    (state.awaitResume request).1 ≠ concurrentRead := by
  unfold awaitResume concurrentRead
  split
  · simp
  · split <;> simp

/-- What a report or `close_on_loop` can do. -/
inductive Reaction (state : StreamState) : StreamState → List ℕ → Prop
  | data {bytes : Bytes} (some : bytes ≠ []) :
      Reaction state
        { state with
          readBuffer := state.readBuffer ++ bytes
          readWaiter := none
          delivered := state.delivered ++ [.data bytes] }
        state.readWaiter.toList
  | nothing : Reaction state { state with delivered := state.delivered ++ [.nothing] } []
  | eof :
      Reaction state
        { state with
          eof := true
          readStarted := false
          readWaiter := none
          delivered := state.delivered ++ [.eof] }
        state.readWaiter.toList
  | failure {code : ℤ} (nonzero : code ≠ 0) (different : code ≠ endOfFile) :
      Reaction state
        { state with
          readError := code
          readStarted := false
          readWaiter := none
          delivered := state.delivered ++ [.failure code] }
        state.readWaiter.toList
  | closes {code : ℤ} (isOpen : state.closing = false) (told : state.eof = true ∨ code ≠ 0)
      (known : code = canceled ∨ code = state.readError) :
      Reaction state
        { state with closing := true, readStarted := false, readError := code, readWaiter := none }
        state.readWaiter.toList
  | closed (closing : state.closing = true) : Reaction state state []

variable {woken : List ℕ}

theorem reaction (change : tcpStream.Change state state' woken) : state.Reaction state' woken := by
  cases change with
  | @callback report _ _ called =>
      simp only [tcpStream] at called
      split at called
      next possible =>
        rw [Bool.and_eq_true] at possible
        have reported := Option.some.inj called
        cases report with
        | data _ =>
            cases reported
            exact .data (by simpa [ReadReport.isSensible] using possible.2)
        | nothing =>
            cases reported
            exact .nothing
        | eof =>
            cases reported
            exact .eof
        | failure code =>
            cases reported
            have negative : code < 0 ∧ code ≠ endOfFile := by
              simpa [ReadReport.isSensible] using possible.2
            exact .failure (by omega) negative.2
      · cases called
  | closeOnLoop =>
      simp only [tcpStream, closeOnLoop]
      split
      next closing => exact .closed closing
      next isOpen =>
        refine .closes (Bool.eq_false_iff.mpr isOpen) ?_ ?_
        · by_cases ended : state.eof = true
          · exact .inl ended
          · right
            split
            · decide
            next failed => simpa [ended] using failed
        · split
          · exact .inl rfl
          · exact .inr rfl

section

variable (reaction : state.Reaction state' woken)
include reaction

theorem Reaction.waiter :
    (woken = [] ∧ state'.readWaiter = state.readWaiter ∧ state'.isReady = state.isReady) ∨
      (woken = state.readWaiter.toList ∧ state'.readWaiter = none ∧ state'.isReady = true) := by
  cases reaction with
  | data some => exact .inr ⟨rfl, rfl, by simp [isReady, some]⟩
  | nothing | closed _ => exact .inl ⟨rfl, rfl, rfl⟩
  | eof => exact .inr ⟨rfl, rfl, by simp [isReady]⟩
  | failure nonzero _ => exact .inr ⟨rfl, rfl, by simp [isReady, nonzero]⟩
  | closes _ _ _ => exact .inr ⟨rfl, rfl, by simp [isReady, isOpen]⟩

theorem Reaction.bytes : ∃ bytes, state'.readBuffer = state.readBuffer ++ bytes ∧
      state'.delivered.flatMap ReadReport.bytes =
        state.delivered.flatMap ReadReport.bytes ++ bytes := by
  cases reaction with
  | @data bytes _ => exact ⟨bytes, rfl, by simp [ReadReport.bytes]⟩
  | nothing | eof | failure _ _ | closes _ _ _ | closed _ =>
      exact ⟨[], by simp, by simp [ReadReport.bytes]⟩

theorem Reaction.delivered {report : ReadReport}
    (earlier : report ∈ state.delivered) : report ∈ state'.delivered := by
  cases reaction with
  | data _ | nothing | eof | failure _ _ => exact List.mem_append_left _ earlier
  | closes _ _ _ | closed _ => exact earlier

end

end StreamState

end Corouv.Net
