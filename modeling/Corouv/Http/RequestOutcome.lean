import Corouv.Http.ReaderLogic
import Corouv.Http.ReaderSafe
import Corouv.Http.RequestCorrect

/-!
# The outcome of reading a request

On a connection that does not fail, `read_request` returns, throws an `http::Error` or
waits.  The only thing it writes is the interim response, if the head that has arrived asks
for it.
-/

namespace Corouv

/-- An exception a caller of a reader handles, or no exception at all. -/
def Exn.IsOrderly (error : Exn) : Prop :=
  error.isHttpError = true ∨ error.IsUnfinished

end Corouv

namespace Corouv.Http

open Library Io
open EStateM (run_bind run_get run_modify)

/-- Open, without a failure in store, and with the given fates for its writes. -/
structure Conn.Clear (departures : List Departure) (conn : Conn) : Prop where
  isOpen : conn.stream.isOpen = true
  arrivals : Io.Clear conn.stream.arrivals
  departures_eq : conn.stream.departures = departures

theorem keeps_recvSome (departures : List Departure) (capacity : ℕ) (deadline : Deadline) :
    Keeps (Conn.Clear departures) Exn.IsOrderly (recvSome capacity deadline) := by
  intro conn clear
  rcases receive_of_clear capacity deadline.duration.isSome clear.arrivals with
    ⟨fine, free, later⟩
  simp only [recvSome, EStateM.run, if_pos clear.isOpen]
  cases outcome : receive capacity deadline.duration.isSome conn.stream.arrivals with
  | mk received rest =>
      rw [outcome] at fine free
      cases received with
      | bytes data => exact ⟨clear.isOpen, later data rest outcome, clear.departures_eq⟩
      | timeout => exact .inl rfl
      | failure message => exact absurd rfl (fine message)
      | busy => exact absurd rfl free
      | waiting => exact .inr (.inl rfl)

theorem readerLogic_keeps (departures : List Departure) :
    ReaderLogic fun {_} task => Keeps (Conn.Clear departures) Exn.IsOrderly task where
  pure := keeps_pure
  throw := fun http => keeps_throw (.inl http)
  bind := keeps_bind
  inspect := fun _ each => keeps_get_bind each
  change := by
    intro update blind
    apply keeps_modify
    intro conn clear
    have whole : update conn = { update conn with stream := conn.stream } := blind conn conn.stream
    have same : (update conn).stream = conn.stream := by
      rw [whole]
    exact ⟨same ▸ clear.isOpen, same ▸ clear.arrivals, same ▸ clear.departures_eq⟩
  loop := by
    intro α β _ fuel _ turn entry
    apply keeps_get_bind
    intro conn
    have cutOff : Exn.IsOrderly .exhausted := .inr (.inr rfl)
    exact keeps_loop cutOff turn (fuel conn) entry
  recv := keeps_recvSome departures

/-- A result that a caller who catches `http::Error` can deal with. -/
def Orderly {α : Type} : EStateM.Result Exn Conn α → Prop
  | .ok _ _ => True
  | .error error _ => error.IsOrderly

variable {departures : List Departure} {conn : Conn}

theorem Orderly.of_keeps {α : Type} {task : Task Conn α}
    (keeps : Keeps (Conn.Clear departures) Exn.IsOrderly task) (clear : conn.Clear departures) :
    Orderly (task.run conn) := by
  have kept := keeps conn clear
  cases outcome : task.run conn with
  | ok _ _ => trivial
  | error _ _ =>
      rw [outcome] at kept
      exact kept

/-- The next write does not fail. -/
def WritesNext (departures : List Departure) : Prop :=
  ∀ departure ∈ departures.head?, departure.isFailure = false

theorem sendAll_of_clear (data : Bytes) (deadline : Deadline) (clear : conn.Clear departures)
    (fine : WritesNext departures) :
    (∃ conn', (sendAll data deadline).run conn = .ok () conn' ∧
        conn'.Clear conn'.stream.departures) ∨
      ∃ error conn', (sendAll data deadline).run conn = .error error conn' ∧
        error.isHttpError = true := by
  rcases clear with ⟨isOpen, arrivals, rfl⟩
  have sending := sending_sendAll data deadline conn
  generalize (sendAll data deadline).run conn = result at sending
  cases sending with
  | nothing | done => exact .inl ⟨_, rfl, isOpen, arrivals, rfl⟩
  | late => exact .inr ⟨_, _, rfl, rfl⟩
  | failed _ _ fates =>
      rw [fates] at fine
      exact absurd (fine _ rfl) (by simp [Departure.isFailure])
  | closed _ shut => exact absurd (isOpen.symm.trans shut) (by decide)

/-- The interim response is written for this request. -/
def Request.AwaitsContinue (request : Request) (contentLength : Option ℕ) : Prop :=
  parseExpect request.headers = .continue100 ∧ hasRequestBody request contentLength = true

/-- The head that has arrived asks for the interim response. -/
def Conn.AwaitsContinue (config : Config) (conn : Conn) : Prop :=
  ∃ length head request contentLength,
    config.parser.request config.limits.maxHeaderCount conn.unread 0 = .complete length head ∧
      requestOfHead head = .ok (request, contentLength) ∧ request.AwaitsContinue contentLength

theorem sendContinue_of_clear (config : Config) {request : Request} {contentLength : Option ℕ}
    (clear : conn.Clear departures)
    (fine : request.AwaitsContinue contentLength → WritesNext departures) :
    (∃ conn', (sendContinue config request contentLength).run conn = .ok () conn' ∧
        conn'.Clear conn'.stream.departures) ∨
      ∃ error conn', (sendContinue config request contentLength).run conn = .error error conn' ∧
        error.isHttpError = true := by
  simp only [sendContinue]
  split
  next asks => exact sendAll_of_clear _ _ clear (fine asks)
  · exact .inl ⟨conn, rfl, clear.isOpen, clear.arrivals, rfl⟩

/-- Every error behind the head can be caught if the interim response can be written. -/
theorem finishRequest_orderly (config : Config) (sink : BodySink) (length : ℕ) {head : RequestHead}
    (clear : conn.Clear departures)
    (fine : ∀ request contentLength, requestOfHead head = .ok (request, contentLength) →
      request.AwaitsContinue contentLength → WritesNext departures) :
    Orderly ((finishRequest config sink length head).run conn) := by
  cases announced : requestOfHead head with
  | error _ =>
      simp only [finishRequest, announced]
      exact .inl (isHttpError_of_requestOfHead announced)
  | ok framed =>
      rcases framed with ⟨request, contentLength⟩
      simp only [finishRequest, announced, run_bind, run_modify]
      split
      · exact .inl rfl
      · have consumed : (conn.consume length).Clear departures :=
          ⟨clear.isOpen, clear.arrivals, clear.departures_eq⟩
        rw [run_bind]
        rcases sendContinue_of_clear config consumed (fine request contentLength announced) with
          ⟨_, ran, clear'⟩ | ⟨_, _, ran, http⟩
        · rw [ran]
          exact Orderly.of_keeps ((readerLogic_keeps _).readRequestBody config sink request
            contentLength) clear'
        · rw [ran]
          exact .inl http

/-- What one pass of a head loop makes of the unread bytes. -/
def HeadSeen {head : Type} (parse : Bytes → ℕ → Parsed head) (conn : Conn) :
    EStateM.Result Exn Conn (HeadStep head) → Prop
  | .ok (.complete length found) _ => parse conn.unread 0 = .complete length found
  | .ok (.more lastLen) conn' =>
      conn'.unread = conn.unread ∧ NoHead parse (conn'.buffer.view.take lastLen)
  | _ => True

/-- One round of the head loop on any connection. -/
theorem headStep_any {head : Type} {parse : Bytes → ℕ → Parsed head} (stable : PrefixStable parse)
    (errors : HeadErrors) (limits : Limits) (deadline : Deadline) {lastLen : ℕ}
    (noneYet : NoHead parse (conn.buffer.view.take lastLen)) :
    HeadSeen parse conn ((headStep parse errors limits deadline lastLen).run conn) := by
  cases seen : (if conn.buffer.view = [] then Parsed.incomplete
      else parse conn.buffer.view lastLen) with
  | complete length found =>
      simp only [headStep, run_bind, run_get, seen]
      split at seen
      · cases seen
      · exact stable.append ((stable.resume noneYet).mp seen) _
  | malformed =>
      simp only [headStep, run_bind, run_get, seen]
      trivial
  | incomplete =>
      have unseen : NoHead parse conn.buffer.view := by
        intro _ _ complete
        split at seen
        next empty =>
          rw [empty] at complete
          exact stable.noHead_nil _ _ complete
        · rw [(stable.resume noneYet).mpr complete] at seen
          cases seen
      simp only [headStep, run_bind, run_get, seen]
      split
      · trivial
      · rcases readMore_any conn limits.maxHeaderBytes errors.tooLarge
          (limits.maxHeaderBytes - conn.buffer.size) deadline with
          ⟨data, conn', ran, -, -, fetched⟩ | ⟨_, _, ran, -⟩
        · rw [run_bind, ran]
          dsimp only
          split
          · trivial
          · refine ⟨fetched.unread_eq, ?_⟩
            rw [fetched.view_eq, List.take_left' (BufferCursor.length_view _)]
            exact unseen
        · rw [run_bind, ran]
          trivial

section

variable {config : Config}
  (stable : PrefixStable (config.parser.request config.limits.maxHeaderCount))
  (clear : conn.Clear departures) (fine : conn.AwaitsContinue config → WritesNext departures)
include stable clear fine

theorem readRequestStream_orderly (sink : BodySink) :
    Orderly ((readRequestStream config sink).run conn) := by
  simp only [readRequestStream, run_bind, run_get]
  apply loop_safe (fun lastLen state => Conn.Clear departures state ∧
    state.unread = conn.unread ∧ NoHead (config.parser.request config.limits.maxHeaderCount)
      (state.buffer.view.take lastLen))
  · intro _ _ _
    exact .inr (.inr rfl)
  · rintro lastLen state ⟨clear, unread, noneYet⟩
    have waits := (readerLogic_keeps departures).headStep
      (config.parser.request config.limits.maxHeaderCount) requestErrors_areHttp.malformed
      requestErrors_areHttp.tooLarge config.limits
      ⟨config.timeouts.readHeaders, 408, "request header read timeout"⟩ lastLen state clear
    have step := headStep_any stable requestErrors config.limits
      ⟨config.timeouts.readHeaders, 408, "request header read timeout"⟩ noneYet
    simp only [readRequestTurn, run_bind]
    cases outcome : (headStep (config.parser.request config.limits.maxHeaderCount) requestErrors
        config.limits ⟨config.timeouts.readHeaders, 408, "request header read timeout"⟩
        lastLen).run state with
    | error error state' =>
        rw [outcome] at waits
        exact waits
    | ok verdict state' =>
        rw [outcome] at waits step
        cases verdict with
        | complete length head =>
            have finished : Orderly ((finishRequest config sink length head).run state') := by
              apply finishRequest_orderly config sink length waits
              intro request contentLength announced asks
              refine fine ⟨length, head, request, contentLength, ?_, announced, asks⟩
              rw [← unread]
              exact step
            simp only [run_bind]
            cases ran : (finishRequest config sink length head).run state' with
            | ok _ _ => trivial
            | error _ _ =>
                rw [ran] at finished
                exact finished
        | more _ => exact ⟨waits, step.1.trans unread, step.2⟩
        | eof =>
            simp only [run_bind, run_get]
            split
            · trivial
            · exact .inl rfl
  · exact ⟨clear, rfl, stable.noHead_nil⟩

theorem readRequest_orderly : Orderly ((readRequest config).run conn) := by
  have start : ({ conn with body := [] } : Conn).Clear departures :=
    ⟨clear.isOpen, clear.arrivals, clear.departures_eq⟩
  have stream := readRequestStream_orderly stable start fine .collect
  simp only [readRequest, run_bind, run_modify]
  cases outcome : (readRequestStream config .collect).run { conn with body := [] } with
  | ok _ _ => trivial
  | error _ _ =>
      rw [outcome] at stream
      exact stream

end

end Corouv.Http
