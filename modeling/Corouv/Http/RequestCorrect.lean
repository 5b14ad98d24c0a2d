import Corouv.Http.ChunkedCorrect
import Corouv.Http.Decision
import Corouv.Http.HeadCorrect

/-!
# Requests do not depend on how the network cuts the stream

`Grammar.request` reads one request from the whole input, and `Grammar.requests`
all of them.  Repeated calls of `read_request` compute it on every clean stream that
ends, whatever pieces the input arrives in.
-/

namespace Corouv.Http

open Library Io
open EStateM (run_bind run_get run_pure run_modify)

namespace Grammar

/-- The body of a request with the given framing: the request with its trailers,
the content and the rest. -/
def requestContent (limits : Limits) (request : Request) (contentLength : Option ℕ)
    (input : Bytes) : Option (Request × Bytes × Bytes) :=
  if request.chunked then
    (chunkedBody limits true input).map fun read =>
      ({ request with trailers := read.2.1 }, read.1, read.2.2)
  else
    match contentLength with
    | some size => (fixedBody limits size input).map fun read => (request, read.1, read.2)
    | none => some (request, [], input)

def requestBody (limits : Limits) (head : RequestHead) (input : Bytes) :
    Option (Request × Bytes × Bytes) :=
  match requestOfHead head with
  | .error _ => none
  | .ok (request, contentLength) =>
      if parseExpect request.headers = .unsupported then none
      else requestContent limits request contentLength input

inductive RequestRead where
  | ended
  | rejected
  | request (request : Request) (rest : Bytes)

def request (parser : HeadParser) (limits : Limits) (input : Bytes) : RequestRead :=
  match parser.request limits.maxHeaderCount (input.take limits.maxHeaderBytes) 0 with
  | .complete length head =>
      match requestBody limits head (input.drop length) with
      | some (request, content, rest) => .request { request with body := content } rest
      | none => .rejected
  | _ => if input = [] ∧ limits.maxHeaderBytes ≠ 0 then .ended else .rejected

/-- The chunk sizes in the body that follows a request head, if it is chunked. -/
def bodyChunkSizes (limits : Limits) (head : RequestHead) (input : Bytes) : List ℕ :=
  match requestOfHead head with
  | .error _ => []
  | .ok (request, _) => if request.chunked then chunkSizes limits input else []

def requestChunkSizes (parser : HeadParser) (limits : Limits) (input : Bytes) : List ℕ :=
  match parser.request limits.maxHeaderCount (input.take limits.maxHeaderBytes) 0 with
  | .complete length head => bodyChunkSizes limits head (input.drop length)
  | _ => []

/-- All requests up to the first that is rejected, and whether the input ends
cleanly after them. -/
def requestsWithin (parser : HeadParser) (limits : Limits) : ℕ → Bytes → List Request × Bool
  | 0, _ => ([], false)
  | fuel + 1, input =>
      match request parser limits input with
      | .ended => ([], true)
      | .rejected => ([], false)
      | .request request rest =>
          let later := requestsWithin parser limits fuel rest
          (request :: later.1, later.2)

def streamChunkSizesWithin (parser : HeadParser) (limits : Limits) : ℕ → Bytes → List ℕ
  | 0, _ => []
  | fuel + 1, input =>
      requestChunkSizes parser limits input ++
        match request parser limits input with
        | .request _ rest => streamChunkSizesWithin parser limits fuel rest
        | _ => []

/-- The values of all chunk-size lines that reading the requests comes to. -/
def streamChunkSizes (parser : HeadParser) (limits : Limits) (input : Bytes) : List ℕ :=
  streamChunkSizesWithin parser limits (input.length + 1) input

/-- No sum wraps around while the body behind a head is read; only the sizes of chunks
are added up. -/
def BodySane (limits : Limits) (head : RequestHead) (input : Bytes) : Prop :=
  ∀ request contentLength, requestOfHead head = .ok (request, contentLength) →
    request.chunked = true → limits.Small ∧ ∀ size ∈ chunkSizes limits input, size < 2 ^ 63

def RequestSane (parser : HeadParser) (limits : Limits) (input : Bytes) : Prop :=
  ∀ length head,
    parser.request limits.maxHeaderCount (input.take limits.maxHeaderBytes) 0 =
      .complete length head → BodySane limits head (input.drop length)

def StreamSane (parser : HeadParser) (limits : Limits) : ℕ → Bytes → Prop
  | 0, _ => True
  | fuel + 1, input => RequestSane parser limits input ∧ ∀ received rest,
      request parser limits input = .request received rest → StreamSane parser limits fuel rest

variable {parser : HeadParser} {limits : Limits}

theorem requestSane_of_chunkSizes {input : Bytes} (small : limits.Small)
    (sizes : ∀ size ∈ requestChunkSizes parser limits input, size < 2 ^ 63) :
    RequestSane parser limits input := by
  intro _ _ found _ _ announced chunked
  refine ⟨small, fun size mem => sizes size ?_⟩
  simpa [requestChunkSizes, found, bodyChunkSizes, announced, chunked] using mem

theorem streamSane_of_chunkSizes (small : limits.Small) :
    ∀ (fuel : ℕ) (input : Bytes),
      (∀ size ∈ streamChunkSizesWithin parser limits fuel input, size < 2 ^ 63) →
        StreamSane parser limits fuel input := by
  intro fuel
  induction fuel with
  | zero =>
      intro _ _
      trivial
  | succ _ ih =>
      intro _ sizes
      simp only [streamChunkSizesWithin, List.mem_append] at sizes
      refine ⟨requestSane_of_chunkSizes small fun size mem => sizes size (.inl mem), ?_⟩
      intro _ rest read
      apply ih rest
      intro size mem
      exact sizes size (.inr (by simpa [read] using mem))

end Grammar

variable {head : RequestHead} {limits : Limits}

theorem isHttpError_of_requestOfHead {error : Exn} (failed : requestOfHead head = .error error) :
    error.isHttpError = true := by
  simp only [requestOfHead] at failed
  split at failed
  · cases failed
    rfl
  · split at failed
    next other lengthFailed =>
      cases failed
      rcases parseContentLength_status lengthFailed with ⟨_, rfl⟩
      rfl
    · split at failed
      · cases failed
        rfl
      · cases failed

theorem requestErrors_areHttp : requestErrors.AreHttp :=
  ⟨rfl, rfl⟩

/-- Where a connection stands between two messages. -/
structure Conn.Ready (conn : Conn) (limits : Limits) (unread : Bytes) (ended : Bool) : Prop where
  holds : conn.Holds unread ended
  writable : conn.Writable
  size_le : conn.buffer.size ≤ limits.maxHeaderBytes

variable {conn : Conn} {config : Config} {input unread : Bytes} {ended : Bool}

theorem Conn.Ready.congr {conn' : Conn} (ready : conn.Ready limits unread ended)
    (buffer : conn'.buffer = conn.buffer) (stream : conn'.stream = conn.stream) :
    conn'.Ready limits unread ended := by
  rcases ready with ⟨⟨isOpen, clean⟩, ⟨_, departures⟩, size_le⟩
  rw [← stream] at isOpen departures
  rw [← stream, ← buffer] at clean
  rw [← buffer] at size_le
  exact ⟨⟨isOpen, clean⟩, ⟨isOpen, departures⟩, size_le⟩

theorem Conn.Ready.withWritten (ready : conn.Ready limits unread ended) (data : Bytes) :
    (conn.withWritten [] data).Ready limits unread ended :=
  ⟨⟨ready.holds.isOpen, ready.holds.clean⟩, ready.writable.withWritten data, ready.size_le⟩

theorem Conn.Writable.of_after {before after : Conn} {body : Bytes} (writable : before.Writable)
    (done : before.After after unread ended body) : after.Writable :=
  ⟨done.holds.isOpen, done.departures_eq.trans writable.departures_eq⟩

variable {length : ℕ}

theorem sendContinue_frame (config : Config) (request : Request) (contentLength : Option ℕ)
    (writable : conn.Writable) :
    ∃ written, (sendContinue config request contentLength).run conn =
      .ok () { conn with stream := { conn.stream with written := written } } := by
  simp only [sendContinue]
  split
  · refine ⟨conn.stream.written ++ ascii "HTTP/1.1 100 Continue\r\n\r\n", ?_⟩
    rw [writable.sendAll_run]
    simp only [Conn.withWritten, ← writable.departures_eq]
  · exact ⟨conn.stream.written, rfl⟩

theorem Conn.Ready.bodyStart (ready : conn.Ready config.limits input ended)
    (held : length ≤ conn.buffer.size) (request : Request) (contentLength : Option ℕ) :
    ∃ start, (sendContinue config request contentLength).run (conn.consume length) = .ok () start ∧
      start.Ready config.limits (input.drop length) ended ∧ start.body = conn.body ∧
      start.buffer.size = conn.buffer.size - length ∧
      start.stream.arrivals = conn.stream.arrivals := by
  have after := ready.holds.consume held
  have writable := ready.writable.of_after after
  have size : (conn.consume length).buffer.size = conn.buffer.size - length :=
    BufferCursor.size_consume held
  have size_le := ready.size_le
  rcases sendContinue_frame config request contentLength writable with ⟨_, ran⟩
  refine ⟨_, ran, ⟨⟨after.holds.isOpen, after.holds.clean⟩,
    ⟨writable.isOpen, writable.departures_eq⟩, ?_⟩, rfl, size, rfl⟩
  exact size.le.trans (by omega)

/-- A reader that returns a request, whose body went to the sink, or refuses. -/
abbrev RequestSpec (conn : Conn) (limits : Limits) (ended : Bool)
    (expected : Option (Request × Bytes × Bytes)) : EStateM.Result Exn Conn Request → Prop :=
  ReadSpec expected (ended = true) fun read result => Returns result read.1 fun conn' =>
    conn'.Ready limits read.2.2 ended ∧ conn'.body = conn.body ++ read.2.1

theorem readRequestBody_of_ready (ready : conn.Ready config.limits input ended)
    (request : Request) (contentLength : Option ℕ)
    (sane : ended = true → request.chunked = true → config.limits.Small ∧
      ∀ size ∈ Grammar.chunkSizes config.limits input, size < 2 ^ 63) :
    RequestSpec conn config.limits ended
      (Grammar.requestContent config.limits request contentLength input)
      ((readRequestBody config .collect request contentLength).run conn) := by
  rcases ready with ⟨holds, writable, size_le⟩
  by_cases chunked : request.chunked = true
  · simp only [readRequestBody, chunked, if_true, Grammar.requestContent]
    apply (readChunkedBodyStream_of_holds config.limits BodySink.additive_collect
      config.requestBodyDeadline true holds).map
    · intro final
      rcases sane final chunked with ⟨small, sizes⟩
      exact ⟨⟨final, size_le⟩, small, sizes⟩
    · rintro _ ⟨conn', ran, after, _⟩
      rw [run_bind, ran]
      exact ⟨conn', rfl, ⟨after.holds, writable.of_after after, by omega⟩, after.body_eq⟩
  · simp only [readRequestBody, chunked, Bool.false_eq_true, if_false, Grammar.requestContent]
    cases contentLength with
    | none => exact .of_some ⟨conn, rfl, ⟨holds, writable, size_le⟩, by simp⟩
    | some size =>
        apply (readFixedBodyStream_of_holds config.limits size BodySink.additive_collect
          config.requestBodyDeadline holds).map id
        rintro _ ⟨conn', ran, after, _⟩
        rw [run_bind, ran]
        exact ⟨conn', rfl, ⟨after.holds, writable.of_after after, by omega⟩, after.body_eq⟩

/-- Behind its head a request is read as the grammar reads it. -/
theorem finishRequest_of_ready (ready : conn.Ready config.limits input ended)
    (held : length ≤ conn.buffer.size)
    (sane : ended = true → Grammar.BodySane config.limits head (input.drop length)) :
    RequestSpec conn config.limits ended
      (Grammar.requestBody config.limits head (input.drop length))
      ((finishRequest config .collect length head).run conn) := by
  cases announced : requestOfHead head with
  | error error =>
      simp only [finishRequest, announced, Grammar.requestBody]
      exact .of_none fun _ => ⟨error, conn, rfl, isHttpError_of_requestOfHead announced⟩
  | ok framed =>
      rcases framed with ⟨request, contentLength⟩
      simp only [finishRequest, announced, Grammar.requestBody, run_bind, run_modify]
      by_cases unsupported : parseExpect request.headers = .unsupported
      · simp only [if_pos unsupported]
        exact .of_none fun _ => ⟨_, _, rfl, rfl⟩
      · simp only [if_neg unsupported, run_bind]
        rcases ready.bodyStart held request contentLength with ⟨_, ran, ready', body_eq, -⟩
        rw [ran]
        have spec := readRequestBody_of_ready ready' request contentLength fun final =>
          sane final request contentLength announced
        rw [RequestSpec, body_eq] at spec
        exact spec

/-- The head of the request is in the buffer. -/
structure HeadFound (config : Config) (conn : Conn) (input : Bytes) (ended : Bool) (length : ℕ)
    (head : RequestHead) (state : Conn) : Prop where
  ready : state.Ready config.limits input ended
  body_eq : state.body = conn.body
  held : length ≤ state.buffer.size
  found : config.parser.request config.limits.maxHeaderCount state.buffer.view 0 =
    .complete length head

theorem HeadFound.complete {state : Conn}
    (here : HeadFound config conn input ended length head state) :
    config.parser.request config.limits.maxHeaderCount (input.take state.buffer.size) 0 =
      .complete length head := by
  rw [← here.ready.holds.view_eq_take]
  exact here.found

theorem HeadFound.whole {state : Conn}
    (stable : PrefixStable (config.parser.request config.limits.maxHeaderCount))
    (here : HeadFound config conn input ended length head state) :
    config.parser.request config.limits.maxHeaderCount
      (input.take config.limits.maxHeaderBytes) 0 = .complete length head :=
  stable.take_mono here.ready.size_le here.complete

/-- What `read_request_stream` comes to: it finds a head and reads on behind it, or there is none.
If the network delivers single bytes, only the last turn can have completed the head. -/
inductive StreamOutcome (config : Config) (sink : BodySink) (conn : Conn) (input : Bytes)
    (ended : Bool) : EStateM.Result Exn Conn (Option Request) → Prop
  | found {lastLen length : ℕ} {head : RequestHead} {state : Conn}
      (here : HeadFound config conn input ended length head state)
      (noneYet : NoHead (config.parser.request config.limits.maxHeaderCount)
        (state.buffer.view.take lastLen))
      (lazily : conn.Trickles → state.Trickles ∧
        state.buffer.size ≤ max conn.buffer.size (lastLen + 1)) :
      StreamOutcome config sink conn input ended
        ((finishRequest config sink length head >>= fun request => pure (some request)).run state)
  | nothing {conn' : Conn} (none : NoHead (config.parser.request config.limits.maxHeaderCount)
      (input.take config.limits.maxHeaderBytes)) (empty : input = [])
      (room : config.limits.maxHeaderBytes ≠ 0) :
      StreamOutcome config sink conn input ended (.ok Option.none conn')
  | refused {error : Exn} {conn' : Conn}
      (none : NoHead (config.parser.request config.limits.maxHeaderCount)
        (input.take config.limits.maxHeaderBytes)) (http : error.isHttpError = true)
      (nonempty : input ≠ [] ∨ config.limits.maxHeaderBytes = 0) :
      StreamOutcome config sink conn input ended (.error error conn')
  | waiting {conn' : Conn} (none : NoHead (config.parser.request config.limits.maxHeaderCount)
      (input.take config.limits.maxHeaderBytes)) (open_ : ended = false) :
      StreamOutcome config sink conn input ended (.error .suspended conn')

/-- Every way in which `read_request_stream` can end, by what the head was. -/
theorem readRequestStream_outcome (sink : BodySink)
    (stable : PrefixStable (config.parser.request config.limits.maxHeaderCount))
    (ready : conn.Ready config.limits input ended) :
    StreamOutcome config sink conn input ended ((readRequestStream config sink).run conn) := by
  simp only [readRequestStream, run_bind, run_get]
  apply loop_total (fun lastLen state => conn.After state input ended conn.body ∧
      state.buffer.size ≤ config.limits.maxHeaderBytes ∧
      NoHead (config.parser.request config.limits.maxHeaderCount)
        (state.buffer.view.take lastLen) ∧
      (conn.Trickles → state.buffer.size ≤ max conn.buffer.size (lastLen + 1)))
    (fun _ state => state.incoming)
  · rintro lastLen state ⟨after, size_le, noneYet, lazily⟩
    have outcome := headStep_of_holds stable requestErrors_areHttp config.limits
      ⟨config.timeouts.readHeaders, 408, "request header read timeout"⟩ after.holds size_le noneYet
    simp only [readRequestTurn, run_bind]
    generalize (headStep (config.parser.request config.limits.maxHeaderCount) requestErrors
      config.limits ⟨config.timeouts.readHeaders, 408, "request header read timeout"⟩
      lastLen).run state = result at outcome
    cases outcome with
    | @complete length head seen _ held =>
        have here : HeadFound config conn input ended length head state :=
          ⟨⟨after.holds, ready.writable.of_after after, size_le⟩, after.body_eq, held, seen⟩
        have found : StreamOutcome config sink conn input ended _ :=
          .found here noneYet fun trickles => ⟨after.trickles trickles, lazily trickles⟩
        simp only [run_bind] at found ⊢
        cases ran : (finishRequest config sink length head).run state with
        | ok _ _ | error _ _ =>
            rw [ran] at found
            exact found
    | more after' size' fewer none single =>
        exact ⟨⟨after.trans (after.body_eq ▸ after'), size', none, fun trickles =>
          le_max_of_le_right (single (after.trickles trickles))⟩, fewer⟩
    | @eof state' whole _ room none buffer_eq =>
        have size := congrArg List.length whole
        rw [BufferCursor.length_view] at size
        simp only [run_bind, run_get, buffer_eq]
        split
        · exact .nothing none (List.length_eq_zero_iff.mp (by omega)) (by omega)
        next left =>
          apply StreamOutcome.refused none rfl
          left
          rintro rfl
          exact left size.symm
    | refused http none _ nonempty => exact .refused none http nonempty
    | waiting none stays _ => exact .waiting none stays
  · exact ⟨ready.holds.after, ready.size_le, stable.noHead_nil, fun _ => le_max_left _ _⟩
  · exact conn.incoming_lt_fuel

theorem Grammar.request_of_noHead (none : NoHead
      (config.parser.request config.limits.maxHeaderCount)
      (input.take config.limits.maxHeaderBytes)) :
    Grammar.request config.parser config.limits input =
      if input = [] ∧ config.limits.maxHeaderBytes ≠ 0 then .ended else .rejected := by
  rw [Grammar.request]
  split
  next length head found => exact absurd found (none length head)
  · rfl

/-- The result of a reader of requests agrees with the grammar.  That there is no request need
not show before the stream ends. -/
def Grammar.RequestRead.Answers (limits : Limits) (ended : Bool)
    (result : EStateM.Result Exn Conn (Option Request)) : Grammar.RequestRead → Prop
  | .ended => ended = true → ∃ conn', result = .ok none conn'
  | .rejected => ended = true → Refuses result
  | .request received rest => Returns result (some received) fun conn' =>
      conn'.Ready limits rest ended

/-- `read_request` answers as the grammar does. -/
theorem readRequest_of_ready
    (stable : PrefixStable (config.parser.request config.limits.maxHeaderCount))
    (ready : conn.Ready config.limits input ended)
    (sane : ended = true → Grammar.RequestSane config.parser config.limits input) :
    (Grammar.request config.parser config.limits input).Answers config.limits ended
      ((readRequest config).run conn) := by
  have start : ({ conn with body := [] } : Conn).Ready config.limits input ended :=
    ready.congr rfl rfl
  have outcome := readRequestStream_outcome .collect stable start
  simp only [readRequest, run_bind, run_modify]
  generalize (readRequestStream config .collect).run { conn with body := [] } = result at outcome
  cases outcome with
  | @found _ length head state here _ _ =>
      have whole := here.whole stable
      have spec := finishRequest_of_ready here.ready here.held fun final =>
        sane final length head whole
      simp only [Grammar.request, whole, run_bind]
      cases body : Grammar.requestBody config.limits head (input.drop length) with
      | none =>
          intro final
          rcases spec.rejects body final with ⟨error, conn', failed, http⟩
          rw [failed]
          exact ⟨error, conn', rfl, http⟩
      | some read =>
          rcases spec.accepts body with ⟨conn', ran, ready', filled⟩
          rw [ran]
          refine ⟨conn', ?_, ready'⟩
          simp [filled, here.body_eq]
  | nothing none empty room =>
      rw [Grammar.request_of_noHead none, if_pos ⟨empty, room⟩]
      exact fun _ => ⟨_, rfl⟩
  | refused none http nonempty =>
      rw [Grammar.request_of_noHead none, if_neg (by tauto)]
      exact fun _ => ⟨_, _, rfl, http⟩
  | waiting none stays =>
      have goesOn : ¬ended = true := by simp [stays]
      rw [Grammar.request_of_noHead none]
      by_cases drained : input = [] ∧ config.limits.maxHeaderBytes ≠ 0
      · rw [if_pos drained]
        exact fun final => absurd final goesOn
      · rw [if_neg drained]
        exact fun final => absurd final goesOn

/-- Repeated calls of `read_request`: the requests returned before the first
`nullopt` or exception, and which of the two it was. -/
def readRequestsWithin (config : Config) : ℕ → Conn → List Request × Except Exn Unit
  | 0, _ => ([], .error .exhausted)
  | fuel + 1, conn =>
      match (readRequest config).run conn with
      | .ok none _ => ([], .ok ())
      | .ok (some request) conn' =>
          let later := readRequestsWithin config fuel conn'
          (request :: later.1, later.2)
      | .error error _ => ([], .error error)

/-- Every request takes at least one byte. -/
def readRequests (config : Config) (conn : Conn) : List Request × Except Exn Unit :=
  readRequestsWithin config (conn.backlog + 1) conn

/-- A run of `read_request` calls is what the grammar reads. -/
structure RequestsRead (expected : List Request × Bool)
    (run : List Request × Except Exn Unit) : Prop where
  requests_eq : run.1 = expected.1
  clean : expected.2 = true → run.2 = .ok ()
  failed : expected.2 = false → ∃ error, run.2 = .error error ∧ error.isHttpError = true

namespace Grammar

variable {limits : Limits} {received : Request} {input rest : Bytes}

theorem length_rest_of_requestContent {request : Request} {contentLength : Option ℕ}
    {content : Bytes}
    (read : requestContent limits request contentLength input = some (received, content, rest)) :
    rest.length ≤ input.length := by
  simp only [requestContent] at read
  split at read
  · rcases Option.map_eq_some_iff.mp read with ⟨⟨_, _, _⟩, body, same⟩
    cases same
    exact length_rest_of_chunkedBody body
  · split at read
    · rcases Option.map_eq_some_iff.mp read with ⟨⟨_, _⟩, body, same⟩
      cases same
      rcases fixedBody_eq_some body with ⟨-, -, -, rfl⟩
      simp
    · cases read
      exact le_rfl

theorem length_rest_of_request {parser : HeadParser}
    (stable : PrefixStable (parser.request limits.maxHeaderCount))
    (read : request parser limits input = .request received rest) : rest.length < input.length := by
  simp only [request] at read
  split at read
  next length head found =>
    have bounds := stable.bounds found
    simp only [List.length_take] at bounds
    split at read
    next announced content behind body =>
      simp only [RequestRead.request.injEq] at read
      rcases read with ⟨-, rfl⟩
      simp only [requestBody] at body
      split at body
      · cases body
      · split at body
        · cases body
        · have shorter := length_rest_of_requestContent body
          simp only [List.length_drop] at shorter
          omega
    · cases read
  · split at read
    · cases read
    · cases read

end Grammar

variable {config : Config} {arrivals : List Arrival} {input : Bytes}

/-- A connection read to its end gives the requests of the grammar, in order. -/
theorem readRequestsWithin_of_ready
    (stable : PrefixStable (config.parser.request config.limits.maxHeaderCount)) :
    ∀ (bound fuel : ℕ) (input : Bytes) (conn : Conn), input.length < bound → input.length < fuel →
      conn.Ready config.limits input true →
      Grammar.StreamSane config.parser config.limits bound input →
      RequestsRead (Grammar.requestsWithin config.parser config.limits bound input)
        (readRequestsWithin config fuel conn) := by
  intro bound
  induction bound with
  | zero =>
      intro fuel input _ below
      exact absurd below (Nat.not_lt_zero _)
  | succ _ ih =>
      intro fuel input _ _ enough ready sane
      cases fuel with
      | zero => exact absurd enough (Nat.not_lt_zero _)
      | succ fuel =>
          have answer := readRequest_of_ready stable ready fun _ => sane.1
          simp only [Grammar.requestsWithin, readRequestsWithin]
          cases read : Grammar.request config.parser config.limits input with
          | ended =>
              rw [read] at answer
              rcases answer rfl with ⟨conn', ran⟩
              rw [ran]
              exact ⟨rfl, fun _ => rfl, by simp⟩
          | rejected =>
              rw [read] at answer
              rcases answer rfl with ⟨error, conn', ran, http⟩
              rw [ran]
              exact ⟨rfl, by simp, fun _ => ⟨error, rfl, http⟩⟩
          | request received rest =>
              have shorter := Grammar.length_rest_of_request stable read
              rw [read] at answer
              rcases answer with ⟨conn', ran, ready'⟩
              rw [ran]
              rcases ih fuel rest conn' (by omega) (by omega) ready'
                (sane.2 received rest read) with ⟨same, clean, failed⟩
              exact ⟨by simp [same], clean, failed⟩

/-- A new connection on which the given arrivals will come in. -/
def Conn.fresh (arrivals : List Arrival) : Conn :=
  { stream := { arrivals := arrivals } }

theorem Conn.ready_fresh {ended : Bool} (limits : Limits)
    (clean : contents arrivals = some (input, ended)) :
    (Conn.fresh arrivals).Ready limits input ended :=
  ⟨⟨rfl, input, clean, rfl⟩, ⟨rfl, rfl⟩, Nat.zero_le _⟩

theorem readRequests_of_contents
    (stable : PrefixStable (config.parser.request config.limits.maxHeaderCount))
    (clean : contents arrivals = some (input, true))
    (sane : Grammar.StreamSane config.parser config.limits (input.length + 1) input) :
    RequestsRead (Grammar.requestsWithin config.parser config.limits (input.length + 1) input)
      (readRequests config (Conn.fresh arrivals)) := by
  have ready := Conn.ready_fresh config.limits clean
  have bound := ready.holds.length_le_backlog
  exact readRequestsWithin_of_ready stable _ _ input _ (Nat.lt_succ_self _)
    (Nat.lt_succ_of_le bound) ready sane

/-- Two runs end the same way: both cleanly, or both with an `http::Error`. -/
def SameEnding (first second : Except Exn Unit) : Prop :=
  (first = .ok () ∧ second = .ok ()) ∨
    ∃ error error', first = .error error ∧ second = .error error' ∧
      error.isHttpError = true ∧ error'.isHttpError = true

/-- Reading requests gives the same requests and the same kind of ending however
the stream is cut into pieces. -/
theorem readRequests_segmentation (config : Config) (input : Bytes)
    (first second : List Arrival)
    (stable : PrefixStable (config.parser.request config.limits.maxHeaderCount))
    (bodySmall : config.limits.maxBodyBytes < 2 ^ 62)
    (headerSmall : config.limits.maxHeaderBytes < 2 ^ 62)
    (sizes : ∀ size ∈ Grammar.streamChunkSizes config.parser config.limits input, size < 2 ^ 63)
    (firstClean : contents first = some (input, true))
    (secondClean : contents second = some (input, true)) :
    (readRequests config (Conn.fresh first)).1 = (readRequests config (Conn.fresh second)).1 ∧
      SameEnding (readRequests config (Conn.fresh first)).2
        (readRequests config (Conn.fresh second)).2 := by
  have sane := Grammar.streamSane_of_chunkSizes ⟨bodySmall, headerSmall⟩ _ input sizes
  have one := readRequests_of_contents stable firstClean sane
  have two := readRequests_of_contents stable secondClean sane
  refine ⟨one.requests_eq.trans two.requests_eq.symm, ?_⟩
  cases ending : (Grammar.requestsWithin config.parser config.limits
    (input.length + 1) input).2 with
  | true => exact .inl ⟨one.clean ending, two.clean ending⟩
  | false =>
      rcases one.failed ending with ⟨error, ended, http⟩
      rcases two.failed ending with ⟨error', ended', http'⟩
      exact .inr ⟨error, error', ended, ended', http, http'⟩

def pingText : Bytes := ascii "POST /ping HTTP/1.1\r\nContent-Length: 2\r\n\r\n"

def pingHead : RequestHead :=
  ⟨ascii "POST", ascii "/ping", 1, [⟨some (ascii "Content-Length"), ascii "2"⟩]⟩

/-- A server that is only ever asked for `/ping`. -/
def pingConfig : Config :=
  { parser := ⟨fun _ => singleHead pingText pingHead, fun _ _ _ => .malformed⟩ }

/-- Two requests, in one piece and in three. -/
theorem readRequests_segmentation_ping :
    (readRequests pingConfig (Conn.fresh
        [.data (pingText ++ ascii "ab" ++ pingText ++ ascii "cd"), .eof])).1.length = 2 ∧
      (readRequests pingConfig (Conn.fresh
        [.data (pingText ++ ascii "ab" ++ pingText ++ ascii "cd"), .eof])).1 =
      (readRequests pingConfig (Conn.fresh
        [.data (pingText.take 7), .data (pingText.drop 7 ++ ascii "a"),
          .data (ascii "b" ++ pingText ++ ascii "cd"), .eof])).1 := by
  refine ⟨by decide +kernel, ?_⟩
  exact (readRequests_segmentation pingConfig (pingText ++ ascii "ab" ++ pingText ++ ascii "cd")
    _ _ (prefixStable_singleHead (by decide) pingHead) (by decide) (by decide)
    (by decide +kernel) (by decide +kernel) (by decide +kernel)).1

end Corouv.Http
