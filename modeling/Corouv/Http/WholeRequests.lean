import Corouv.Http.Correlation
import Corouv.Http.Interim
import Corouv.Http.Quiet
import Corouv.Http.ReferenceRequest

/-!
# Whole requests on the wire

After a call of `Client::request` that returned, what the client has written on a
connection it keeps is to be a sequence of whole requests.  A request that expects
`100 Continue` and gets another response is left without its body, and the connection is
kept if that response does not end it.
-/

namespace Corouv.Http

open Library Io

/-- The body that the fields of a head announce: of the given length, or in chunks. -/
inductive Announces (headers : Headers) : Bytes → Prop
  | sized {body : Bytes} (encoding : parseTransferEncoding headers = .ok .none)
      (length : parseContentLength headers = .ok (some body.length)) : Announces headers body
  | chunked {chunks : List Bytes} {trailers : Headers}
      (encoding : parseTransferEncoding headers = .ok .chunked)
      (length : parseContentLength headers = .ok none) (nonempty : ∀ chunk ∈ chunks, chunk ≠ [])
      (plain : ∀ trailer ∈ trailers, trailer.Plain) :
      Announces headers (chunkedBytes chunks trailers)

/-- A well-formed head with the body it announces. -/
def IsWholeRequest (message : Bytes) : Prop :=
  ∃ request headers body, Request.PlainHead request headers ∧ Announces headers body ∧
    message = requestHeadBytes request headers ++ body

def WholeRequests (written : Bytes) : Prop :=
  ∃ messages : List Bytes, (∀ message ∈ messages, IsWholeRequest message) ∧
    written = messages.flatten

theorem WholeRequests.nil : WholeRequests [] :=
  ⟨[], by simp, rfl⟩

theorem WholeRequests.append {written message : Bytes} (whole : WholeRequests written)
    (request : IsWholeRequest message) : WholeRequests (written ++ message) := by
  rcases whole with ⟨messages, each, rfl⟩
  refine ⟨messages ++ [message], ?_, by simp⟩
  intro other mem
  rcases List.mem_append.mp mem with earlier | last
  · exact each other earlier
  · rw [List.mem_singleton.mp last]
    exact request

/-- A request that can be sent as a whole: the fields are well formed, and no chunk is
empty. -/
@[mk_iff]
structure Request.Sendable (request : Request) : Prop where
  plain : request.PlainHead request.headers
  small : request.body.length < 2 ^ 64
  chunked : request.chunked = true → request.body ≠ [] ∧
    ∀ trailer ∈ request.trailers, trailer.Plain

instance (request : Request) : Decidable request.Sendable :=
  decidable_of_iff _ (Request.sendable_iff request).symm

/-- The head and the body that `write_request` sends. -/
def Request.message (defaultHost : Bytes) (request : Request) : Bytes :=
  RequestWriter.whole.head request defaultHost ++ RequestWriter.whole.content request

theorem Request.Sendable.isWholeRequest {request : Request} {defaultHost : Bytes}
    (sendable : request.Sendable) (host : IsPlainValue defaultHost) :
    IsWholeRequest (request.message defaultHost) := by
  refine ⟨request, RequestWriter.whole.headers request defaultHost,
    RequestWriter.whole.content request, ?_, ?_, rfl⟩
  · rw [RequestWriter.headers_eq]
    exact sendable.plain.outgoing host _ _
  · cases chunked : request.chunked with
    | true =>
        rcases sendable.chunked chunked with ⟨nonempty, plain⟩
        simp only [RequestWriter.headers, RequestWriter.content, chunked, if_true]
        apply Announces.chunked
        · exact parseTransferEncoding_outgoing request defaultHost true 0
        · exact parseContentLength_outgoing request defaultHost true (by norm_num)
        · intro _ mem
          rw [List.mem_singleton.mp mem]
          exact nonempty
        · exact plain
    | false =>
        simp only [RequestWriter.headers, RequestWriter.content, chunked, Bool.false_eq_true,
          if_false]
        apply Announces.sized
        · exact parseTransferEncoding_outgoing request defaultHost false _
        · exact parseContentLength_outgoing request defaultHost false sendable.small

/-- Once it has returned, the computation has written the data. -/
def Writes (data : Bytes) (task : Task Conn Unit) : Prop :=
  ∀ conn conn', task.run conn = .ok () conn' →
    conn'.stream.written = conn.stream.written ++ data

theorem writes_sendAll (data : Bytes) (deadline : Deadline) :
    Writes data (sendAll data deadline) := by
  intro conn _ ran
  have sending := sending_sendAll data deadline conn
  rw [ran] at sending
  cases sending with
  | nothing empty => rw [empty, List.append_nil]
  | done => rfl

theorem Writes.bind {first second : Bytes} {one two : Task Conn Unit} (begun : Writes first one)
    (done : Writes second two) : Writes (first ++ second) (one >>= fun _ => two) := by
  intro conn conn' ran
  rcases run_bind_eq_ok ran with ⟨_, middle, ranOne, ranTwo⟩
  rw [done middle conn' ranTwo, begun conn middle ranOne, List.append_assoc]

theorem writes_sendPieces (deadline : Deadline) (pieces : List Bytes) :
    Writes pieces.flatten (sendPieces deadline pieces) := by
  induction pieces with
  | nil =>
      intro _ _ ran
      cases ran
      rw [List.flatten_nil, List.append_nil]
  | cons _ _ ih =>
      rw [List.flatten_cons]
      exact (writes_sendAll _ _).bind ih

theorem writes_finish (config : Config) (request : Request) (writer : RequestWriter) :
    Writes (writer.content request) (writer.finish config request true) := by
  rw [← writer.flatten_pieces]
  exact writes_sendPieces _ _

theorem writes_writeRequest {request : Request} {defaultHost : Bytes} (config : Config)
    (proceeds : waitsForContinue request defaultHost = false) :
    Writes (request.message defaultHost) (writeRequest config request defaultHost) := by
  rw [show writeRequest config request defaultHost =
    RequestWriter.whole.write config request defaultHost from rfl]
  by_cases unsupported : request.versionMinor < 0 ∨ request.versionMinor > 1
  · rw [RequestWriter.write_unsupported _ _ _ _ unsupported]
    intro _ _ ran
    cases ran
  · rw [RequestWriter.write_eq _ _ _ _ unsupported, RequestWriter.waits, proceeds]
    exact (writes_sendAll _ _).bind (writes_finish _ _ _)

/-- The server lets the request be finished: it answers the head with `100 Continue`, or
with a response after which the connection is not kept. -/
def Conn.LetsFinish (config : Config) (outgoing : Request) (conn : Conn) : Prop :=
  ∃ input ended first content rest, conn.Ready config.limits input ended ∧
    Grammar.response config.parser config.limits outgoing.method false input =
      some (first, content, rest) ∧ (rest = none → ended = true) ∧
    (first.status = 100 ∨ (outgoing.keepAlive && first.keepAlive) = false)

section Call

variable {config : Config} {outgoing : Request} {hostHeader : Bytes} {conn conn' : Conn}
  {response : Response}

theorem exchange_eq_ok
    (ran : (exchange config outgoing hostHeader).run conn = .ok response conn') :
    ∃ middle, (writeRequest config outgoing hostHeader).run conn = .ok () middle ∧
      (readResponse config outgoing.method).run middle = .ok response conn' ∧
      conn'.stream.written = middle.stream.written := by
  rcases run_bind_eq_ok ran with ⟨_, middle, wrote, answered⟩
  have quiet := (responseLogic_preserves _ _).readResponse config outgoing.method middle
    ⟨rfl, rfl⟩
  rw [answered] at quiet
  exact ⟨middle, wrote, answered, quiet.written_eq⟩

variable (stable : PrefixStable (config.parser.response config.limits.maxHeaderCount))
  (supported : ¬(outgoing.versionMinor < 0 ∨ outgoing.versionMinor > 1))
include stable supported

/-- A kept connection has the whole message on the wire, with the body behind `100 Continue`. -/
theorem written_of_waits (waits : waitsForContinue outgoing hostHeader = true)
    (finishes : conn.LetsFinish config outgoing)
    (ran : (exchange config outgoing hostHeader).run conn = .ok response conn')
    (kept : (outgoing.keepAlive && response.keepAlive) = true) :
    conn'.stream.written = conn.stream.written ++ outgoing.message hostHeader := by
  rcases exchange_eq_ok ran with ⟨middle, wrote, received, written_eq⟩
  rcases finishes with ⟨input, _, first, _, _, ready, read, ending, allowed⟩
  have written := RequestWriter.whole.write_run config outgoing hostHeader ready.writable supported
  have sent := ready.withWritten (RequestWriter.whole.head outgoing hostHeader)
  rcases awaitContinue_of_message stable sent read ending with ⟨answered, -, left, awaited⟩
  have wrote' : (awaitContinue config outgoing.method >>=
      RequestWriter.whole.finish config outgoing).run
        (conn.withWritten [] (RequestWriter.whole.head outgoing hostHeader)) = .ok () middle := by
    rw [← wrote]
    exact (written.trans (if_pos waits)).symm
  by_cases hundred : first.status = 100
  · rw [if_pos hundred] at awaited
    have quiet := (responseLogic_preserves _ _).awaitContinue config outgoing.method _
      (⟨rfl, rfl⟩ : (conn.withWritten [] (RequestWriter.whole.head outgoing hostHeader)).Sent _ _)
    rw [awaited] at quiet
    have begun : answered.stream.written =
        conn.stream.written ++ RequestWriter.whole.head outgoing hostHeader := quiet.written_eq
    -- an interim response has an end, so the connection stays open
    have writable : answered.Writable := by
      have message := Grammar.firstMessage stable outgoing.method input
      rw [read] at message
      cases message with
      | final final _ =>
          rw [hundred] at final
          cases final
      | interim _ _ _ => exact (left _ rfl).writable
    rw [EStateM.run_bind, awaited] at wrote'
    simp only [RequestWriter.whole.finish_run config outgoing writable] at wrote'
    cases wrote'
    rw [written_eq, Request.message, ← List.append_assoc, ← begun]
    rfl
  · rw [if_neg hundred] at awaited
    rw [EStateM.run_bind, awaited] at wrote'
    cases wrote'
    cases received
    rcases allowed with continued | closing
    · exact absurd continued hundred
    · exact absurd (kept.symm.trans closing) (by simp)

theorem written_of_exchange
    (finishes : waitsForContinue outgoing hostHeader = true → conn.LetsFinish config outgoing)
    (ran : (exchange config outgoing hostHeader).run conn = .ok response conn')
    (kept : (outgoing.keepAlive && response.keepAlive) = true) :
    conn'.stream.written = conn.stream.written ++ outgoing.message hostHeader := by
  cases waits : waitsForContinue outgoing hostHeader with
  | true => exact written_of_waits stable supported waits (finishes waits) ran kept
  | false =>
      rcases exchange_eq_ok ran with ⟨middle, wrote, -, written_eq⟩
      rw [written_eq]
      exact writes_writeRequest config waits conn middle wrote

end Call

/-- A client in use, and whether a call has thrown. -/
structure Calls where
  client : Client
  failed : Bool := false

structure ClientCall where
  request : Request
  network : Network := {}

def Client.supply (network : Network) (client : Client) : Client :=
  { client with connection := client.connection.map (Conn.supply network) }

def Client.hostHeader (client : Client) : Bytes :=
  formatHostHeader client.scheme client.host client.port

/-- The request as the client sends it. -/
def ClientCall.outgoing (options : ClientOptions) (call : ClientCall) : Request :=
  { call.request with keepAlive := call.request.keepAlive && options.keepAlive }

/-- A call that has come to an end; one that still waits is no step. -/
def Calls.step (options : ClientOptions) (calls : Calls) (call : ClientCall) : Option Calls :=
  match (Client.request options call.request).run (calls.client.supply call.network) with
  | .ok _ client => some { calls with client := client }
  | .error .suspended _ => none
  | .error .exhausted _ => none
  | .error _ client => some ⟨client, true⟩

/-- No call has thrown before, the request can be sent as a whole, and if its body is held
back, the server lets it be finished. -/
structure ClientCall.Orderly (options : ClientOptions) (calls : Calls) (call : ClientCall) :
    Prop where
  unfailed : calls.failed = false
  sendable : call.request.Sendable
  host : IsPlainValue calls.client.hostHeader
  finishes : waitsForContinue (call.outgoing options) calls.client.hostHeader = true →
    ∀ conn, calls.client.connection = some conn → conn.stream.isOpen = true →
      (conn.supply call.network).LetsFinish options.config (call.outgoing options)

/-- A call has thrown, the client is disconnected, or what it has written are whole
requests. -/
def Calls.Whole (calls : Calls) : Prop :=
  calls.failed = false → calls.client.Keeps fun conn => WholeRequests conn.stream.written

variable {call : ClientCall}

theorem Request.Sendable.outgoing (sendable : call.request.Sendable) (options : ClientOptions) :
    (call.outgoing options).Sendable :=
  ⟨⟨sendable.plain.method_ne, sendable.plain.method, sendable.plain.target,
    sendable.plain.version, sendable.plain.headers⟩, sendable.small, sendable.chunked⟩

theorem Client.request_eq_ok {options : ClientOptions} {client client' : Client}
    {response : Response}
    (ran : (Client.request options call.request).run client = .ok response client') :
    ∃ conn conn', client.connection = some conn ∧ conn.stream.isOpen = true ∧
      (exchange options.config (call.outgoing options) client.hostHeader).run conn =
        .ok response conn' ∧
      (((call.outgoing options).keepAlive && response.keepAlive) = true ∧
          client'.connection = some conn' ∨ client'.connection = none) := by
  simp only [Client.request, EStateM.run] at ran
  split at ran
  · cases ran
  next conn found =>
    split at ran
    next isOpen =>
      split at ran
      · cases ran
      next received conn' exchanged =>
        split at ran
        next kept =>
          cases ran
          exact ⟨conn, conn', found, isOpen, exchanged, .inl ⟨kept, rfl⟩⟩
        · cases ran
          exact ⟨conn, conn', found, isOpen, exchanged, .inr rfl⟩
    · cases ran

/-- An orderly call leaves only whole requests on an open connection. -/
theorem Calls.whole_step {options : ClientOptions} {calls calls' : Calls}
    (stable : PrefixStable (options.config.parser.response options.config.limits.maxHeaderCount))
    (whole : calls.Whole) (orderly : call.Orderly options calls)
    (taken : calls.step options call = some calls') : calls'.Whole := by
  intro unfailed
  have before := whole orderly.unfailed
  simp only [Calls.step] at taken
  split at taken
  next response client ran =>
    cases taken
    rcases Client.request_eq_ok ran with ⟨_, _, found, isOpen, exchanged, outcome⟩
    rcases Option.map_eq_some_iff.mp found with ⟨conn, connected, rfl⟩
    rcases outcome with ⟨kept, connection⟩ | connection
    · intro _ same _
      rw [connection] at same
      cases same
      have sendable := orderly.sendable.outgoing options
      have written := written_of_exchange stable sendable.plain.supported
        (fun waits => orderly.finishes waits conn connected isOpen) exchanged kept
      rw [written]
      exact (before conn connected isOpen).append (sendable.isWholeRequest orderly.host)
    · intro _ same _
      rw [connection] at same
      cases same
  · cases taken
  · cases taken
  · cases taken
    cases unfailed

/-- In a run of calls each of which can be finished, what the client has written on its
connection are whole requests whenever a call has returned. -/
theorem whole_requests_written {options : ClientOptions} {scheme : Scheme} {host : Bytes}
    {port : ℕ} {calls : Calls}
    (stable : PrefixStable
      (options.config.parser.response options.config.limits.maxHeaderCount))
    (reached : Reached (Calls.step options) (fun calls call => call.Orderly options calls)
      ⟨⟨scheme, host, port, some {}⟩, false⟩ calls) :
    calls.failed = false → ∀ conn, calls.client.connection = some conn →
      conn.stream.isOpen = true → WholeRequests conn.stream.written := by
  have whole : calls.Whole := by
    apply reached.invariant
    · intro _ _ same _
      cases same
      exact WholeRequests.nil
    · intro _ _ _ whole orderly taken
      exact Calls.whole_step stable whole orderly taken
  exact whole

def connectedClient : Client :=
  ⟨.http, ascii "a", 80, some {}⟩

def referenceOptions : ClientOptions :=
  { config := referenceConfig }

/-- A request that is invited to send its body. -/
def invitedCall : ClientCall :=
  ⟨upload.request, { arrivals := [.data (continueBytes ++ okBytes "A")] }⟩

def chunkedCall : ClientCall :=
  ⟨{ method := ascii "POST", chunked := true, body := ascii "hi" },
    { arrivals := [.data (okBytes "B")] }⟩

theorem whole_requests_written_invited :
    ∃ calls conn, ((Calls.step referenceOptions ⟨connectedClient, false⟩ invitedCall).bind fun
        calls => calls.step referenceOptions chunkedCall) = some calls ∧
      calls.client.connection = some conn ∧ conn.stream.isOpen = true ∧
      WholeRequests conn.stream.written := by
  have begun : (Calls.step referenceOptions ⟨connectedClient, false⟩ invitedCall).map (fun calls =>
      (calls.failed, calls.client.hostHeader)) = some (false, ascii "a") := by
    decide +kernel
  have done : ((Calls.step referenceOptions ⟨connectedClient, false⟩ invitedCall).bind fun calls =>
      calls.step referenceOptions chunkedCall).map (fun calls => (calls.failed,
        calls.client.connection.map fun conn => conn.stream.isOpen)) = some (false, some true) := by
    decide +kernel
  rcases Option.map_eq_some_iff.mp begun with ⟨middle, first, middle_eq⟩
  rcases Option.map_eq_some_iff.mp done with ⟨calls, both, calls_eq⟩
  rcases Prod.mk.inj middle_eq with ⟨middle_unfailed, middle_host⟩
  rcases Prod.mk.inj calls_eq with ⟨unfailed, connection⟩
  rcases Option.map_eq_some_iff.mp connection with ⟨conn, connected, isOpen⟩
  have second : middle.step referenceOptions chunkedCall = some calls := by
    rw [first] at both
    exact both
  have hundred : Grammar.response referenceConfig.parser referenceConfig.limits
      upload.request.method false (continueBytes ++ okBytes "A") =
        some ({ status := 100, reason := ascii "Continue" }, [], some (okBytes "A")) := by
    decide +kernel
  have invited : invitedCall.Orderly referenceOptions ⟨connectedClient, false⟩ := by
    refine ⟨rfl, by decide +kernel, by decide +kernel, ?_⟩
    intro _ _ same _
    cases same
    exact ⟨_, false, _, _, _, ⟨⟨rfl, _, rfl, rfl⟩, ⟨rfl, rfl⟩, Nat.zero_le _⟩, hundred,
      by simp, .inl rfl⟩
  have chunked : chunkedCall.Orderly referenceOptions middle := by
    refine ⟨middle_unfailed, by decide +kernel, ?_, ?_⟩
    · rw [middle_host]
      decide +kernel
    · intro waits
      rw [middle_host] at waits
      exact absurd waits (by decide +kernel)
  have reached := Reached.step (Reached.step .start invited first) chunked second
  exact ⟨calls, conn, both, connected, isOpen, whole_requests_written
    (Reference.contract referenceConfig.limits).stable reached unfailed conn connected isOpen⟩

theorem length_serializeHeaders (headers : Headers) :
    4 * headers.length ≤ (serializeHeaders headers).length := by
  induction headers with
  | nil => exact Nat.le_refl _
  | cons _ _ ih =>
      simp only [serializeHeaders, List.flatMap_cons, List.length_append, List.length_cons] at ih ⊢
      have separators : (ascii ": ").length + crlf.length = 4 := rfl
      omega

theorem WholeRequests.parsed {written : Bytes} (whole : WholeRequests written)
    (nonempty : written ≠ []) (short : written.length ≤ 400) :
    ∃ request headers body rest, Announces headers body ∧
      written = requestHeadBytes request headers ++ (body ++ rest) ∧
      duplexConfig.parser.request 100 written 0 =
        .complete (requestHeadBytes request headers).length (request.parsedHead headers) := by
  rcases whole with ⟨messages, each, rfl⟩
  cases messages with
  | nil => exact absurd rfl nonempty
  | cons message later =>
      rcases each message (by simp) with ⟨request, headers, body, plain, announces, rfl⟩
      have few : headers.length ≤ 100 := by
        have := length_serializeHeaders headers
        simp only [List.flatten_cons, requestHeadBytes, List.length_append] at short
        omega
      refine ⟨request, headers, body, later.flatten, announces, by simp, ?_⟩
      rw [List.flatten_cons, List.append_assoc]
      apply (Reference.prefixStable_request _).append
      exact Reference.parsesBack duplexConfig rfl plain few

/-- The head is answered with a response that keeps the connection. -/
def refusedCall : ClientCall :=
  ⟨upload.request, { arrivals := [.data (okBytes "A")] }⟩

def refusedHeaders : Headers :=
  [⟨ascii "Expect", ascii "100-continue"⟩, ⟨ascii "Host", ascii "a"⟩,
    ⟨ascii "Connection", ascii "keep-alive"⟩, ⟨ascii "Content-Length", ascii "1"⟩]

/-- The server refuses the head with a final response and keeps the connection; the body is never
sent. -/
theorem refused_request_kept :
    ∃ calls conn, Calls.step referenceOptions ⟨connectedClient, false⟩ refusedCall = some calls ∧
      calls.failed = false ∧ calls.client.connection = some conn ∧ conn.stream.isOpen = true ∧
      ¬WholeRequests conn.stream.written := by
  have ran : (Calls.step referenceOptions ⟨connectedClient, false⟩ refusedCall).map (fun calls =>
      (calls.failed, calls.client.connection.map fun conn =>
        (conn.stream.isOpen, conn.stream.written))) =
      some (false, some (true, requestHeadBytes upload.request refusedHeaders)) := by
    decide +kernel
  rcases Option.map_eq_some_iff.mp ran with ⟨calls, taken, calls_eq⟩
  rcases Prod.mk.inj calls_eq with ⟨unfailed, connection⟩
  rcases Option.map_eq_some_iff.mp connection with ⟨conn, connected, conn_eq⟩
  rcases Prod.mk.inj conn_eq with ⟨isOpen, written⟩
  refine ⟨calls, conn, taken, unfailed, connected, isOpen, ?_⟩
  intro whole
  rw [written] at whole
  rcases whole.parsed (by decide +kernel) (by decide +kernel) with
    ⟨_, headers, body, _, announces, parts, parsed⟩
  have found : duplexConfig.parser.request 100 (requestHeadBytes upload.request refusedHeaders) 0 =
      .complete (requestHeadBytes upload.request refusedHeaders).length
        (upload.request.parsedHead refusedHeaders) := by
    decide +kernel
  rcases Parsed.complete.inj (found.symm.trans parsed) with ⟨_, head_eq⟩
  -- the head takes all that was written, and its fields announce a body of one byte
  have nothing : body = [] := by
    have := congrArg List.length parts
    simp only [List.length_append] at this
    exact List.length_eq_zero_iff.mp (by omega)
  have headers_eq : refusedHeaders = headers := by
    have := congrArg (fun head => copyHeaders head.headers) head_eq
    simpa only [Request.parsedHead, copyHeaders_named] using this
  subst headers_eq
  have announced : parseTransferEncoding refusedHeaders = .ok .none ∧
      parseContentLength refusedHeaders = .ok (some 1) := by
    decide +kernel
  cases announces with
  | sized _ length =>
      rw [announced.2, nothing] at length
      cases length
  | chunked encoding _ _ _ =>
      cases encoding

end Corouv.Http
