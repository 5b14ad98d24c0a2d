import Corouv.Http.ChunkedRoundTrip
import Corouv.Http.Delivery
import Corouv.Http.RaisedLimits
import Corouv.Http.RequestRoundTrip

/-!
# Strings that break out of a request

`write_request` checks the version of a request and nothing else: method, target, fields and the
default host are put on the wire as they are.  Whether the bytes are read as the one request
they stand for is decided by the parser and by the reader.  The strings that arrive are exactly
those that a parser could report; from there on the head is known, and what is left is to follow
the reader through the body.
-/

namespace Corouv.Http

open Library Io
open EStateM (run_bind run_modify)

/-- A field of which nothing but the blanks around its value can get lost. -/
@[mk_iff]
structure Header.Printable (header : Header) : Prop where
  name_ne : header.name ≠ []
  name : ∀ byte ∈ header.name, isTokenByte byte = true
  value : ∀ byte ∈ header.value, isTextByte byte = true

instance (header : Header) : Decidable header.Printable :=
  decidable_of_iff _ (Header.printable_iff header).symm

def Header.trimmed (header : Header) : Header :=
  ⟨header.name, trimCopy header.value⟩

/-- The strings of a head, with the given fields. -/
@[mk_iff]
structure Request.PrintableHead (request : Request) (headers : Headers) : Prop where
  method_ne : request.method ≠ []
  method : ∀ byte ∈ request.method, isTokenByte byte = true
  target : ∀ byte ∈ request.target, isTargetByte byte = true
  version : request.versionMinor = 0 ∨ request.versionMinor = 1
  headers : ∀ header ∈ headers, header.Printable

/-- A head as it is reported; a line without a name continues the one before. -/
@[mk_iff]
structure RequestHead.Printable (head : RequestHead) : Prop where
  method_ne : head.method ≠ []
  method : ∀ byte ∈ head.method, isTokenByte byte = true
  path : ∀ byte ∈ head.path, isTargetByte byte = true
  names : ∀ raw ∈ head.headers, ∀ name ∈ raw.name,
    name ≠ [] ∧ ∀ byte ∈ name, isTokenByte byte = true
  values : ∀ raw ∈ head.headers, ∀ byte ∈ raw.value, isTextByte byte = true

/-- What is assumed of `phr_parse_request` at the head of a request: printable strings are taken
apart where they were joined, without the blanks around the values, and nothing but printable
strings is ever reported. -/
structure RequestContract (config : Config) (request : Request) (headers : Headers) : Prop where
  stable : PrefixStable (config.parser.request config.limits.maxHeaderCount)
  reads : request.PrintableHead headers → headers.length ≤ config.limits.maxHeaderCount →
    config.parser.request config.limits.maxHeaderCount (requestHeadBytes request headers) 0 =
      .complete (requestHeadBytes request headers).length
        (request.parsedHead (headers.map Header.trimmed))
  reports : ∀ {view length head},
    config.parser.request config.limits.maxHeaderCount view 0 = .complete length head →
      head.Printable ∧ head.headers.length ≤ config.limits.maxHeaderCount

/-- The request that was read is the one that was to be sent, with the fields `write_request`
sends for it. -/
structure Request.Arrives (defaultHost : Bytes) (request received : Request) : Prop where
  method : received.method = request.method
  target : received.target = request.sentTarget
  headers : received.headers = RequestWriter.whole.headers request defaultHost
  body : received.body = request.body
  trailers : request.chunked = true → received.trailers = request.trailers

/-- In whatever pieces the bytes come in, they are read as the request, and nothing is left. -/
def Request.ReadAlone (server : Config) (defaultHost : Bytes) (request : Request)
    (sent : Bytes) : Prop :=
  ∀ arrivals, contents arrivals = some (sent, true) → ∃ received conn' conn'',
    (readRequest server).run (Conn.fresh arrivals) = .ok (some received) conn' ∧
      (readRequest server).run conn' = .ok none conn'' ∧ request.Arrives defaultHost received

/-- `write_request` throws before it has written anything, or the bytes it writes are read as
the request alone. -/
def Request.Uninjected (client server : Config) (defaultHost : Bytes) (request : Request)
    (conn : Conn) : Prop :=
  match (writeRequest client request defaultHost).run conn with
  | .error _ conn' => conn'.stream.written = conn.stream.written
  | .ok _ conn' => ∃ sent, conn'.stream.written = conn.stream.written ++ sent ∧
      request.ReadAlone server defaultHost sent

/-- Strings that stay where they are put, in a head the reader has room for. -/
structure Request.CleanHead (defaultHost : Bytes) (limits : Limits) (request : Request) : Prop
    extends request.PrintableHead (RequestWriter.whole.headers request defaultHost) where
  trimmed : ∀ header ∈ RequestWriter.whole.headers request defaultHost,
    trimCopy header.value = header.value
  head : (RequestWriter.whole.head request defaultHost).length ≤ limits.maxHeaderBytes
  count : (RequestWriter.whole.headers request defaultHost).length ≤ limits.maxHeaderCount

/-- A body that is sent as one chunk: it is not taken for the end of the body, and the limits
leave room for it and for the line with its size.  The trailers are lines within the limits. -/
structure Request.CleanChunk (limits : Limits) (request : Request) : Prop where
  body_ne : request.body ≠ []
  sizeLine : (Numeral.digits 16 request.body.length).length + 2 ≤ limits.maxHeaderBytes
  room : request.body.length + 2 ≤ chunkBufferLimit limits 0
  trailers : ∀ trailer ∈ request.trailers, trailer.Sendable
  lines : ∀ trailer ∈ request.trailers,
    trailer.name.length + trailer.value.length + 4 ≤ limits.maxHeaderBytes
  count : request.trailers.length ≤ limits.maxHeaderCount

structure Request.Clean (defaultHost : Bytes) (limits : Limits) (request : Request) : Prop
    extends request.CleanHead defaultHost limits where
  expect : parseExpect request.headers ≠ .unsupported
  body : request.body.length ≤ limits.maxBodyBytes
  chunk : request.chunked = true → request.CleanChunk limits

/-- Folding lines into the field before keeps names tokens and values text. -/
theorem copyHeaders_printable {raws : List RawHeader}
    (names : ∀ raw ∈ raws, ∀ name ∈ raw.name,
      name ≠ [] ∧ ∀ byte ∈ name, isTokenByte byte = true)
    (values : ∀ raw ∈ raws, ∀ byte ∈ raw.value, isTextByte byte = true) :
    (∀ header ∈ copyHeaders raws, header.Printable) ∧
      (copyHeaders raws).length ≤ raws.length := by
  induction raws using List.reverseRecOn with
  | nil => simp [copyHeaders]
  | append_singleton raws raw ih =>
      simp only [List.forall_mem_append, List.forall_mem_singleton] at names values
      rcases ih names.1 values.1 with ⟨before, short⟩
      have step : copyHeaders (raws ++ [raw]) = copyHeader (copyHeaders raws) raw := by
        simp [copyHeaders]
      rw [step, copyHeader, List.length_append, List.length_singleton]
      split
      next name named =>
        have token := names.2 name named
        refine ⟨List.forall_mem_append.mpr ⟨before, ?_⟩, by simpa using short⟩
        rw [List.forall_mem_singleton]
        exact ⟨token.1, token.2, values.2⟩
      · split
        · exact ⟨before, by omega⟩
        next last found =>
          -- a continuation is joined to the value by a space
          have final := before last (List.mem_of_getLast? found)
          have text : ∀ byte ∈ last.value ++ ascii " " ++ raw.value, isTextByte byte = true := by
            simp only [List.forall_mem_append]
            exact ⟨⟨final.value, by decide +kernel⟩, values.2⟩
          refine ⟨List.forall_mem_append.mpr
            ⟨fun header mem => before header (List.mem_of_mem_dropLast mem), ?_⟩, by simp; omega⟩
          rw [List.forall_mem_singleton]
          exact ⟨final.name_ne, final.name, text⟩

section Reading

variable {config : Config} {conn conn' : Conn} {input : Bytes} {ended : Bool}
  {head : RequestHead} {request : Request}

theorem requestOfHead_announced {announced : Request} {contentLength : Option ℕ}
    (framed : requestOfHead head = .ok (announced, contentLength)) :
    announced.method = head.method ∧ announced.target = head.path ∧
      announced.headers = copyHeaders head.headers := by
  simp only [requestOfHead] at framed
  split at framed
  · cases framed
  · split at framed
    · cases framed
    · split at framed
      · cases framed
      · cases framed
        exact ⟨rfl, rfl, rfl⟩

theorem readRequestBody_announced {announced : Request} {contentLength : Option ℕ} {sink : BodySink}
    (ran : (readRequestBody config sink announced contentLength).run conn = .ok request conn') :
    request = { announced with trailers := request.trailers } := by
  simp only [readRequestBody] at ran
  split at ran
  · rcases run_bind_eq_ok ran with ⟨_, _, -, same⟩
    cases same
    rfl
  · split at ran
    · rcases run_bind_eq_ok ran with ⟨_, _, -, same⟩
      cases same
      rfl
    · cases ran
      rfl

theorem finishRequest_announced {length : ℕ} {sink : BodySink}
    (ran : (finishRequest config sink length head).run conn = .ok request conn') :
    request.method = head.method ∧ request.target = head.path ∧
      request.headers = copyHeaders head.headers := by
  simp only [finishRequest] at ran
  split at ran
  · cases ran
  next framed =>
    rcases run_bind_eq_ok ran with ⟨_, _, -, later⟩
    split at later
    · cases later
    · rcases run_bind_eq_ok later with ⟨_, _, -, read⟩
      have announced := requestOfHead_announced framed
      rw [readRequestBody_announced read]
      exact announced

/-- `read_request` returns what a head in the input announces, and `nullopt` only at the end. -/
theorem readRequest_returns {result : Option Request}
    (stable : PrefixStable (config.parser.request config.limits.maxHeaderCount))
    (ready : conn.Ready config.limits input ended)
    (ran : (readRequest config).run conn = .ok result conn') :
    (result = none → input = []) ∧ ∀ received, result = some received → ∃ length head,
      config.parser.request config.limits.maxHeaderCount
        (input.take config.limits.maxHeaderBytes) 0 = .complete length head ∧
      received.method = head.method ∧ received.target = head.path ∧
      received.headers = copyHeaders head.headers := by
  have start : ({ conn with body := [] } : Conn).Ready config.limits input ended :=
    ready.congr rfl rfl
  have outcome := readRequestStream_outcome .collect stable start
  rw [readRequest, run_bind, run_modify] at ran
  rcases run_bind_eq_ok ran with ⟨streamed, _, read, same⟩
  rw [read] at outcome
  generalize returned : EStateM.Result.ok streamed _ = answer at outcome
  cases outcome with
  | @found _ length head _ here _ _ =>
      rcases run_bind_eq_ok returned.symm with ⟨request, _, finished, same'⟩
      cases same'
      cases same
      have announced := finishRequest_announced finished
      refine ⟨by simp, ?_⟩
      rintro _ ⟨⟩
      exact ⟨length, head, here.whole stable, announced⟩
  | nothing _ empty _ =>
      cases returned
      cases same
      exact ⟨fun _ => empty, by simp⟩
  | refused | waiting => cases returned

end Reading

section Head

variable {server : Config} {request : Request} {defaultHost content : Bytes}
  (contract : RequestContract server request (RequestWriter.whole.headers request defaultHost))
include contract

/-- What arrives could have been reported, so it is printable.  Printable strings are taken apart
where they were joined, without the blanks around the values; so there are none. -/
theorem Request.ReadAlone.cleanHead
    (supported : ¬(request.versionMinor < 0 ∨ request.versionMinor > 1))
    (alone : request.ReadAlone server defaultHost
      (RequestWriter.whole.head request defaultHost ++ content)) :
    request.CleanHead defaultHost server.limits := by
  rcases alone _ (contents_trickle _ true) with ⟨received, _, _, ran, -, arrives⟩
  have ready := Conn.ready_fresh server.limits (contents_trickle
    (RequestWriter.whole.head request defaultHost ++ content) true)
  rcases (readRequest_returns contract.stable ready ran).2 received rfl with
    ⟨length, head, found, method, target, headers⟩
  rcases contract.reports found with ⟨reported, few⟩
  rcases copyHeaders_printable reported.names reported.values with ⟨fields, count⟩
  rw [arrives.method] at method
  rw [arrives.target, Request.sentTarget] at target
  rw [← headers, arrives.headers] at fields count
  have printable : request.PrintableHead (RequestWriter.whole.headers request defaultHost) := by
    refine ⟨method ▸ reported.method_ne, method ▸ reported.method, ?_, by omega, fields⟩
    have path := reported.path
    rw [← target] at path
    split at path
    next empty => simp [empty]
    · exact path
  have parsed := contract.stable.append (contract.reads printable (count.trans few)) content
  rw [← RequestWriter.head, contract.stable.of_take found] at parsed
  have bounds := (contract.stable.bounds found).2
  cases parsed
  have trimmed := (headers.trans (copyHeaders_named _)).symm.trans arrives.headers
  rw [List.length_take] at bounds
  refine ⟨printable, ?_, bounds.trans (Nat.min_le_left _ _), count.trans few⟩
  intro header mem
  exact congrArg Header.value
    (List.map_inj_left.mp (trimmed.trans (List.map_id _).symm) header mem)

section Body

variable (clean : request.CleanHead defaultHost server.limits)
include clean

theorem Request.CleanHead.parsed :
    server.parser.request server.limits.maxHeaderCount
        (RequestWriter.whole.head request defaultHost) 0 =
      .complete (RequestWriter.whole.head request defaultHost).length
        (request.parsedHead (RequestWriter.whole.headers request defaultHost)) := by
  have read := contract.reads clean.toPrintableHead clean.count
  have trimmed : (RequestWriter.whole.headers request defaultHost).map Header.trimmed =
      RequestWriter.whole.headers request defaultHost := by
    refine (List.map_congr_left ?_).trans (List.map_id _)
    intro header mem
    rw [Header.trimmed, clean.trimmed header mem]
    rfl
  rw [trimmed] at read
  exact read

theorem Request.CleanHead.read : Grammar.uncappedRequest server.parser server.limits
      (RequestWriter.whole.head request defaultHost ++ content) =
    (Grammar.uncappedBody server.limits
      (request.parsedHead (RequestWriter.whole.headers request defaultHost)) content).map
        fun read => ({ read.1 with body := read.2.1 }, read.2.2) := by
  simp only [Grammar.uncappedRequest,
    contract.stable.take_append (clean.parsed contract) clean.head content, List.drop_left]

theorem Request.CleanHead.requestChunks : Grammar.requestChunks server.parser
      server.limits.maxHeaderCount (RequestWriter.whole.head request defaultHost ++ content) =
    Grammar.headChunks
      (request.parsedHead (RequestWriter.whole.headers request defaultHost)) content := by
  rw [Grammar.requestChunks_of_complete (contract.stable.append (clean.parsed contract) content),
    List.drop_left]

/-- The parser finds the head as soon as it is there, so no chunk need be in the buffer. -/
theorem Request.CleanHead.streamRoom_iff :
    Grammar.StreamRoom server.parser server.limits
        (RequestWriter.whole.head request defaultHost ++ content) ↔
      Grammar.Room server.limits 0 0 (Grammar.headChunks
        (request.parsedHead (RequestWriter.whole.headers request defaultHost)) content) := by
  rw [Grammar.StreamRoom, clean.requestChunks contract]
  constructor
  · intro room
    have early := room (RequestWriter.whole.head request defaultHost).length _ _ (by
      rw [List.take_left]
      exact clean.parsed contract)
    rw [Nat.sub_self] at early
    exact early
  · intro room _ _ _ _
    exact Grammar.Room.mono (Nat.zero_le _) room

/-- The request is read as it was announced. -/
theorem Request.CleanHead.arrives {conn conn' : Conn} {received : Request}
    (ready : conn.Ready server.limits (RequestWriter.whole.head request defaultHost ++ content)
      true) (ran : (readRequest server).run conn = .ok (some received) conn')
    (body : received.body = request.body)
    (trailers : request.chunked = true → received.trailers = request.trailers) :
    request.Arrives defaultHost received := by
  rcases (readRequest_returns contract.stable ready ran).2 received rfl with
    ⟨_, _, found, method, target, headers⟩
  rw [contract.stable.take_append (clean.parsed contract) clean.head content] at found
  cases found
  exact ⟨method, target, headers.trans (copyHeaders_named _), body, trailers⟩

end Body

variable (supported : ¬(request.versionMinor < 0 ∨ request.versionMinor > 1))
include supported

/-- Behind a clean head, the request arrives if its body is read, nothing is left, and there is
room for its chunks. -/
theorem readAlone_iff
    (moderate : Moderate (Grammar.headChunks
      (request.parsedHead (RequestWriter.whole.headers request defaultHost)) content)) :
    request.ReadAlone server defaultHost (RequestWriter.whole.head request defaultHost ++ content) ↔
      request.CleanHead defaultHost server.limits ∧
      (∃ received, Grammar.uncappedBody server.limits
        (request.parsedHead (RequestWriter.whole.headers request defaultHost)) content =
          some (received, request.body, []) ∧
        (request.chunked = true → received.trailers = request.trailers)) ∧
      Grammar.Room server.limits 0 0 (Grammar.headChunks
        (request.parsedHead (RequestWriter.whole.headers request defaultHost)) content) := by
  constructor
  · intro alone
    have clean := alone.cleanHead contract supported
    rcases alone _ (contents_trickle _ true) with ⟨_, _, _, ran, last, arrives⟩
    rw [← clean.requestChunks contract] at moderate
    rcases readRequest_eq_ok server contract.stable moderate (contents_trickle _ true) ran with
      ⟨_, uncapped, ready, room⟩
    have nothing := (readRequest_returns contract.stable ready last).1 rfl
    rw [nothing, clean.read contract] at uncapped
    rcases Option.map_eq_some_iff.mp uncapped with ⟨⟨received, _, _⟩, found, same⟩
    cases same
    rw [clean.streamRoom_iff contract] at room
    exact ⟨clean, ⟨received, arrives.body ▸ found, arrives.trailers⟩,
      room (Conn.trickles_of_trickle rfl)⟩
  · rintro ⟨clean, ⟨_, found, trailers⟩, room⟩ _ complete
    have uncapped : Grammar.uncappedRequest server.parser server.limits
        (RequestWriter.whole.head request defaultHost ++ content) = _ := clean.read contract
    rw [found, Option.map_some] at uncapped
    rw [← clean.requestChunks contract] at moderate
    rw [← clean.streamRoom_iff contract] at room
    rcases readRequest_of_room server contract.stable moderate complete uncapped room with
      ⟨_, ran, left⟩
    have drained := readRequest_of_ready contract.stable left fun _ => by
      intro length head found
      rw [List.take_nil] at found
      exact absurd found (contract.stable.noHead_nil length head)
    have lastLine := (length_head_ge request defaultHost).trans clean.head
    rw [Grammar.request_nil contract.stable, if_pos (by omega)] at drained
    rcases drained rfl with ⟨_, last⟩
    have ready := Conn.ready_fresh server.limits complete
    exact ⟨_, _, _, ran, last, clean.arrives contract ready ran rfl trailers⟩

variable (small : request.body.length < 2 ^ 63)
include small

omit contract supported in
theorem uncappedBody_sent (limits : Limits) : Grammar.uncappedBody limits
      (request.parsedHead (RequestWriter.whole.headers request defaultHost)) content =
    if parseExpect request.headers = .unsupported then none
    else Grammar.uncappedContent limits (RequestWriter.whole.announced request defaultHost)
      (RequestWriter.whole.announcedLength request) content := by
  have framed := RequestWriter.whole.requestOfHead_parsedHead defaultHost
    (small.trans (by norm_num) : request.body.length < 2 ^ 64)
  have expect : parseExpect (RequestWriter.whole.announced request defaultHost).headers =
      parseExpect request.headers := RequestWriter.parseExpect_headers request defaultHost .whole
  simp only [Grammar.uncappedBody, framed, expect]

omit contract supported in
theorem headChunks_sent (defaultHost content : Bytes) : Grammar.headChunks
      (request.parsedHead (RequestWriter.whole.headers request defaultHost)) content =
    if request.chunked then Grammar.chunks content else [] := by
  rw [Grammar.headChunks, RequestWriter.whole.requestOfHead_parsedHead defaultHost
    (small.trans (by norm_num))]
  rfl

omit contract supported in
/-- What is sent behind the head is read back as the body, and nothing is left. -/
theorem uncappedContent_sent_iff {limits : Limits} (lastLine : 3 ≤ limits.maxHeaderBytes) :
    ((∃ received, Grammar.uncappedContent limits
          (RequestWriter.whole.announced request defaultHost)
          (RequestWriter.whole.announcedLength request) (RequestWriter.whole.content request) =
            some (received, request.body, []) ∧
          (request.chunked = true → received.trailers = request.trailers)) ∧
        Grammar.Room limits 0 0 (if request.chunked then
          Grammar.chunks (RequestWriter.whole.content request) else [])) ↔
      request.body.length ≤ limits.maxBodyBytes ∧
        (request.chunked = true → request.CleanChunk limits) := by
  cases chunked : request.chunked with
  | false =>
      simp [Grammar.uncappedContent, RequestWriter.announced, RequestWriter.isChunked,
        RequestWriter.announcedLength, RequestWriter.content, chunked, Grammar.fixedBody,
        Grammar.Room]
  | true =>
      have sent : RequestWriter.whole.content request =
          chunkedBytes [request.body] request.trailers ++ [] := by
        rw [RequestWriter.content, if_pos chunked, List.append_nil]
      have announced : (RequestWriter.whole.announced request defaultHost).chunked = true := chunked
      simp only [sent, Grammar.uncappedContent, announced, if_true]
      constructor
      · rintro ⟨⟨_, found, returned⟩, room⟩
        rcases Option.map_eq_some_iff.mp found with ⟨⟨_, fields, _⟩, read, same⟩
        cases same
        have kept : fields = request.trailers := returned trivial
        rcases Grammar.delimited_of_uncappedFrom (by simpa using small) (Nat.zero_le _)
          (by simp; omega) read room with ⟨⟨nonempty, capped, -⟩, within, sizeLines, closing⟩
        rw [kept] at closing
        rcases Grammar.sendable_of_trailersFrom (Nat.zero_le _) closing with
          ⟨trailers, lines, count⟩
        exact ⟨by simpa using within, fun _ => ⟨nonempty, sizeLines _ (by simp), capped, trailers,
          lines, by simpa using count⟩⟩
      · rintro ⟨within, clean⟩
        rcases clean trivial with ⟨nonempty, sizeLine, capped, trailers, lines, count⟩
        have fits : WithinLimits limits [request.body] request.trailers :=
          ⟨by simpa using small, by simpa using within, by simpa using sizeLine, lastLine,
            lines, count⟩
        rcases Grammar.uncappedFrom_of_delimited [] trailers 0 (by simpa using within) fits
          ⟨nonempty, capped, trivial⟩ with ⟨read, room⟩
        rw [List.flatten_singleton] at read
        rw [read]
        exact ⟨⟨_, rfl, fun _ => rfl⟩, room⟩

/-- The whole message is read back as the request itself exactly if the request is clean. -/
theorem readAlone_message_iff :
    request.ReadAlone server defaultHost (request.message defaultHost) ↔
      request.Clean defaultHost server.limits := by
  have moderate : Moderate (if request.chunked then
      Grammar.chunks (RequestWriter.whole.content request) else []) := by
    cases chunked : request.chunked with
    | false => simp [Moderate]
    | true =>
        have sizes := Grammar.moderate_chunkedBytes request.trailers []
          (by simpa using small : ∀ chunk ∈ [request.body], chunk.length < 2 ^ 63)
        rw [List.append_nil] at sizes
        rw [if_pos rfl, RequestWriter.content, if_pos chunked]
        exact sizes
  rw [← headChunks_sent small defaultHost] at moderate
  rw [Request.message, readAlone_iff contract supported moderate, uncappedBody_sent small,
    headChunks_sent small]
  constructor
  · rintro ⟨clean, found, room⟩
    have lastLine := (length_head_ge request defaultHost).trans clean.head
    by_cases expect : parseExpect request.headers = .unsupported
    · simp [expect] at found
    · rw [if_neg expect] at found
      rcases (uncappedContent_sent_iff small lastLine).mp ⟨found, room⟩ with ⟨body, chunk⟩
      exact ⟨clean, expect, body, chunk⟩
  · intro clean
    have lastLine := (length_head_ge request defaultHost).trans clean.head
    rw [if_neg clean.expect]
    exact ⟨clean.toCleanHead, (uncappedContent_sent_iff small lastLine).mpr
      ⟨clean.body, clean.chunk⟩⟩

/-- A head that was sent without its body is no request to the reader. -/
theorem not_readAlone_head (waits : waitsForContinue request defaultHost = true) :
    ¬request.ReadAlone server defaultHost (RequestWriter.whole.head request defaultHost) := by
  intro alone
  rw [← List.append_nil (RequestWriter.whole.head request defaultHost)] at alone
  have moderate : Moderate (if request.chunked then Grammar.chunks [] else []) := by
    have none : Grammar.chunks [] = [] := by decide
    simp [none, Moderate]
  rw [← headChunks_sent small defaultHost] at moderate
  rcases (readAlone_iff contract supported moderate).mp alone with ⟨-, ⟨_, found, -⟩, -⟩
  rw [uncappedBody_sent small] at found
  split at found
  · cases found
  · cases chunked : request.chunked with
    | true =>
        have announced : (RequestWriter.whole.announced request defaultHost).chunked = true :=
          chunked
        simp only [Grammar.uncappedContent, announced, if_true] at found
        rcases Option.map_eq_some_iff.mp found with ⟨_, read, -⟩
        rw [Grammar.uncappedFrom_eq] at read
        rcases Option.bind_eq_some_iff.mp read with ⟨_, header, -⟩
        cases Grammar.length_rest_of_chunkHeader header
    | false =>
        simp [Grammar.uncappedContent, RequestWriter.announced, RequestWriter.isChunked,
          RequestWriter.announcedLength, chunked, Grammar.fixedBody] at found
        simp [waitsForContinue, chunked, found.2.2] at waits

end Head

def noteUpload : Request :=
  { method := ascii "PUT", target := ascii "/notes?id=7",
    headers := [⟨ascii "X-Tag", ascii "a b"⟩], body := ascii "GET / HTTP/1.1\r\n\r\n" }

/-- A server that knows the head of one request. -/
def noteServer : Config :=
  { parser := ⟨fun _ => singleHead (RequestWriter.whole.head noteUpload (ascii "h"))
      (noteUpload.parsedHead (RequestWriter.whole.headers noteUpload (ascii "h"))),
      fun _ _ _ => .malformed⟩ }

/-- A URL whose target ends the request line and the head, and begins another request. -/
def hostileUrl : Bytes := ascii "http://h/ HTTP/1.1\r\nHost: h\r\n\r\nGET /evil"

def hostileRequest : Request :=
  { target := ascii "/ HTTP/1.1\r\nHost: h\r\n\r\nGET /evil" }

end Corouv.Http
