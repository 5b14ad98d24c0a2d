import Corouv.Http.ReferenceRequest

/-!
# Requests round trip

The requests that `write_request` sends back to back are those that `read_request`
returns, up to the fields the writer replaces.  This is the composition of the rewriting
of the fields, their serialization, the detection of the framing and buffered reading.
-/

namespace Corouv.Http

open Library Io

variable {headers : Headers} {name : Bytes} {request : Request}

theorem eraseHeader_eq_self (none : fieldsNamed name headers = []) :
    eraseHeader headers name = headers := by
  apply List.filter_eq_self.mpr
  intro header mem
  simpa using List.filter_eq_nil_iff.mp none header mem

theorem setHeader_of_none (value : Bytes) (none : fieldsNamed name headers = []) :
    setHeader headers name value = headers ++ [⟨name, value⟩] := by
  rw [setHeader, eraseHeader_eq_self none]

theorem findHeader_eq_none_iff :
    findHeader headers name = none ↔ fieldsNamed name headers = [] := by
  simp [findHeader, fieldsNamed]

def connectionField (keepAlive : Bool) : Header :=
  ⟨ascii "Connection", if keepAlive then ascii "keep-alive" else ascii "close"⟩

def contentLengthField (size : ℕ) : Header :=
  ⟨ascii "Content-Length", Numeral.digits 10 size⟩

/-- The fields that say nothing about the framing. -/
def keptHeaders (headers : Headers) : Headers :=
  headers.filter fun header => !iequals header.name (ascii "Connection") &&
    (!iequals header.name (ascii "Content-Length") &&
      !iequals header.name (ascii "Transfer-Encoding"))

theorem eraseHeader_framing (headers : Headers) :
    eraseHeader (eraseHeader (eraseHeader headers (ascii "Connection")) (ascii "Content-Length"))
      (ascii "Transfer-Encoding") = keptHeaders headers := by
  simp only [eraseHeader, List.filter_filter, keptHeaders]
  apply List.filter_congr
  intro _ _
  rw [Bool.and_left_comm, ← Bool.and_assoc, Bool.and_comm, Bool.and_left_comm]

theorem prepareOutgoingHeaders_eq (headers : Headers) (keepAlive : Bool) (bodySize : ℕ) :
    prepareOutgoingHeaders headers keepAlive false bodySize =
      keptHeaders headers ++ [connectionField keepAlive, contentLengthField bodySize] := by
  have noConnection : fieldsNamed (ascii "Connection") (keptHeaders headers) = [] := by
    rw [← eraseHeader_framing, fieldsNamed_eraseHeader _ (by decide),
      fieldsNamed_eraseHeader _ (by decide), fieldsNamed_eraseHeader_self]
  have noLength : fieldsNamed (ascii "Content-Length") (setHeader (keptHeaders headers)
      (ascii "Connection") (if keepAlive then ascii "keep-alive" else ascii "close")) = [] := by
    rw [fieldsNamed_setHeader _ _ (by decide), ← eraseHeader_framing,
      fieldsNamed_eraseHeader _ (by decide), fieldsNamed_eraseHeader_self]
  simp only [prepareOutgoingHeaders, eraseHeader_framing, Bool.false_eq_true, if_false]
  rw [setHeader_of_none _ noLength, setHeader_of_none _ noConnection, List.append_assoc]
  rfl

/-- The field that is added where there is no `Host`. -/
def Request.hostField (request : Request) (defaultHost : Bytes) : Headers :=
  if defaultHost ≠ [] ∧ fieldsNamed (ascii "Host") request.headers = [] then
    [⟨ascii "Host", defaultHost⟩]
  else []

theorem Request.keptHeaders_hostField (request : Request) (defaultHost : Bytes) :
    keptHeaders (request.hostField defaultHost) = request.hostField defaultHost := by
  have other : (!iequals (ascii "Host") (ascii "Connection") &&
      (!iequals (ascii "Host") (ascii "Content-Length") &&
        !iequals (ascii "Host") (ascii "Transfer-Encoding"))) = true := by
    decide
  simp only [Request.hostField]
  split
  · simp [keptHeaders, other]
  · rfl

theorem outgoingRequestHeaders_eq (request : Request) (defaultHost : Bytes) (bodySize : ℕ) :
    outgoingRequestHeaders request defaultHost false bodySize =
      keptHeaders request.headers ++ request.hostField defaultHost ++
        [connectionField request.keepAlive, contentLengthField bodySize] := by
  have hosted : (if defaultHost ≠ [] ∧ findHeader request.headers (ascii "Host") = none then
        setHeader request.headers (ascii "Host") defaultHost
      else request.headers) = request.headers ++ request.hostField defaultHost := by
    simp only [Request.hostField, findHeader_eq_none_iff]
    split
    next missing => exact setHeader_of_none _ missing.2
    · rw [List.append_nil]
  have kept : keptHeaders (request.headers ++ request.hostField defaultHost) =
      keptHeaders request.headers ++ request.hostField defaultHost := by
    rw [keptHeaders, List.filter_append]
    exact congrArg _ (request.keptHeaders_hostField defaultHost)
  rw [outgoingRequestHeaders, hosted, prepareOutgoingHeaders_eq, kept]

/-- The request as it is to be read. -/
def Request.received (defaultHost : Bytes) (request : Request) : Request :=
  { method := request.method
    target := request.sentTarget
    headers := keptHeaders request.headers ++ request.hostField defaultHost ++
      [connectionField request.keepAlive, contentLengthField request.body.length]
    body := request.body
    versionMinor := request.versionMinor
    keepAlive := request.keepAlive }

/-- The fields `write_request` sends with a request that is not chunked. -/
def Request.sentHeaders (defaultHost : Bytes) (request : Request) : Headers :=
  outgoingRequestHeaders request defaultHost false request.body.length

/-- The bytes `write_request` sends for a request that is not chunked. -/
def Request.wire (defaultHost : Bytes) (request : Request) : Bytes :=
  requestHeadBytes request (request.sentHeaders defaultHost) ++ request.body

@[mk_iff]
structure Request.FitsLimits (defaultHost : Bytes) (limits : Limits) (request : Request) :
    Prop where
  head : (requestHeadBytes request (request.sentHeaders defaultHost)).length ≤ limits.maxHeaderBytes
  count : (request.sentHeaders defaultHost).length ≤ limits.maxHeaderCount
  body : request.body.length ≤ limits.maxBodyBytes

instance (defaultHost : Bytes) (limits : Limits) (request : Request) :
    Decidable (request.FitsLimits defaultHost limits) :=
  decidable_of_iff _ (Request.fitsLimits_iff defaultHost limits request).symm

/-- A request that is sent in one piece. -/
@[mk_iff]
structure Request.Simple (request : Request) : Prop where
  unchunked : request.chunked = false
  unexpecting : fieldsNamed (ascii "Expect") request.headers = []
  plain : request.PlainHead request.headers

instance (request : Request) : Decidable request.Simple :=
  decidable_of_iff _ (Request.simple_iff request).symm

theorem Request.Simple.expectsNothing (simple : request.Simple) :
    parseExpect request.headers = .none := by
  rw [parseExpect, fieldTokens, simple.unexpecting]
  rfl

theorem Request.Simple.headers_whole (simple : request.Simple) (defaultHost : Bytes) :
    RequestWriter.whole.headers request defaultHost = request.sentHeaders defaultHost := by
  simp only [RequestWriter.headers, simple.unchunked, Bool.false_eq_true, if_false]
  rfl

theorem Request.Simple.writeRequest_run {conn : Conn} (config : Config) (defaultHost : Bytes)
    (simple : request.Simple) (writable : conn.Writable) :
    (writeRequest config request defaultHost).run conn =
      .ok () (conn.withWritten [] (request.wire defaultHost)) := by
  have ran := RequestWriter.whole.write_run config request defaultHost writable
    simple.plain.supported
  have proceeds : ¬RequestWriter.whole.waits request defaultHost = true := by
    intro waits
    have expects := expectsContinue_of_waitsForContinue waits
    simp [expectsContinue, simple.expectsNothing] at expects
  have body : RequestWriter.whole.content request = request.body := by
    simp [RequestWriter.content, simple.unchunked]
  rw [if_neg proceeds, Conn.withWritten_withWritten, body, RequestWriter.head,
    simple.headers_whole] at ran
  exact ran

/-- A request whose head the parser takes apart again, and which the reader has room for. -/
structure Request.Legible (config : Config) (defaultHost : Bytes) (request : Request) : Prop where
  simple : request.Simple
  parsesBack : ParsesBack config request (request.sentHeaders defaultHost)
  fits : request.FitsLimits defaultHost config.limits

section Reading

variable {config : Config} {defaultHost : Bytes} {request : Request}
  (stable : PrefixStable (config.parser.request config.limits.maxHeaderCount))
  (legible : request.Legible config defaultHost)
include stable legible

theorem Request.Legible.found (rest : Bytes) :
    config.parser.request config.limits.maxHeaderCount
        ((request.wire defaultHost ++ rest).take config.limits.maxHeaderBytes) 0 =
      .complete (requestHeadBytes request (request.sentHeaders defaultHost)).length
        (request.parsedHead (request.sentHeaders defaultHost)) := by
  rw [Request.wire, List.append_assoc]
  exact stable.take_append legible.parsesBack legible.fits.head _

omit stable in
theorem Request.Legible.announced :
    requestOfHead (request.parsedHead (request.sentHeaders defaultHost)) =
      .ok (RequestWriter.whole.announced request defaultHost, some request.body.length) := by
  have announced := RequestWriter.whole.requestOfHead_parsedHead defaultHost
    (legible.fits.body.trans_lt config.limits.maxBodyBytes_lt)
  have unchunked : RequestWriter.whole.isChunked request = false := legible.simple.unchunked
  rw [legible.simple.headers_whole, RequestWriter.announcedLength, unchunked] at announced
  exact announced

theorem Request.Legible.read (rest : Bytes) :
    Grammar.request config.parser config.limits (request.wire defaultHost ++ rest) =
      .request (request.received defaultHost) rest := by
  have expects : parseExpect (request.sentHeaders defaultHost) = .none := by
    rw [Request.sentHeaders, parseExpect_outgoingRequestHeaders, legible.simple.expectsNothing]
  have unchunked : RequestWriter.whole.isChunked request = false := legible.simple.unchunked
  simp only [Grammar.request, legible.found stable, Grammar.requestBody, legible.announced]
  simp only [RequestWriter.announced, legible.simple.headers_whole, expects, reduceCtorEq,
    if_false, Grammar.requestContent, unchunked, Bool.false_eq_true, Request.wire,
    List.append_assoc, List.drop_left, Grammar.fixedBody_append rest legible.fits.body,
    Option.map_some]
  rw [Request.received, Request.sentHeaders, outgoingRequestHeaders_eq]

theorem Request.Legible.requestSane (rest : Bytes) :
    Grammar.RequestSane config.parser config.limits (request.wire defaultHost ++ rest) := by
  intro _ _ found _ _ framed chunked
  rw [legible.found stable] at found
  cases found
  rw [legible.announced] at framed
  cases framed
  exact absurd (chunked.symm.trans legible.simple.unchunked) (by simp)

omit stable in
theorem Request.Legible.maxHeaderBytes_ne : config.limits.maxHeaderBytes ≠ 0 := by
  have fits := legible.fits.head
  simp only [requestHeadBytes, List.length_append, crlf, List.length_cons] at fits
  omega

end Reading

theorem length_le_wire (defaultHost : Bytes) (requests : List Request) :
    requests.length ≤ (requests.flatMap (Request.wire defaultHost)).length := by
  induction requests with
  | nil => simp
  | cons _ _ _ =>
      simp only [List.flatMap_cons, List.length_append, List.length_cons, Request.wire,
        requestHeadBytes, crlf]
      omega

theorem writeRequests_run {requests : List Request} {conn : Conn} (config : Config)
    (defaultHost : Bytes) (simple : ∀ request ∈ requests, request.Simple)
    (writable : conn.Writable) :
    (forM requests fun request => writeRequest config request defaultHost).run conn =
      .ok () (conn.withWritten [] (requests.flatMap (Request.wire defaultHost))) := by
  induction requests generalizing conn with
  | nil =>
      rw [List.flatMap_nil, writable.withWritten_nil]
      rfl
  | cons _ _ ih =>
      rcases List.forall_mem_cons.mp simple with ⟨first, others⟩
      rw [List.forM_cons, EStateM.run_bind, first.writeRequest_run config defaultHost writable,
        List.flatMap_cons, ← Conn.withWritten_withWritten]
      exact ih others (writable.withWritten _)

section Stream

variable {config : Config} {defaultHost : Bytes}
  (stable : PrefixStable (config.parser.request config.limits.maxHeaderCount))
include stable

theorem Grammar.request_nil :
    Grammar.request config.parser config.limits [] =
      if config.limits.maxHeaderBytes ≠ 0 then .ended else .rejected := by
  rw [Grammar.request_of_noHead (by simpa using stable.noHead_nil)]
  simp

/-- Requests sent one after the other are read one after the other. -/
theorem requestsWithin_wire : ∀ (requests : List Request) (fuel : ℕ), requests.length < fuel →
    (∀ request ∈ requests, request.Legible config defaultHost) →
    Grammar.requestsWithin config.parser config.limits fuel
        (requests.flatMap (Request.wire defaultHost)) =
      (requests.map (Request.received defaultHost),
        decide (config.limits.maxHeaderBytes ≠ 0)) := by
  intro requests
  induction requests with
  | nil =>
      intro fuel enough _
      cases fuel with
      | zero => exact absurd enough (Nat.not_lt_zero _)
      | succ fuel =>
          simp only [List.flatMap_nil, Grammar.requestsWithin, Grammar.request_nil stable]
          by_cases room : config.limits.maxHeaderBytes ≠ 0
          · simp [room]
          · simp [room]
  | cons _ _ ih =>
      intro fuel enough legible
      cases fuel with
      | zero => exact absurd enough (Nat.not_lt_zero _)
      | succ fuel =>
          rcases List.forall_mem_cons.mp legible with ⟨first, others⟩
          have rest := ih fuel (by simpa using enough) others
          simp [Grammar.requestsWithin, first.read stable, rest]

theorem streamSane_wire : ∀ (requests : List Request) (fuel : ℕ),
    (∀ request ∈ requests, request.Legible config defaultHost) →
    Grammar.StreamSane config.parser config.limits fuel
      (requests.flatMap (Request.wire defaultHost)) := by
  intro requests
  induction requests with
  | nil =>
      intro fuel _
      cases fuel with
      | zero => trivial
      | succ fuel =>
          refine ⟨?_, ?_⟩
          · intro length head found
            rw [List.flatMap_nil, List.take_nil] at found
            exact absurd found (stable.noHead_nil length head)
          · intro _ _ read
            rw [List.flatMap_nil, Grammar.request_nil stable] at read
            split at read
            · cases read
            · cases read
  | cons _ _ ih =>
      intro fuel legible
      rcases List.forall_mem_cons.mp legible with ⟨first, others⟩
      cases fuel with
      | zero => trivial
      | succ fuel =>
          refine ⟨first.requestSane stable _, ?_⟩
          intro _ _ read
          rw [List.flatMap_cons, first.read stable] at read
          cases read
          exact ih fuel others

end Stream

/-- Requests that are written back to back are read back in order, and then the stream
ends cleanly; a reader that has no room for a head cannot see that it does. -/
theorem requests_round_trip {config : Config} {requests : List Request} {defaultHost : Bytes}
    {conn : Conn} (client : Config)
    (stable : PrefixStable (config.parser.request config.limits.maxHeaderCount))
    (parsesBack : ∀ request ∈ requests, request.PlainHead (request.sentHeaders defaultHost) →
      ParsesBack config request (request.sentHeaders defaultHost))
    (simple : ∀ request ∈ requests, request.Simple) (host : IsPlainValue defaultHost)
    (fits : ∀ request ∈ requests, request.FitsLimits defaultHost config.limits)
    (writable : conn.Writable) (unwritten : conn.stream.written = []) :
    ∃ after, (forM requests fun request => writeRequest client request defaultHost).run conn =
        .ok () after ∧
      ∀ arrivals, contents arrivals = some (after.stream.written, true) →
        (readRequests config (Conn.fresh arrivals)).1 =
          requests.map (Request.received defaultHost) ∧
        (requests ≠ [] ∨ config.limits.maxHeaderBytes ≠ 0 →
          (readRequests config (Conn.fresh arrivals)).2 = .ok ()) := by
  refine ⟨_, writeRequests_run client defaultHost simple writable, ?_⟩
  intro _ clean
  have legible : ∀ request ∈ requests, request.Legible config defaultHost := by
    intro request mem
    have sent := (simple request mem).plain.outgoing host false request.body.length
    exact ⟨simple request mem, parsesBack request mem sent, fits request mem⟩
  simp only [Conn.withWritten, unwritten, List.nil_append] at clean
  have spec := readRequests_of_contents stable clean (streamSane_wire stable requests _ legible)
  rw [requestsWithin_wire stable requests _ (Nat.lt_succ_of_le (length_le_wire _ _)) legible]
    at spec
  refine ⟨spec.requests_eq, ?_⟩
  intro room
  apply spec.clean
  rw [decide_eq_true_eq]
  rcases room with some | room
  · rcases List.exists_mem_of_ne_nil requests some with ⟨request, mem⟩
    exact (legible request mem).maxHeaderBytes_ne
  · exact room

/-- A request without fields, and one whose fields contradict its body. -/
def pipelined : List Request :=
  [{ target := [] },
    { method := ascii "POST", target := ascii "/a", keepAlive := false, body := ascii "hi",
      headers := [⟨ascii "content-length", ascii "99"⟩, ⟨ascii "Accept", ascii "text/plain"⟩,
        ⟨ascii "TRANSFER-ENCODING", ascii "chunked"⟩] }]

theorem requests_round_trip_pipelined :
    ∃ after, (forM pipelined fun request =>
        writeRequest duplexConfig request (ascii "example")).run (Conn.fresh []) = .ok () after ∧
      ∀ arrivals, contents arrivals = some (after.stream.written, true) →
        (readRequests duplexConfig (Conn.fresh arrivals)).1 =
          pipelined.map (Request.received (ascii "example")) ∧
        (pipelined ≠ [] ∨ duplexConfig.limits.maxHeaderBytes ≠ 0 →
          (readRequests duplexConfig (Conn.fresh arrivals)).2 = .ok ()) := by
  have fits : ∀ request ∈ pipelined, request.FitsLimits (ascii "example") duplexConfig.limits := by
    decide +kernel
  apply requests_round_trip duplexConfig (Reference.prefixStable_request _) _ _ _ fits
  · exact ⟨rfl, rfl⟩
  · rfl
  · intro request mem plain
    exact Reference.parsesBack duplexConfig rfl plain (fits request mem).count
  · decide +kernel
  · decide +kernel

end Corouv.Http
