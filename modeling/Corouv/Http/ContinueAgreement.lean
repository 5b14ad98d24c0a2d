import Corouv.Http.HeadLoop
import Corouv.Http.ReferenceRequest
import Corouv.Library.Transition

/-!
# Agreement on `100 Continue`

A client that writes a request and a server that reads it decide separately whether there
is to be an interim response before the body: the client from the `Expect` fields and the
body, the server from the `Expect` fields and the framing the head announces.  They
decide alike, so that they never wait for each other.
-/

namespace Corouv.Http

open Library Io
open EStateM (run_bind run_get run_pure run_modify)

/-- What the server sends for a head before it reads the body. -/
def invitation (head : RequestHead) : Bytes :=
  match requestOfHead head with
  | .error _ => []
  | .ok (request, contentLength) =>
      if parseExpect request.headers = .continue100 ∧ hasRequestBody request contentLength then
        continueBytes
      else []

/-- The same for the bytes the server has received. -/
def Config.invitation (config : Config) (input : Bytes) : Bytes :=
  match config.parser.request config.limits.maxHeaderCount
      (input.take config.limits.maxHeaderBytes) 0 with
  | .complete _ head => Http.invitation head
  | _ => []

variable {conn : Conn}

theorem sendContinue_sent (config : Config) (request : Request) (contentLength : Option ℕ)
    (writable : conn.Writable) :
    ∃ conn', (sendContinue config request contentLength).run conn = .ok () conn' ∧
      conn'.Sent (conn.stream.written ++
        if parseExpect request.headers = .continue100 ∧ hasRequestBody request contentLength then
          continueBytes else []) [] := by
  simp only [sendContinue]
  split
  · exact ⟨_, writable.sendAll_run _ _, rfl, rfl⟩
  · refine ⟨conn, rfl, ?_, writable.departures_eq⟩
    rw [List.append_nil]

theorem finishRequest_sent (config : Config) (sink : BodySink) (length : ℕ) (head : RequestHead)
    (writable : conn.Writable) :
    (endState ((finishRequest config sink length head).run conn)).Sent
      (conn.stream.written ++ invitation head) [] := by
  cases announced : requestOfHead head with
  | error _ =>
      simp only [finishRequest, invitation, announced, List.append_nil]
      exact ⟨rfl, writable.departures_eq⟩
  | ok framed =>
      rcases framed with ⟨request, contentLength⟩
      simp only [finishRequest, invitation, announced, run_bind, run_modify]
      by_cases unsupported : parseExpect request.headers = .unsupported
      · simp only [unsupported, if_true, reduceCtorEq, false_and, if_false, List.append_nil]
        exact ⟨rfl, writable.departures_eq⟩
      · rw [if_neg unsupported]
        have consumed : (conn.consume length).Writable := ⟨writable.isOpen, writable.departures_eq⟩
        rcases sendContinue_sent config request contentLength consumed with ⟨conn', ran, sent⟩
        rw [run_bind, ran]
        exact (readerLogic_preserves _ _).readRequestBody config sink request contentLength
          conn' sent

/-- What a server with the given input has sent, whatever it comes to; and while it waits
for a head, it has room for more of it. -/
structure Invites (config : Config) (conn : Conn) (input : Bytes)
    (result : EStateM.Result Exn Conn (Option Request)) : Prop where
  sent : (endState result).Sent (conn.stream.written ++ config.invitation input) []
  room : ∀ conn', result = .error .suspended conn' →
    NoHead (config.parser.request config.limits.maxHeaderCount)
      (input.take config.limits.maxHeaderBytes) → input.length < config.limits.maxHeaderBytes

theorem readRequestTurn_eq_headTurn (config : Config) (sink : BodySink) :
    readRequestTurn config sink = headTurn (config.parser.request config.limits.maxHeaderCount)
      requestErrors config.limits ⟨config.timeouts.readHeaders, 408, "request header read timeout"⟩
      (fun length head => do
        let request ← finishRequest config sink length head
        pure (.done (some request)))
      (do
        let conn ← get
        if conn.buffer.size = 0 then pure (.done none)
        else throw (.http 400 "unexpected eof while reading request")) := by
  funext lastLen
  apply bind_congr
  intro verdict
  cases verdict with
  | complete length head | more lastLen | eof => rfl

/-- The server writes `100 Continue` when the request it has read a head of asks for it. -/
theorem readRequestStream_invites {config : Config} {input : Bytes} (sink : BodySink)
    (stable : PrefixStable (config.parser.request config.limits.maxHeaderCount))
    (ready : conn.Ready config.limits input false) :
    Invites config conn input ((readRequestStream config sink).run conn) := by
  simp only [readRequestStream, run_bind, run_get, readRequestTurn_eq_headTurn]
  apply headLoop_of_open _ stable requestErrors_areHttp ready.holds ready.size_le
    conn.incoming_lt_fuel
  · intro length head state found after _ _
    have sent := finishRequest_sent config sink length head (ready.writable.of_after after)
    have announced : config.invitation input = invitation head := by
      simp only [Config.invitation, found]
    rw [after.written_eq, ← announced] at sent
    rw [run_bind]
    cases ran : (finishRequest config sink length head).run state with
    | ok _ _ =>
        rw [ran] at sent
        exact ⟨sent, fun _ waits => by cases waits⟩
    | error _ _ =>
        rw [ran] at sent
        exact ⟨sent, fun _ _ none => absurd found (none length head)⟩
  · intro none _ _ sent room
    have unannounced : config.invitation input = [] := by
      simp only [Config.invitation]
      split
      next length head found => exact absurd found (none length head)
      · rfl
    refine ⟨?_, ?_⟩
    · rw [unannounced, List.append_nil]
      exact ⟨sent.written_eq, sent.departures_eq.trans ready.writable.departures_eq⟩
    · intro _ waits _
      exact room (EStateM.Result.error.inj waits).1

/-- The computation has come to an end, and if it returned, the connection can be written to. -/
def Settles {α : Type} : EStateM.Result Exn Conn α → Prop
  | .ok _ conn => conn.Writable
  | .error error _ => error ≠ .suspended

/-- The computation has not come to its end, and nothing was written. -/
def Unanswered {α : Type} (conn : Conn) (result : EStateM.Result Exn Conn α) : Prop :=
  ∃ error conn', result = .error error conn' ∧ conn'.stream.written = conn.stream.written

/-- The head of the interim response as picohttpparser is to report it. -/
def continueHead : ResponseHead :=
  ⟨1, 100, ascii "Continue", []⟩

theorem responseOfHead_continueHead :
    responseOfHead continueHead =
      .ok ({ status := 100, reason := ascii "Continue" }, none) := by
  decide +kernel

theorem readResponseTurn_eq_headTurn (config : Config) (requestMethod : Bytes) (sink : BodySink)
    (skipInformational : Bool) :
    readResponseTurn config requestMethod sink skipInformational =
      headTurn (config.parser.response config.limits.maxHeaderCount) responseErrors config.limits
        ⟨config.timeouts.readHeaders, 504, "response header read timeout"⟩
        (finishResponse config requestMethod sink skipInformational)
        (throw (.http 502 "unexpected eof while reading response")) := by
  funext lastLen
  apply bind_congr
  intro verdict
  cases verdict with
  | complete length head | more lastLen | eof => rfl

section Client

variable {config : Config} {conn : Conn} (requestMethod : Bytes)
  (stable : PrefixStable (config.parser.response config.limits.maxHeaderCount))
  (continues : config.parser.response config.limits.maxHeaderCount continueBytes 0 =
    .complete continueBytes.length continueHead)
include stable continues

theorem readResponseStreamImpl_settles (ready : conn.Ready config.limits continueBytes false) :
    Settles ((readResponseStreamImpl config requestMethod .collect false).run conn) := by
  simp only [readResponseStreamImpl, run_bind, run_get, readResponseTurn_eq_headTurn]
  have enough : conn.incoming < 2 * conn.backlog + 2 := by
    have := conn.incoming_lt_fuel
    omega
  apply headLoop_of_open _ stable responseErrors_areHttp ready.holds ready.size_le enough
  · intro _ _ _ found after _ _
    have whole := stable.append found (continueBytes.drop config.limits.maxHeaderBytes)
    rw [List.take_append_drop, continues] at whole
    cases whole
    simp only [finishResponse, responseOfHead_continueHead, run_bind, run_modify]
    exact ⟨after.holds.isOpen, after.departures_eq.trans ready.writable.departures_eq⟩
  · intro none _ _ _ room
    rintro rfl
    have fits := room rfl
    rw [List.take_of_length_le (by omega)] at none
    exact none _ _ continues

omit continues in
theorem readResponseStreamImpl_unanswered (ready : conn.Ready config.limits [] false) :
    Unanswered conn ((readResponseStreamImpl config requestMethod .collect false).run conn) := by
  simp only [readResponseStreamImpl, run_bind, run_get, readResponseTurn_eq_headTurn]
  have enough : conn.incoming < 2 * conn.backlog + 2 := by
    have := conn.incoming_lt_fuel
    omega
  apply headLoop_of_open _ stable responseErrors_areHttp ready.holds ready.size_le enough
  · intro length head state found
    rw [List.take_nil] at found
    exact absurd found (stable.noHead_nil length head)
  · intro _ error state sent _
    exact ⟨error, state, rfl, sent.written_eq⟩

omit continues in
theorem awaitContinue_unanswered (ready : conn.Ready config.limits [] false) :
    Unanswered conn ((awaitContinue config requestMethod).run conn) := by
  have start : ({ conn with body := [] } : Conn).Ready config.limits [] false := ready.congr rfl rfl
  rcases readResponseStreamImpl_unanswered requestMethod stable start with
    ⟨error, conn', ran, written⟩
  refine ⟨error, conn', ?_, written⟩
  simp only [awaitContinue, collectResponse, run_bind, run_modify, ran]

theorem awaitContinue_settles (ready : conn.Ready config.limits continueBytes false) :
    Settles ((awaitContinue config requestMethod).run conn) := by
  have start : ({ conn with body := [] } : Conn).Ready config.limits continueBytes false :=
    ready.congr rfl rfl
  have settles := readResponseStreamImpl_settles requestMethod stable continues start
  simp only [awaitContinue, collectResponse, run_bind, run_modify]
  cases ran : (readResponseStreamImpl config requestMethod .collect false).run
      { conn with body := [] } with
  | error _ _ =>
      rw [ran] at settles
      exact settles
  | ok _ _ =>
      rw [ran] at settles
      simp only [run_get, run_pure]
      split
      · exact ⟨settles.isOpen, settles.departures_eq⟩
      · exact settles

end Client

theorem hasRequestBody_announced (request : Request) (defaultHost : Bytes)
    (writer : RequestWriter) :
    hasRequestBody (writer.announced request defaultHost) (writer.announcedLength request) =
      (writer.isChunked request || decide (request.body ≠ [])) := by
  simp only [hasRequestBody, RequestWriter.announced, RequestWriter.announcedLength]
  cases writer.isChunked request with
  | true => rfl
  | false => simp [List.length_pos_iff]

theorem waits_eq (request : Request) (defaultHost : Bytes) (writer : RequestWriter) :
    writer.waits request defaultHost =
      (expectsContinue request.headers &&
        (writer.isChunked request || decide (request.body ≠ []))) := by
  cases writer with
  | stream _ =>
      simp [RequestWriter.waits, RequestWriter.isChunked, expectsContinue_outgoingRequestHeaders]
  | whole =>
      cases chunked : request.chunked with
      | true | false =>
          simp [RequestWriter.waits, waitsForContinue, RequestWriter.isChunked, chunked,
            expectsContinue_outgoingRequestHeaders]

theorem invitation_parsedHead {request : Request} (defaultHost : Bytes) (writer : RequestWriter)
    (small : request.body.length < 2 ^ 64) :
    invitation (request.parsedHead (writer.headers request defaultHost)) =
      if writer.waits request defaultHost then continueBytes else [] := by
  simp only [invitation, writer.requestOfHead_parsedHead defaultHost small,
    hasRequestBody_announced, waits_eq, expectsContinue]
  rw [RequestWriter.announced, writer.parseExpect_headers]
  simp

/-- A client that writes a request and a server that reads it. -/
structure Peers where
  client : Config
  server : Config
  sink : BodySink
  request : Request
  defaultHost : Bytes
  writer : RequestWriter

/-- What has been delivered to each of them, in the pieces in which it arrived. -/
structure Dialogue where
  toClient : List Bytes := []
  toServer : List Bytes := []

inductive Delivery where
  | toClient (piece : Bytes)
  | toServer (piece : Bytes)

namespace Peers

def head (peers : Peers) : Bytes :=
  peers.writer.head peers.request peers.defaultHost

def clientRun (peers : Peers) (dialogue : Dialogue) : EStateM.Result Exn Conn Unit :=
  (peers.writer.write peers.client peers.request peers.defaultHost).run
    (Conn.fresh (dialogue.toClient.map .data))

def serverRun (peers : Peers) (dialogue : Dialogue) : EStateM.Result Exn Conn (Option Request) :=
  (readRequestStream peers.server peers.sink).run (Conn.fresh (dialogue.toServer.map .data))

def clientSent (peers : Peers) (dialogue : Dialogue) : Bytes :=
  (endState (peers.clientRun dialogue)).stream.written

def serverSent (peers : Peers) (dialogue : Dialogue) : Bytes :=
  (endState (peers.serverRun dialogue)).stream.written

/-- A piece of what the other has sent arrives. -/
def step (peers : Peers) (dialogue : Dialogue) : Delivery → Option Dialogue
  | .toClient piece =>
      if dialogue.toClient.flatten ++ piece <+: peers.serverSent dialogue then
        some { dialogue with toClient := dialogue.toClient ++ [piece] }
      else none
  | .toServer piece =>
      if dialogue.toServer.flatten ++ piece <+: peers.clientSent dialogue then
        some { dialogue with toServer := dialogue.toServer ++ [piece] }
      else none

/-- Nothing behind the head is sent before a response has been received. -/
def HoldsBack (peers : Peers) : Prop :=
  ∃ error conn, peers.clientRun {} = .error error conn ∧ conn.stream.written = peers.head

/-- The client waits for a response, and nothing is on the way to it. -/
def ClientWaits (peers : Peers) (dialogue : Dialogue) : Prop :=
  (∃ conn, peers.clientRun dialogue = .error .suspended conn) ∧
    ∀ piece, piece ≠ [] → peers.step dialogue (.toClient piece) = none

/-- What has been delivered to the client is the beginning of what the server has sent. -/
def InOrder (peers : Peers) (dialogue : Dialogue) : Prop :=
  dialogue.toClient.flatten <+: peers.serverSent dialogue

/-- The server has received the whole head and waits for more. -/
def ServerWaitsForBody (peers : Peers) (dialogue : Dialogue) : Prop :=
  (∃ conn, peers.serverRun dialogue = .error .suspended conn) ∧
    peers.head <+: dialogue.toServer.flatten

section Agreement

variable {peers : Peers} {dialogue : Dialogue}

theorem ready_fresh_map (limits : Limits) (pieces : List Bytes) :
    (Conn.fresh (pieces.map .data)).Ready limits pieces.flatten false :=
  Conn.ready_fresh limits (contents_map_data pieces)

theorem serverSent_eq
    (stable : PrefixStable (peers.server.parser.request peers.server.limits.maxHeaderCount))
    (dialogue : Dialogue) :
    peers.serverSent dialogue = peers.server.invitation dialogue.toServer.flatten :=
  (readRequestStream_invites peers.sink stable (ready_fresh_map _ _)).sent.written_eq

theorem invitation_append {config : Config}
    (stable : PrefixStable (config.parser.request config.limits.maxHeaderCount))
    (input more : Bytes) : config.invitation input <+: config.invitation (input ++ more) := by
  cases found : config.parser.request config.limits.maxHeaderCount
      (input.take config.limits.maxHeaderBytes) 0 with
  | complete _ _ =>
      have further := stable.append found (more.take (config.limits.maxHeaderBytes - input.length))
      rw [← List.take_append] at further
      simp only [Config.invitation, found, further]
      exact List.prefix_rfl
  | malformed =>
      simp only [Config.invitation, found]
      exact List.nil_prefix
  | incomplete =>
      simp only [Config.invitation, found]
      exact List.nil_prefix

theorem invitation_of_head {config : Config} {request : Request} {headers : Headers}
    {input : Bytes} (stable : PrefixStable (config.parser.request config.limits.maxHeaderCount))
    (parsesBack : ParsesBack config request headers)
    (received : requestHeadBytes request headers <+: input)
    (found : ¬NoHead (config.parser.request config.limits.maxHeaderCount)
      (input.take config.limits.maxHeaderBytes)) :
    config.invitation input = invitation (request.parsedHead headers) := by
  simp only [NoHead, not_forall, not_not] at found
  rcases found with ⟨_, _, found⟩
  rcases received with ⟨behind, rfl⟩
  have whole := stable.append found
    ((requestHeadBytes request headers ++ behind).drop config.limits.maxHeaderBytes)
  rw [List.take_append_drop, stable.append parsesBack behind] at whole
  cases whole
  simp only [Config.invitation, found]

section

variable (stable : PrefixStable (peers.client.parser.response peers.client.limits.maxHeaderCount))
include stable

/-- Only a client that holds back its body waits, and not for an interim response that it
has received. -/
theorem waits_of_clientRun
    (continues : peers.client.parser.response peers.client.limits.maxHeaderCount continueBytes 0 =
      .complete continueBytes.length continueHead)
    (supported : ¬(peers.request.versionMinor < 0 ∨ peers.request.versionMinor > 1))
    (waiting : ∃ conn, peers.clientRun dialogue = .error .suspended conn) :
    peers.writer.waits peers.request peers.defaultHost = true ∧
      dialogue.toClient.flatten ≠ continueBytes := by
  rcases waiting with ⟨_, waiting⟩
  have ready := ready_fresh_map peers.client.limits dialogue.toClient
  rw [clientRun, peers.writer.write_run peers.client peers.request peers.defaultHost
    ready.writable supported] at waiting
  split at waiting
  next waits =>
    refine ⟨waits, ?_⟩
    intro whole
    rw [whole] at ready
    have settles := awaitContinue_settles peers.request.method stable continues
      (ready.withWritten (peers.writer.head peers.request peers.defaultHost))
    rw [run_bind] at waiting
    cases answered : (awaitContinue peers.client peers.request.method).run
        ((Conn.fresh (dialogue.toClient.map .data)).withWritten []
          (peers.writer.head peers.request peers.defaultHost)) with
    | error _ conn' =>
        rw [answered] at waiting settles
        exact settles (EStateM.Result.error.inj waiting).1
    | ok proceed conn' =>
        rw [answered] at waiting settles
        cases proceed with
        | true =>
            simp only [peers.writer.finish_run _ _ settles] at waiting
            cases waiting
        | false => cases waiting
  · cases waiting

theorem holdsBack_iff
    (supported : ¬(peers.request.versionMinor < 0 ∨ peers.request.versionMinor > 1)) :
    peers.HoldsBack ↔ peers.writer.waits peers.request peers.defaultHost = true := by
  have ready := ready_fresh_map peers.client.limits []
  have ran := peers.writer.write_run peers.client peers.request peers.defaultHost ready.writable
    supported
  constructor
  · rintro ⟨error, conn, stops, -⟩
    by_contra proceeds
    rw [if_neg proceeds] at ran
    rw [clientRun, ran] at stops
    cases stops
  · intro waits
    rcases awaitContinue_unanswered peers.request.method stable (ready.withWritten
      (peers.writer.head peers.request peers.defaultHost)) with ⟨error, conn, stops, written⟩
    refine ⟨error, conn, ?_, written⟩
    rw [if_pos waits, run_bind, stops] at ran
    exact ran

end

theorem inOrder_of_reached
    (stable : PrefixStable (peers.server.parser.request peers.server.limits.maxHeaderCount))
    (reached : Reached peers.step (fun _ _ => True) {} dialogue) : peers.InOrder dialogue := by
  apply reached.invariant
  · exact List.nil_prefix
  · intro dialogue delivery _ sent _ taken
    cases delivery with
    | toClient piece =>
        simp only [step] at taken
        split at taken
        next within =>
          cases taken
          rw [InOrder, List.flatten_append, List.flatten_singleton]
          exact within
        · cases taken
    | toServer piece =>
        simp only [step] at taken
        split at taken
        · cases taken
          rw [InOrder, serverSent_eq stable] at sent ⊢
          apply sent.trans
          simpa using invitation_append stable dialogue.toServer.flatten piece
        · cases taken

end Agreement

end Peers

/-- The client holds back its body if and only if the server, once it has parsed the head,
sends the interim response, whatever part of the body has reached it.  So there is no
state in which the client waits for an interim response, with nothing on the way to it,
while the server waits for the body. -/
theorem continue_agreement (peers : Peers)
    (requestStable :
      PrefixStable (peers.server.parser.request peers.server.limits.maxHeaderCount))
    (responseStable :
      PrefixStable (peers.client.parser.response peers.client.limits.maxHeaderCount))
    (plain : peers.request.PlainHead peers.request.headers)
    (host : IsPlainValue peers.defaultHost) (small : peers.request.body.length < 2 ^ 64)
    (parsesBack :
      peers.request.PlainHead (peers.writer.headers peers.request peers.defaultHost) →
        ParsesBack peers.server peers.request
          (peers.writer.headers peers.request peers.defaultHost))
    (continues : peers.client.parser.response peers.client.limits.maxHeaderCount continueBytes 0 =
      .complete continueBytes.length continueHead) :
    (∀ dialogue : Dialogue, peers.head <+: dialogue.toServer.flatten →
      peers.head.length ≤ peers.server.limits.maxHeaderBytes →
        (peers.HoldsBack ↔ peers.serverSent dialogue = continueBytes)) ∧
    ∀ dialogue, Reached peers.step (fun _ _ => True) {} dialogue →
      ¬(peers.ClientWaits dialogue ∧ peers.ServerWaitsForBody dialogue) := by
  have supported := plain.supported
  have parsed := parsesBack (by
    rw [peers.writer.headers_eq]
    exact plain.outgoing host _ _)
  have sends : ∀ dialogue : Dialogue, peers.head <+: dialogue.toServer.flatten →
      ¬NoHead (peers.server.parser.request peers.server.limits.maxHeaderCount)
        (dialogue.toServer.flatten.take peers.server.limits.maxHeaderBytes) →
      peers.serverSent dialogue =
        if peers.writer.waits peers.request peers.defaultHost then continueBytes else [] := by
    intro dialogue received found
    rw [Peers.serverSent_eq requestStable,
      Peers.invitation_of_head requestStable parsed received found,
      invitation_parsedHead peers.defaultHost peers.writer small]
  constructor
  · intro dialogue received fits
    have found : ¬NoHead (peers.server.parser.request peers.server.limits.maxHeaderCount)
        (dialogue.toServer.flatten.take peers.server.limits.maxHeaderBytes) := by
      intro none
      rcases received with ⟨behind, same⟩
      rw [← same] at none
      exact none _ _ (requestStable.take_append parsed fits behind)
    rw [Peers.holdsBack_iff responseStable supported, sends dialogue received found]
    by_cases waits : peers.writer.waits peers.request peers.defaultHost = true
    · simp [waits]
    · have different : [] ≠ continueBytes := by decide
      simp [waits, different]
  · rintro dialogue reached ⟨⟨clientWaits, blocked⟩, ⟨conn, serverWaits⟩, received⟩
    have found : ¬NoHead (peers.server.parser.request peers.server.limits.maxHeaderCount)
        (dialogue.toServer.flatten.take peers.server.limits.maxHeaderBytes) := by
      intro none
      have room := (readRequestStream_invites peers.sink requestStable
        (Peers.ready_fresh_map _ _)).room conn serverWaits none
      rw [List.take_of_length_le (by omega)] at none
      rcases received with ⟨behind, same⟩
      rw [← same] at none
      exact none _ _ (requestStable.append parsed behind)
    rcases Peers.waits_of_clientRun responseStable continues supported clientWaits with
      ⟨waits, unanswered⟩
    have sent := sends dialogue received found
    rw [if_pos waits] at sent
    rcases Peers.inOrder_of_reached requestStable reached with ⟨onTheWay, same⟩
    by_cases nothing : onTheWay = []
    · rw [nothing, List.append_nil, sent] at same
      exact unanswered same
    · have possible := blocked onTheWay nothing
      simp only [Peers.step, same, List.prefix_rfl, if_true, reduceCtorEq] at possible

/-- A request that expects the interim response twice. -/
def expectantPeers : Peers :=
  { client := duplexConfig, server := duplexConfig, sink := .collect
    request :=
      { method := ascii "PUT", body := ascii "x"
        headers := [⟨ascii "EXPECT", ascii "100-Continue"⟩,
          ⟨ascii "Expect", ascii ", 100-continue"⟩] }
    defaultHost := ascii "example"
    writer := .whole }

theorem continue_agreement_expectant :
    expectantPeers.HoldsBack ∧
      expectantPeers.serverSent ⟨[], [expectantPeers.head]⟩ = continueBytes ∧
      ∀ dialogue, Reached expectantPeers.step (fun _ _ => True) {} dialogue →
        ¬(expectantPeers.ClientWaits dialogue ∧ expectantPeers.ServerWaitsForBody dialogue) := by
  have sent : expectantPeers.serverSent ⟨[], [expectantPeers.head]⟩ = continueBytes := by
    decide +kernel
  have agreement := continue_agreement expectantPeers (Reference.prefixStable_request _)
    (Reference.prefixStable_response _) (by decide +kernel) (by decide +kernel) (by decide)
    (fun plain => Reference.parsesBack duplexConfig rfl plain (by decide +kernel))
    (by decide +kernel)
  refine ⟨(agreement.1 ⟨[], [expectantPeers.head]⟩ ?_ (by decide +kernel)).mpr sent, sent,
    agreement.2⟩
  simp

end Corouv.Http
