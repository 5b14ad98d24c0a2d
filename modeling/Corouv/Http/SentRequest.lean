import Corouv.Http.SentHead

/-!
# An outgoing request

`write_request` and `write_request_stream` send a head, wait for `100 Continue` where the
head asks for it, and send the body.
-/

namespace Corouv.Http

open Library Io
open EStateM (run_bind run_pure)

/-- The interim response that lets a client send the body. -/
def continueBytes : Bytes := ascii "HTTP/1.1 100 Continue\r\n\r\n"

/-- The body is held back until the server has answered the head. -/
def waitsForContinue (request : Request) (defaultHost : Bytes) : Bool :=
  if request.chunked then expectsContinue (outgoingRequestHeaders request defaultHost true 0)
  else expectsContinue (outgoingRequestHeaders request defaultHost false request.body.length) &&
    decide (request.body ≠ [])

/-- The two functions that write a request. -/
inductive RequestWriter where
  | whole
  | stream (bodySource : List Bytes)

namespace RequestWriter

def write (config : Config) (request : Request) (defaultHost : Bytes) :
    RequestWriter → Task Conn Unit
  | .whole => writeRequest config request defaultHost
  | .stream bodySource => writeRequestStream config request bodySource defaultHost

def headers (request : Request) (defaultHost : Bytes) : RequestWriter → Headers
  | .whole =>
      if request.chunked then outgoingRequestHeaders request defaultHost true 0
      else outgoingRequestHeaders request defaultHost false request.body.length
  | .stream _ => outgoingRequestHeaders request defaultHost true 0

def head (request : Request) (defaultHost : Bytes) (writer : RequestWriter) : Bytes :=
  requestHeadBytes request (writer.headers request defaultHost)

def content (request : Request) : RequestWriter → Bytes
  | .whole => if request.chunked then chunkedBytes [request.body] request.trailers else request.body
  | .stream bodySource => chunkedBytes bodySource request.trailers

/-- The parts of the content that are sent by calls of their own. -/
def pieces (request : Request) : RequestWriter → List Bytes
  | .whole =>
      if request.chunked then chunkedPieces [request.body] request.trailers else [request.body]
  | .stream bodySource => chunkedPieces bodySource request.trailers

def waits (request : Request) (defaultHost : Bytes) : RequestWriter → Bool
  | .whole => waitsForContinue request defaultHost
  | .stream _ => expectsContinue (outgoingRequestHeaders request defaultHost true 0)

end RequestWriter

section

variable (request : Request) (defaultHost : Bytes) (chunked : Bool)
include request defaultHost chunked

theorem fieldsNamed_outgoingRequestHeaders (bodySize : ℕ) {name : Bytes}
    (host : iequals (ascii "Host") name = false)
    (connection : iequals (ascii "Connection") name = false)
    (contentLength : iequals (ascii "Content-Length") name = false)
    (transferEncoding : iequals (ascii "Transfer-Encoding") name = false) :
    fieldsNamed name (outgoingRequestHeaders request defaultHost chunked bodySize) =
      fieldsNamed name request.headers := by
  rw [outgoingRequestHeaders,
    fieldsNamed_prepareOutgoingHeaders _ _ _ _ connection contentLength transferEncoding]
  split
  · exact fieldsNamed_setHeader _ _ host
  · rfl

theorem shouldKeepAlive_outgoing (bodySize : ℕ) (versionMinor : ℤ) :
    shouldKeepAlive (outgoingRequestHeaders request defaultHost chunked bodySize) versionMinor =
      request.keepAlive := by
  rw [outgoingRequestHeaders, shouldKeepAlive_prepared]

theorem parseTransferEncoding_outgoing (bodySize : ℕ) :
    parseTransferEncoding (outgoingRequestHeaders request defaultHost chunked bodySize) =
      .ok (if chunked then .chunked else .none) := by
  rw [outgoingRequestHeaders, parseTransferEncoding_prepared]

theorem parseContentLength_outgoing {bodySize : ℕ} (small : bodySize < 2 ^ 64) :
    parseContentLength (outgoingRequestHeaders request defaultHost chunked bodySize) =
      .ok (if chunked then none else some bodySize) := by
  rw [outgoingRequestHeaders, parseContentLength_prepared _ _ _ _ small]

theorem parseExpect_outgoingRequestHeaders (bodySize : ℕ) :
    parseExpect (outgoingRequestHeaders request defaultHost chunked bodySize) =
      parseExpect request.headers := by
  rw [parseExpect, fieldTokens, fieldsNamed_outgoingRequestHeaders _ _ _ _ (by decide) (by decide)
    (by decide) (by decide)]
  rfl

theorem expectsContinue_outgoingRequestHeaders (bodySize : ℕ) :
    expectsContinue (outgoingRequestHeaders request defaultHost chunked bodySize) =
      expectsContinue request.headers := by
  rw [expectsContinue, expectsContinue, parseExpect_outgoingRequestHeaders]

end

variable {request : Request}

theorem expectsContinue_of_waitsForContinue {defaultHost : Bytes}
    (waits : waitsForContinue request defaultHost = true) :
    expectsContinue request.headers = true := by
  simp only [waitsForContinue, expectsContinue_outgoingRequestHeaders] at waits
  split at waits
  · exact waits
  · simp only [Bool.and_eq_true] at waits
    exact waits.1

/-- Characters of a request target: no spaces and no control bytes. -/
def isTargetByte (byte : UInt8) : Bool :=
  32 < byte && byte != 127

/-- The head of a request with the given fields is well formed. -/
@[mk_iff]
structure Request.PlainHead (request : Request) (headers : Headers) : Prop where
  method_ne : request.method ≠ []
  method : ∀ byte ∈ request.method, isTokenByte byte = true
  target : ∀ byte ∈ request.target, isTargetByte byte = true
  version : request.versionMinor = 0 ∨ request.versionMinor = 1
  headers : ∀ header ∈ headers, header.Plain

instance (request : Request) (headers : Headers) : Decidable (request.PlainHead headers) :=
  decidable_of_iff _ (Request.plainHead_iff request headers).symm

theorem Request.PlainHead.supported {headers : Headers} (plain : request.PlainHead headers) :
    ¬(request.versionMinor < 0 ∨ request.versionMinor > 1) := by
  rcases plain.version with _ | _
  · omega
  · omega

theorem Request.PlainHead.outgoing {defaultHost : Bytes} (plain : request.PlainHead request.headers)
    (host : IsPlainValue defaultHost) (chunked : Bool) (bodySize : ℕ) :
    request.PlainHead (outgoingRequestHeaders request defaultHost chunked bodySize) := by
  refine { plain with headers := ?_ }
  intro header mem
  rcases mem_prepareOutgoingHeaders mem with hosted | added
  · split at hosted
    · rcases mem_setHeader hosted with given | rfl
      · exact plain.headers header given
      · have token : ascii "Host" ≠ [] ∧ ∀ byte ∈ ascii "Host", isTokenByte byte = true := by
          decide +kernel
        exact ⟨token.1, token.2, host⟩
    · exact plain.headers header hosted
  · exact added.wellFormed.plain

def Request.sentTarget (request : Request) : Bytes :=
  if request.target = [] then ascii "/" else request.target

/-- A head as picohttpparser is to report it. -/
def Request.parsedHead (request : Request) (headers : Headers) : RequestHead :=
  ⟨request.method, request.sentTarget, request.versionMinor,
    headers.map fun header => ⟨some header.name, header.value⟩⟩

/-- What is assumed of `phr_parse_request` at one head. -/
def ParsesBack (config : Config) (request : Request) (headers : Headers) : Prop :=
  config.parser.request config.limits.maxHeaderCount (requestHeadBytes request headers) 0 =
    .complete (requestHeadBytes request headers).length (request.parsedHead headers)

namespace RequestWriter

def isChunked (request : Request) : RequestWriter → Bool
  | .whole => request.chunked
  | .stream _ => true

def announcedLength (request : Request) (writer : RequestWriter) : Option ℕ :=
  if writer.isChunked request then none else some request.body.length

/-- The request a reader makes of the head, before its body. -/
def announced (request : Request) (defaultHost : Bytes) (writer : RequestWriter) : Request :=
  { method := request.method
    target := request.sentTarget
    headers := writer.headers request defaultHost
    versionMinor := request.versionMinor
    keepAlive := request.keepAlive
    chunked := writer.isChunked request }

theorem headers_eq (request : Request) (defaultHost : Bytes) (writer : RequestWriter) :
    writer.headers request defaultHost = outgoingRequestHeaders request defaultHost
      (writer.isChunked request)
      (if writer.isChunked request then 0 else request.body.length) := by
  cases writer with
  | stream _ => rfl
  | whole =>
      cases chunked : request.chunked with
      | true | false => simp [headers, isChunked, chunked]

theorem parseExpect_headers (request : Request) (defaultHost : Bytes) (writer : RequestWriter) :
    parseExpect (writer.headers request defaultHost) = parseExpect request.headers := by
  rw [headers_eq, parseExpect_outgoingRequestHeaders]

theorem requestOfHead_parsedHead {request : Request} (defaultHost : Bytes)
    (writer : RequestWriter) (small : request.body.length < 2 ^ 64) :
    requestOfHead (request.parsedHead (writer.headers request defaultHost)) =
      .ok (writer.announced request defaultHost, writer.announcedLength request) := by
  have sized : (if writer.isChunked request then 0 else request.body.length) < 2 ^ 64 := by
    split
    · norm_num
    · exact small
  simp only [requestOfHead, Request.parsedHead, copyHeaders_named, announced, announcedLength]
  simp only [headers_eq, parseTransferEncoding_outgoing, shouldKeepAlive_outgoing,
    parseContentLength_outgoing _ _ _ sized]
  cases writer.isChunked request with
  | true | false => rfl

end RequestWriter

namespace RequestWriter

theorem flatten_pieces (request : Request) (writer : RequestWriter) :
    (writer.pieces request).flatten = writer.content request := by
  cases writer with
  | stream _ => exact flatten_chunkedPieces _ _
  | whole =>
      simp only [pieces, content]
      split
      · exact flatten_chunkedPieces _ _
      · exact List.flatten_singleton

/-- The end of a request: the writer sends the content, if it is to proceed. -/
def finish (config : Config) (request : Request) (writer : RequestWriter) (proceed : Bool) :
    Task Conn Unit :=
  if proceed then sendPieces config.requestWriteDeadline (writer.pieces request) else pure ()

section

variable (config : Config) (request : Request) (defaultHost : Bytes) (writer : RequestWriter)

/-- Whatever becomes of its writes, a writer sends the head, may wait for the server, and ends
with the content. -/
theorem write_eq (supported : ¬(request.versionMinor < 0 ∨ request.versionMinor > 1)) :
    writer.write config request defaultHost = (do
      sendAll (writer.head request defaultHost) config.requestWriteDeadline
      if writer.waits request defaultHost then
        awaitContinue config request.method >>= writer.finish config request
      else writer.finish config request true) := by
  have ends : ∀ writer : RequestWriter, writer.finish config request = fun proceed =>
      if proceed then sendPieces config.requestWriteDeadline (writer.pieces request)
      else pure () := fun _ => rfl
  have stream : ∀ bodySource, writeRequestStream config request bodySource defaultHost = (do
      sendAll (requestHeadBytes request (outgoingRequestHeaders request defaultHost true 0))
        config.requestWriteDeadline
      if expectsContinue (outgoingRequestHeaders request defaultHost true 0) then
        awaitContinue config request.method >>= (stream bodySource).finish config request
      else (stream bodySource).finish config request true) := by
    intro bodySource
    simp [writeRequestStream, if_neg supported, writeChunkedBodyStream_eq, ends, pieces]
  cases writer with
  | stream bodySource => exact stream bodySource
  | whole =>
      simp only [write, waits, waitsForContinue, head, headers]
      by_cases chunked : request.chunked = true
      · simp only [writeRequest, chunked, if_true, stream, ends, pieces]
      · simp only [writeRequest, chunked, Bool.false_eq_true, if_false, if_neg supported, ends,
          pieces, sendPieces]
        by_cases empty : request.body = [] <;> simp [empty, sendAll_nil]

theorem write_unsupported (unsupported : request.versionMinor < 0 ∨ request.versionMinor > 1) :
    writer.write config request defaultHost = throw unsupportedVersion := by
  cases writer with
  | stream _ => simp only [write, writeRequestStream, if_pos unsupported]
  | whole => simp only [write, writeRequest, writeRequestStream, if_pos unsupported, ite_self]

variable {conn : Conn} (writable : conn.Writable)
include writable

theorem finish_run : (writer.finish config request true).run conn =
    .ok () (conn.withWritten [] (writer.content request)) := by
  rw [← flatten_pieces]
  exact writable.sendPieces_run _ _

theorem write_run (supported : ¬(request.versionMinor < 0 ∨ request.versionMinor > 1)) :
    (writer.write config request defaultHost).run conn =
      if writer.waits request defaultHost then
        (awaitContinue config request.method >>= writer.finish config request).run
          (conn.withWritten [] (writer.head request defaultHost))
      else .ok () ((conn.withWritten [] (writer.head request defaultHost)).withWritten []
        (writer.content request)) := by
  rw [write_eq config request defaultHost writer supported, run_bind, writable.sendAll_run]
  dsimp only
  split
  · rfl
  · exact writer.finish_run config request (writable.withWritten _)

end

end RequestWriter

end Corouv.Http
