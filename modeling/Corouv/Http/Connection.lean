import Corouv.Http.Writer

/-!
# HTTP connections

`http::Connection`.  The heads of messages are parsed by picohttpparser, which is
not part of the repository: a `HeadParser` stands for `phr_parse_request` and
`phr_parse_response`, given the capacity of the header array, the bytes buffered
and `last_len`.  A connection is a `Conn` together with its `Config`.
-/

namespace Corouv.Http

open Library Io

/-- One `phr_header`; the name of a continuation line is a null pointer. -/
structure RawHeader where
  name : Option Bytes
  value : Bytes
  deriving DecidableEq, Repr

structure RequestHead where
  method : Bytes
  path : Bytes
  minorVersion : ℤ
  headers : List RawHeader
  deriving DecidableEq, Repr

structure ResponseHead where
  minorVersion : ℤ
  status : ℤ
  message : Bytes
  headers : List RawHeader
  deriving DecidableEq, Repr

/-- The result of a parser call: a positive number of bytes, `-1` or `-2`. -/
inductive Parsed (head : Type) where
  | complete (length : ℕ) (head : head)
  | malformed
  | incomplete
  deriving DecidableEq, Repr

structure HeadParser where
  request : (maxHeaders : ℕ) → (view : Bytes) → (lastLen : ℕ) → Parsed RequestHead
  response : (maxHeaders : ℕ) → (view : Bytes) → (lastLen : ℕ) → Parsed ResponseHead

structure Config where
  parser : HeadParser
  limits : Limits := {}
  timeouts : IoTimeouts := {}

def copyHeader (headers : Headers) (raw : RawHeader) : Headers :=
  match raw.name with
  | some name => headers ++ [⟨name, raw.value⟩]
  | none =>
      match headers.getLast? with
      | none => headers
      | some last =>
          headers.dropLast ++ [⟨last.name, last.value ++ ascii " " ++ raw.value⟩]

def copyHeaders (raw : List RawHeader) : Headers :=
  raw.foldl copyHeader []

/-- The errors of one of the two head loops. -/
structure HeadErrors where
  malformed : Exn
  tooLarge : Exn

inductive HeadStep (head : Type) where
  | complete (length : ℕ) (head : head)
  | eof
  | more (lastLen : ℕ)

/-- One pass of a head loop up to the point where the head is there or more bytes
have come in: the part `read_request_stream` and `read_response_stream_impl` share. -/
def headStep {head : Type} (parse : Bytes → ℕ → Parsed head) (errors : HeadErrors)
    (limits : Limits) (deadline : Deadline) (lastLen : ℕ) : Task Conn (HeadStep head) := do
  let conn ← get
  match if conn.buffer.view = [] then .incomplete else parse conn.buffer.view lastLen with
  | .complete length head => pure (.complete length head)
  | .malformed => throw errors.malformed
  | .incomplete =>
      if conn.buffer.size ≥ limits.maxHeaderBytes then throw errors.tooLarge
      else
        let count ← readMore limits.maxHeaderBytes errors.tooLarge
          (limits.maxHeaderBytes - conn.buffer.size) deadline
        if count = 0 then pure .eof else pure (.more conn.buffer.size)

def requestErrors : HeadErrors :=
  ⟨.http 400 "invalid HTTP request", .http 431 "request headers too large"⟩

/-- The request a head announces and its `Content-Length`. -/
def requestOfHead (head : RequestHead) : Except Exn (Request × Option ℕ) :=
  let headers := copyHeaders head.headers
  match parseTransferEncoding headers with
  | .error error => throw (.http 400 error.what)
  | .ok encoding =>
      let request : Request :=
        { method := head.method
          target := head.path
          headers := headers
          versionMinor := head.minorVersion
          keepAlive := shouldKeepAlive headers head.minorVersion
          chunked := decide (encoding = .chunked) }
      match parseContentLength headers with
      | .error error => throw error
      | .ok contentLength =>
          if request.chunked && contentLength.isSome then
            throw (.http 400 "invalid HTTP request: both Transfer-Encoding and Content-Length")
          else pure (request, contentLength)

def Config.requestBodyDeadline (config : Config) : Deadline :=
  ⟨config.timeouts.readBody, 408, "request body read timeout"⟩

def hasRequestBody (request : Request) (contentLength : Option ℕ) : Bool :=
  request.chunked || contentLength.any fun size => decide (size > 0)

/-- The interim response a client may be waiting for. -/
def sendContinue (config : Config) (request : Request) (contentLength : Option ℕ) :
    Task Conn Unit :=
  if parseExpect request.headers = .continue100 ∧ hasRequestBody request contentLength then
    sendAll (ascii "HTTP/1.1 100 Continue\r\n\r\n")
      ⟨config.timeouts.write, 504, "continue write timeout"⟩
  else pure ()

def readRequestBody (config : Config) (sink : BodySink) (request : Request)
    (contentLength : Option ℕ) : Task Conn Request := do
  if request.chunked then
    let trailers ← readChunkedBodyStream config.limits sink config.requestBodyDeadline true
    pure { request with trailers := trailers }
  else
    match contentLength with
    | some size =>
        readFixedBodyStream config.limits size sink config.requestBodyDeadline
        pure request
    | none => pure request

/-- Everything from a parsed head to the end of the request. -/
def finishRequest (config : Config) (sink : BodySink) (length : ℕ) (head : RequestHead) :
    Task Conn Request := do
  match requestOfHead head with
  | .error error => throw error
  | .ok (request, contentLength) =>
      modify fun conn => conn.consume length
      if parseExpect request.headers = .unsupported then
        throw (.http 417 "unsupported Expect header")
      else
        sendContinue config request contentLength
        readRequestBody config sink request contentLength

def readRequestTurn (config : Config) (sink : BodySink) (lastLen : ℕ) :
    Task Conn (Turn ℕ (Option Request)) := do
  match ← headStep (config.parser.request config.limits.maxHeaderCount) requestErrors
      config.limits ⟨config.timeouts.readHeaders, 408, "request header read timeout"⟩ lastLen with
  | .complete length head => do
      let request ← finishRequest config sink length head
      pure (.done (some request))
  | .more lastLen => pure (.again lastLen)
  | .eof => do
      let conn ← get
      if conn.buffer.size = 0 then pure (.done none)
      else throw (.http 400 "unexpected eof while reading request")

def readRequestStream (config : Config) (sink : BodySink) : Task Conn (Option Request) := do
  let conn ← get
  loop .exhausted (readRequestTurn config sink) (conn.backlog + 1) 0

/-- `read_request` and its local `body`. -/
def readRequest (config : Config) : Task Conn (Option Request) := do
  modify fun conn => { conn with body := [] }
  let request ← readRequestStream config .collect
  let conn ← get
  pure (request.map fun request => { request with body := conn.body })

def responseErrors : HeadErrors :=
  ⟨.http 502 "invalid HTTP response", .http 502 "response headers too large"⟩

def responseOfHead (head : ResponseHead) : Except Exn (Response × Option ℕ) :=
  let headers := copyHeaders head.headers
  match parseTransferEncoding headers with
  | .error error => throw (.http 502 error.what)
  | .ok encoding =>
      let response : Response :=
        { status := head.status
          reason := head.message
          headers := headers
          versionMinor := head.minorVersion
          keepAlive := shouldKeepAlive headers head.minorVersion
          chunked := decide (encoding = .chunked) }
      match parseContentLength headers with
      | .error _ => throw (.http 502 "invalid response Content-Length")
      | .ok contentLength =>
          if response.chunked && contentLength.isSome then
            throw (.http 502 "invalid HTTP response: both Transfer-Encoding and Content-Length")
          else pure (response, contentLength)

def Config.responseBodyDeadline (config : Config) : Deadline :=
  ⟨config.timeouts.readBody, 504, "response body read timeout"⟩

/-- Read and drop the body of an interim response. -/
def skipInterimBody (config : Config) (response : Response) (contentLength : Option ℕ) :
    Task Conn Unit := do
  if response.chunked then
    let _ ← readChunkedBodyStream config.limits .ignore config.responseBodyDeadline false
    pure ()
  else
    match contentLength with
    | some size => readFixedBodyStream config.limits size .ignore config.responseBodyDeadline
    | none => pure ()

/-- Read the body of a final response, if it has one. -/
def readFinalBody (config : Config) (requestMethod : Bytes) (sink : BodySink)
    (response : Response) (contentLength : Option ℕ) : Task Conn Response := do
  if responseHasBody response.status requestMethod then
    if response.chunked then
      let trailers ← readChunkedBodyStream config.limits sink config.responseBodyDeadline true
      pure { response with trailers := trailers }
    else
      match contentLength with
      | some size =>
          readFixedBodyStream config.limits size sink config.responseBodyDeadline
          pure response
      | none =>
          if !response.keepAlive then
            readUntilCloseBodyStream config.limits sink config.responseBodyDeadline
          pure response
  else pure response

/-- Everything from a parsed head to the end of the response; an interim response
sends the head loop round again when it is to be skipped. -/
def finishResponse (config : Config) (requestMethod : Bytes) (sink : BodySink)
    (skipInformational : Bool) (length : ℕ) (head : ResponseHead) :
    Task Conn (Turn ℕ Response) := do
  match responseOfHead head with
  | .error error => throw error
  | .ok (response, contentLength) =>
      modify fun conn => conn.consume length
      if isInformational response.status then
        skipInterimBody config response contentLength
        if skipInformational then pure (.again 0) else pure (.done response)
      else
        let response ← readFinalBody config requestMethod sink response contentLength
        pure (.done response)

def readResponseTurn (config : Config) (requestMethod : Bytes) (sink : BodySink)
    (skipInformational : Bool) (lastLen : ℕ) : Task Conn (Turn ℕ Response) := do
  match ← headStep (config.parser.response config.limits.maxHeaderCount) responseErrors
      config.limits ⟨config.timeouts.readHeaders, 504, "response header read timeout"⟩ lastLen with
  | .complete length head => finishResponse config requestMethod sink skipInformational length head
  | .more lastLen => pure (.again lastLen)
  | .eof => throw (.http 502 "unexpected eof while reading response")

/-- Every turn takes a byte from the network or a head from the buffer. -/
def readResponseStreamImpl (config : Config) (requestMethod : Bytes) (sink : BodySink)
    (skipInformational : Bool) : Task Conn Response := do
  let conn ← get
  loop .exhausted (readResponseTurn config requestMethod sink skipInformational)
    (2 * conn.backlog + 2) 0

/-- A call of `read_response_stream_impl` that collects the body in a local string. -/
def collectResponse (config : Config) (requestMethod : Bytes) (skipInformational : Bool) :
    Task Conn Response := do
  modify fun conn => { conn with body := [] }
  let response ← readResponseStreamImpl config requestMethod .collect skipInformational
  let conn ← get
  pure { response with body := conn.body }

def readResponse (config : Config) (requestMethod : Bytes) : Task Conn Response := do
  let conn ← get
  match conn.prefetchedResponse with
  | some response =>
      modify fun conn => { conn with prefetchedResponse := none }
      pure response
  | none => collectResponse config requestMethod true

def readResponseStream (config : Config) (requestMethod : Bytes) (sink : BodySink) :
    Task Conn Response := do
  let conn ← get
  match conn.prefetchedResponse with
  | some response =>
      modify fun conn => { conn with prefetchedResponse := none }
      if response.body ≠ [] then modify fun conn => conn.onChunk sink none response.body
      pure { response with body := [] }
  | none => readResponseStreamImpl config requestMethod sink true

def Config.requestWriteDeadline (config : Config) : Deadline :=
  ⟨config.timeouts.write, 504, "request write timeout"⟩

def Config.responseWriteDeadline (config : Config) : Deadline :=
  ⟨config.timeouts.write, 504, "response write timeout"⟩

def unsupportedVersion : Exn :=
  .logic "corouv::http::Connection only supports HTTP/1.x"

/-- The fields of an outgoing request. -/
def outgoingRequestHeaders (request : Request) (defaultHost : Bytes) (chunked : Bool)
    (bodySize : ℕ) : Headers :=
  let hosted :=
    if defaultHost ≠ [] ∧ findHeader request.headers (ascii "Host") = none then
      setHeader request.headers (ascii "Host") defaultHost
    else request.headers
  prepareOutgoingHeaders hosted request.keepAlive chunked bodySize

def requestHeadBytes (request : Request) (headers : Headers) : Bytes :=
  let target := if request.target = [] then ascii "/" else request.target
  request.method ++ ascii " " ++ target ++ ascii " HTTP/1." ++ intToString request.versionMinor ++
    crlf ++ serializeHeaders headers ++ crlf

/-- Wait for `100 Continue`; any other response is kept for `read_response`, and
the body is not sent. -/
def awaitContinue (config : Config) (method : Bytes) : Task Conn Bool := do
  let prefetched ← collectResponse config method false
  if prefetched.status ≠ 100 then
    modify fun conn => { conn with prefetchedResponse := some prefetched }
    pure false
  else pure true

def writeRequestStream (config : Config) (request : Request) (bodySource : List Bytes)
    (defaultHost : Bytes) : Task Conn Unit := do
  if request.versionMinor < 0 ∨ request.versionMinor > 1 then throw unsupportedVersion
  else
    let headers := outgoingRequestHeaders request defaultHost true 0
    sendAll (requestHeadBytes request headers) config.requestWriteDeadline
    let proceed ←
      if expectsContinue headers then awaitContinue config request.method else pure true
    if proceed then
      writeChunkedBodyStream bodySource request.trailers config.requestWriteDeadline

def writeRequest (config : Config) (request : Request) (defaultHost : Bytes) :
    Task Conn Unit := do
  if request.chunked then writeRequestStream config request [request.body] defaultHost
  else if request.versionMinor < 0 ∨ request.versionMinor > 1 then throw unsupportedVersion
  else
    let headers := outgoingRequestHeaders request defaultHost false request.body.length
    sendAll (requestHeadBytes request headers) config.requestWriteDeadline
    let proceed ←
      if expectsContinue headers ∧ request.body ≠ [] then awaitContinue config request.method
      else pure true
    if proceed ∧ request.body ≠ [] then sendAll request.body config.requestWriteDeadline

def responseHeadBytes (response : Response) (headers : Headers) : Bytes :=
  let reason := if response.reason = [] then reasonPhrase response.status else response.reason
  ascii "HTTP/1." ++ intToString response.versionMinor ++ ascii " " ++
    intToString response.status ++ ascii " " ++ reason ++ crlf ++ serializeHeaders headers ++ crlf

def writeResponseStream (config : Config) (response : Response) (bodySource : List Bytes)
    (requestMethod : Bytes) : Task Conn Unit := do
  if response.versionMinor < 0 ∨ response.versionMinor > 1 then throw unsupportedVersion
  else
    let hasBody := responseHasBody response.status requestMethod
    let headers := prepareOutgoingHeaders response.headers response.keepAlive hasBody 0
    sendAll (responseHeadBytes response headers) config.responseWriteDeadline
    if hasBody then
      writeChunkedBodyStream bodySource response.trailers config.responseWriteDeadline

def writeResponse (config : Config) (response : Response) (requestMethod : Bytes) :
    Task Conn Unit := do
  if response.chunked then
    writeResponseStream config response [response.body] requestMethod
  else if response.versionMinor < 0 ∨ response.versionMinor > 1 then throw unsupportedVersion
  else
    let headers :=
      prepareOutgoingHeaders response.headers response.keepAlive false response.body.length
    sendAll (responseHeadBytes response headers) config.responseWriteDeadline
    if responseHasBody response.status requestMethod ∧ response.body ≠ [] then
      sendAll response.body config.responseWriteDeadline

end Corouv.Http
