import Corouv.Http.Buffer
import Corouv.Http.Message
import Corouv.Io.ByteStream

/-!
# Reading message bodies

The anonymous-namespace readers of `http.cpp`, over the mutable state of a
`Connection`.  A `BodySink` is the function it applies to the string it fills;
`collect` is the sink of `read_request` and `read_response`, `ignore` the one
that drops the body of an interim response.

`trace` is not part of the program: it records every call of `on_chunk`, with the
length the chunk-size line announced, and every call of `BufferCursor::consume`,
with the number of bytes the buffer held.

The loops of the source are `Library.loop`s.  Every turn that does not leave takes
at least one byte from the network or from the buffer, which bounds their number.
-/

namespace Corouv.Http

open Library Io

inductive BodyEvent where
  | delivered (announced : Option ℕ) (data : Bytes)
  | consumed (length held : ℕ)
  deriving DecidableEq, Repr

structure Conn where
  buffer : BufferCursor := {}
  stream : ByteStream := {}
  prefetchedResponse : Option Response := none
  body : Bytes := []
  trace : List BodyEvent := []

structure BodySink where
  absorb : Bytes → Bytes → Bytes

def BodySink.collect : BodySink := ⟨fun body chunk => body ++ chunk⟩

def BodySink.ignore : BodySink := ⟨fun body _ => body⟩

namespace Conn

/-- Bytes a turn of some loop can still use up. -/
def backlog (conn : Conn) : ℕ :=
  conn.buffer.size + (allData conn.stream.arrivals).length

def append (conn : Conn) (data : Bytes) : Conn :=
  { conn with buffer := conn.buffer.append data }

def consume (conn : Conn) (length : ℕ) : Conn :=
  { conn with
    buffer := conn.buffer.consume length
    trace := conn.trace ++ [.consumed length conn.buffer.size] }

def onChunk (conn : Conn) (sink : BodySink) (announced : Option ℕ) (chunk : Bytes) : Conn :=
  { conn with
    body := sink.absorb conn.body chunk
    trace := conn.trace ++ [.delivered announced chunk] }

def withArrivals (conn : Conn) (arrivals : List Arrival) : Conn :=
  { conn with stream := { conn.stream with arrivals := arrivals } }

def withWritten (conn : Conn) (later : List Departure) (data : Bytes) : Conn :=
  { conn with stream :=
    { conn.stream with departures := later, written := conn.stream.written ++ data } }

def close (conn : Conn) : Conn :=
  { conn with stream := { conn.stream with isOpen := false } }

end Conn

/-- The outcome of `recv_some` for what the network came up with. -/
def Conn.received (conn : Conn) (deadline : Deadline) :
    Received × List Arrival → EStateM.Result Exn Conn Bytes
  | (.bytes data, later) => .ok data (conn.withArrivals later)
  | (.timeout, later) => .error (.http deadline.status deadline.message) (conn.withArrivals later)
  | (.failure message, later) => .error (.runtime message) (conn.withArrivals later)
  | (.waiting, _) => .error .suspended conn
  | (.busy, later) =>
      .error (.logic "corouv::net::TcpStream does not support concurrent reads")
        (conn.withArrivals later)

def recvSome (capacity : ℕ) (deadline : Deadline) : Task Conn Bytes := fun conn =>
  if conn.stream.isOpen then
    conn.received deadline (receive capacity deadline.duration.isSome conn.stream.arrivals)
  else .error (.logic "corouv::net::TcpStream is closed") conn

def sendAll (data : Bytes) (deadline : Deadline) : Task Conn Unit := fun conn =>
  if data = [] then .ok () conn
  else if conn.stream.isOpen then
    match conn.stream.departures with
    | [] => .ok () (conn.withWritten [] data)
    | .sent :: later => .ok () (conn.withWritten later data)
    | .stalled :: later =>
        -- the write is given up, and still goes out
        if deadline.duration.isSome then
          .error (.http deadline.status deadline.message) (conn.withWritten later data)
        else .ok () (conn.withWritten later data)
    | .failed count message :: later =>
        .error (.runtime message) (conn.withWritten later (data.take count))
  else .error (.logic "corouv::net::TcpStream is closed") conn

def readMore (maxBuffered : ℕ) (tooLarge : Exn) (maxRead : ℕ) (deadline : Deadline) :
    Task Conn ℕ := do
  if maxRead = 0 then pure 0
  else
    let data ← recvSome (min maxRead 4096) deadline
    if data = [] then pure 0
    else
      let conn ← get
      if conn.buffer.size + data.length > maxBuffered then throw tooLarge
      else
        modify fun conn => conn.append data
        pure data.length

def ensureBufferTurn (wanted maxBuffered : ℕ) (tooLarge : Exn) (eofMessage : String)
    (deadline : Deadline) (_ : Unit) : Task Conn (Turn Unit Unit) := do
  let conn ← get
  if conn.buffer.size < wanted then
    let count ← readMore maxBuffered tooLarge (wanted - conn.buffer.size) deadline
    if count = 0 then throw (.http 400 eofMessage)
    else pure (.again ())
  else pure (.done ())

def ensureBuffer (wanted maxBuffered : ℕ) (tooLarge : Exn) (eofMessage : String)
    (deadline : Deadline) : Task Conn Unit := do
  let conn ← get
  loop .exhausted (ensureBufferTurn wanted maxBuffered tooLarge eofMessage deadline)
    (conn.backlog + 1) ()

def readLineCrlfTurn (maxLine : ℕ) (tooLarge : Exn) (eofMessage : String) (deadline : Deadline)
    (_ : Unit) : Task Conn (Turn Unit Bytes) := do
  let conn ← get
  match find crlf conn.buffer.view with
  | some position =>
      modify fun conn => conn.consume (position + 2)
      pure (.done (conn.buffer.view.take position))
  | none =>
      if conn.buffer.size ≥ maxLine then throw tooLarge
      else
        let count ← readMore maxLine tooLarge (maxLine - conn.buffer.size) deadline
        if count = 0 then throw (.http 400 eofMessage)
        else pure (.again ())

def readLineCrlf (maxLine : ℕ) (tooLarge : Exn) (eofMessage : String) (deadline : Deadline) :
    Task Conn Bytes := do
  let conn ← get
  loop .exhausted (readLineCrlfTurn maxLine tooLarge eofMessage deadline) (conn.backlog + 1) ()

def readFixedBodyTurn (sink : BodySink) (deadline : Deadline) (remaining : ℕ) :
    Task Conn (Turn ℕ Unit) := do
  if remaining > 0 then
    let conn ← get
    if conn.buffer.size ≠ 0 then
      let count := min remaining conn.buffer.size
      modify fun conn => conn.onChunk sink none (conn.buffer.view.take count)
      modify fun conn => conn.consume count
      pure (.again (remaining - count))
    else
      let count ← readMore remaining (.http 413 "HTTP body too large") (min remaining 4096) deadline
      if count = 0 then throw (.http 400 "unexpected eof while reading HTTP body")
      else pure (.again remaining)
  else pure (.done ())

def readFixedBodyStream (limits : Limits) (size : ℕ) (sink : BodySink) (deadline : Deadline) :
    Task Conn Unit := do
  if size > limits.maxBodyBytes then throw (.http 413 "HTTP body too large")
  else
    let conn ← get
    loop .exhausted (readFixedBodyTurn sink deadline) (2 * conn.backlog + 2) size

/-- The length announced by a chunk-size line, after dropping extensions. -/
def chunkSize (line : Bytes) : Option ℕ :=
  let text := trimCopy (line.take ((find (ascii ";") line).getD line.length))
  match Numeral.fromChars 16 (2 ^ 64) text with
  | some (size, []) => some size
  | _ => none

def readChunkSize (limits : Limits) (deadline : Deadline) : Task Conn ℕ := do
  let line ← readLineCrlf limits.maxHeaderBytes (.http 431 "chunk header too large")
    "unexpected eof while reading chunk header" deadline
  match chunkSize line with
  | some size => pure size
  | none => throw (.http 400 "invalid chunk size")

def appendTrailer (trailers : Headers) (line : Bytes) : Except Exn Headers :=
  match find (ascii ":") line with
  | none => throw (.http 400 "invalid chunk trailer header")
  | some colon =>
      pure (trailers ++ [⟨trimCopy (line.take colon), trimCopy (line.drop (colon + 1))⟩])

/-- One turn of the trailer loop; `wanted` is false when the caller passes no
`trailers_out`, and then the lines are read and dropped. -/
def readTrailersTurn (limits : Limits) (deadline : Deadline) (wanted : Bool)
    (trailers : Headers) : Task Conn (Turn Headers Headers) := do
  let line ← readLineCrlf limits.maxHeaderBytes (.http 431 "trailer headers too large")
    "unexpected eof while reading trailer headers" deadline
  if line = [] then pure (.done trailers)
  else if wanted then
    match appendTrailer trailers line with
    | .error error => throw error
    | .ok longer =>
        if longer.length > limits.maxHeaderCount then
          throw (.http 431 "too many chunk trailer headers")
        else pure (.again longer)
  else pure (.again trailers)

def readTrailers (limits : Limits) (deadline : Deadline) (wanted : Bool) : Task Conn Headers := do
  let conn ← get
  loop .exhausted (readTrailersTurn limits deadline wanted) (conn.backlog + 1) []

/-- The `max_buffered` of `read_chunked_body_stream`. -/
def chunkBufferLimit (limits : Limits) (total : ℕ) : ℕ :=
  min (sizeAdd (sizeSub limits.maxBodyBytes total) 2)
    (sizeAdd limits.maxBodyBytes limits.maxHeaderBytes)

/-- One turn of the chunk loop, given the body bytes delivered so far. -/
def readChunkTurn (limits : Limits) (sink : BodySink) (deadline : Deadline) (wanted : Bool)
    (total : ℕ) : Task Conn (Turn ℕ Headers) := do
  let size ← readChunkSize limits deadline
  if size = 0 then
    let trailers ← readTrailers limits deadline wanted
    pure (.done trailers)
  else if sizeAdd total size > limits.maxBodyBytes then throw (.http 413 "HTTP body too large")
  else
    ensureBuffer (sizeAdd size 2) (chunkBufferLimit limits total)
      (.http 413 "HTTP body too large") "unexpected eof while reading chunk data" deadline
    modify fun conn => conn.onChunk sink (some size) (conn.buffer.view.take size)
    modify fun conn => conn.consume size
    let conn ← get
    if conn.buffer.view.take 2 ≠ crlf then throw (.http 400 "invalid chunk terminator")
    else
      modify fun conn => conn.consume 2
      pure (.again (sizeAdd total size))

def readChunkedBodyStream (limits : Limits) (sink : BodySink) (deadline : Deadline)
    (wanted : Bool) : Task Conn Headers := do
  let conn ← get
  loop .exhausted (readChunkTurn limits sink deadline wanted) (conn.backlog + 1) 0

def readUntilCloseTurn (limits : Limits) (sink : BodySink) (deadline : Deadline) (total : ℕ) :
    Task Conn (Turn ℕ Unit) := do
  let data ← recvSome 4096 deadline
  if data = [] then
    modify Conn.close
    pure (.done ())
  else if sizeAdd total data.length > limits.maxBodyBytes then
    throw (.http 413 "HTTP body too large")
  else
    modify fun conn => conn.onChunk sink none data
    pure (.again (sizeAdd total data.length))

def readUntilCloseBodyStream (limits : Limits) (sink : BodySink) (deadline : Deadline) :
    Task Conn Unit := do
  let conn ← get
  if conn.buffer.size > limits.maxBodyBytes then throw (.http 413 "HTTP body too large")
  else
    if conn.buffer.size ≠ 0 then
      modify fun conn => conn.onChunk sink none conn.buffer.view
      modify fun conn => conn.consume conn.buffer.size
    loop .exhausted (readUntilCloseTurn limits sink deadline) (conn.backlog + 1) conn.buffer.size

end Corouv.Http
