import Corouv.Http.Reader

/-!
# Writing chunked bodies

`write_chunk` and `write_chunked_body_stream` of `http.cpp`.  A `BodyChunkSource`
is the list of strings it will produce before it returns `nullopt`.  `chunkBytes`
and `chunkedBytes` are the same output as plain byte strings.
-/

namespace Corouv.Http

open Library Io

def writeChunk (chunk : Bytes) (deadline : Deadline) : Task Conn Unit := do
  sendAll (Numeral.digits 16 chunk.length ++ crlf) deadline
  if chunk ≠ [] then sendAll chunk deadline
  sendAll crlf deadline

def writeChunks (deadline : Deadline) : List Bytes → Task Conn Unit
  | [] => pure ()
  | chunk :: later => do
      writeChunk chunk deadline
      writeChunks deadline later

def writeChunkedBodyStream (bodySource : List Bytes) (trailers : Headers) (deadline : Deadline) :
    Task Conn Unit := do
  writeChunks deadline bodySource
  sendAll (ascii "0" ++ crlf) deadline
  if trailers ≠ [] then sendAll (serializeHeaders trailers) deadline
  sendAll crlf deadline

def chunkBytes (chunk : Bytes) : Bytes :=
  Numeral.digits 16 chunk.length ++ crlf ++ chunk ++ crlf

def chunkedBytes (bodySource : List Bytes) (trailers : Headers) : Bytes :=
  bodySource.flatMap chunkBytes ++ (ascii "0" ++ crlf ++ serializeHeaders trailers ++ crlf)

/-- The pieces of a message, each sent by a call of its own. -/
def sendPieces (deadline : Deadline) : List Bytes → Task Conn Unit
  | [] => pure ()
  | piece :: later => do
      sendAll piece deadline
      sendPieces deadline later

def chunkPieces (chunk : Bytes) : List Bytes :=
  [Numeral.digits 16 chunk.length ++ crlf, chunk, crlf]

def chunkedPieces (bodySource : List Bytes) (trailers : Headers) : List Bytes :=
  bodySource.flatMap chunkPieces ++ [ascii "0" ++ crlf, serializeHeaders trailers, crlf]

theorem flatten_chunkedPieces (bodySource : List Bytes) (trailers : Headers) :
    (chunkedPieces bodySource trailers).flatten = chunkedBytes bodySource trailers := by
  induction bodySource with
  | nil => simp [chunkedPieces, chunkedBytes]
  | cons _ _ ih => simpa [chunkedPieces, chunkedBytes, chunkPieces, chunkBytes] using ih

/-- What can become of one call. -/
inductive Sending (data : Bytes) (deadline : Deadline) (conn : Conn) :
    EStateM.Result Exn Conn Unit → Prop
  | nothing (empty : data = []) : Sending data deadline conn (.ok () conn)
  | done (some : data ≠ []) (isOpen : conn.stream.isOpen = true)
      (carried : ∀ fate ∈ conn.stream.departures.take 1, deadline.carries fate = true) :
      Sending data deadline conn (.ok () (conn.withWritten (conn.stream.departures.drop 1) data))
  | late {later : List Departure} (some : data ≠ []) (isOpen : conn.stream.isOpen = true)
      (fates : conn.stream.departures = .stalled :: later)
      (timed : deadline.duration.isSome = true) :
      Sending data deadline conn
        (.error (.http deadline.status deadline.message) (conn.withWritten later data))
  | failed {count : ℕ} {message : String} {later : List Departure} (some : data ≠ [])
      (isOpen : conn.stream.isOpen = true)
      (fates : conn.stream.departures = .failed count message :: later) :
      Sending data deadline conn
        (.error (.runtime message) (conn.withWritten later (data.take count)))
  | closed (some : data ≠ []) (shut : conn.stream.isOpen = false) :
      Sending data deadline conn (.error (.logic "corouv::net::TcpStream is closed") conn)

theorem Sending.run_eq {data : Bytes} {deadline : Deadline} {conn : Conn}
    {result : EStateM.Result Exn Conn Unit} (sending : Sending data deadline conn result) :
    (sendAll data deadline).run conn = result := by
  simp only [sendAll, EStateM.run]
  cases sending with
  | nothing empty => rw [if_pos empty]
  | done some isOpen carried =>
      rw [if_neg some, if_pos isOpen]
      cases fates : conn.stream.departures with
      | nil => rfl
      | cons fate later =>
          rw [fates] at carried
          have through := carried fate List.mem_cons_self
          cases fate with
          | sent => rfl
          | stalled =>
              have untimed : ¬deadline.duration.isSome = true := by
                simpa [Deadline.carries] using through
              simp [untimed]
          | failed _ _ => cases through
  | late some isOpen fates timed => simp [some, isOpen, fates, timed]
  | failed some isOpen fates => simp [some, isOpen, fates]
  | closed some shut => simp [some, shut]

theorem sending_sendAll (data : Bytes) (deadline : Deadline) (conn : Conn) :
    Sending data deadline conn ((sendAll data deadline).run conn) := by
  suffices ∃ result, Sending data deadline conn result by
    rcases this with ⟨_, sending⟩
    rw [sending.run_eq]
    exact sending
  by_cases some : data = []
  · exact ⟨_, .nothing some⟩
  · cases isOpen : conn.stream.isOpen with
    | false => exact ⟨_, .closed some isOpen⟩
    | true =>
        by_cases carried : ∀ fate ∈ conn.stream.departures.take 1, deadline.carries fate = true
        · exact ⟨_, .done some isOpen carried⟩
        · cases fates : conn.stream.departures with
          | nil => simp [fates] at carried
          | cons fate later =>
              cases fate with
              | sent => simp [fates, Deadline.carries] at carried
              | stalled => exact ⟨_, .late some isOpen fates (by
                  simpa [fates, Deadline.carries, Option.isSome_iff_ne_none] using carried)⟩
              | failed _ _ => exact ⟨_, .failed some isOpen fates⟩

theorem sendAll_nil (deadline : Deadline) : sendAll [] deadline = pure () := rfl

theorem sendPieces_append (deadline : Deadline) (front back : List Bytes) :
    sendPieces deadline (front ++ back) =
      sendPieces deadline front >>= fun _ => sendPieces deadline back := by
  induction front with
  | nil => simp [sendPieces]
  | cons _ _ ih => simp [sendPieces, ih]

theorem writeChunks_eq (deadline : Deadline) (bodySource : List Bytes) :
    writeChunks deadline bodySource = sendPieces deadline (bodySource.flatMap chunkPieces) := by
  induction bodySource with
  | nil => rfl
  | cons chunk _ ih =>
      rw [List.flatMap_cons, sendPieces_append, ← ih]
      by_cases empty : chunk = [] <;>
        simp [writeChunks, writeChunk, chunkPieces, sendPieces, empty, sendAll_nil]

/-- A chunked body is sent piece by piece; nothing is sent for an empty piece. -/
theorem writeChunkedBodyStream_eq (bodySource : List Bytes) (trailers : Headers)
    (deadline : Deadline) :
    writeChunkedBodyStream bodySource trailers deadline =
      sendPieces deadline (chunkedPieces bodySource trailers) := by
  rw [chunkedPieces, sendPieces_append, ← writeChunks_eq]
  by_cases empty : trailers = [] <;>
    simp [writeChunkedBodyStream, sendPieces, empty, sendAll_nil, serializeHeaders]

/-- Every write will go through. -/
structure Conn.Writable (conn : Conn) : Prop where
  isOpen : conn.stream.isOpen = true
  departures_eq : conn.stream.departures = []

variable {conn : Conn}

theorem Conn.Writable.withWritten (writable : conn.Writable) (data : Bytes) :
    (conn.withWritten [] data).Writable :=
  ⟨writable.isOpen, rfl⟩

theorem Conn.withWritten_withWritten (conn : Conn) (first second : Bytes) :
    (conn.withWritten [] first).withWritten [] second = conn.withWritten [] (first ++ second) := by
  simp [Conn.withWritten]

variable (writable : conn.Writable)
include writable

theorem Conn.Writable.withWritten_nil : conn.withWritten [] [] = conn := by
  rcases conn with ⟨_, ⟨_, departures, _, _⟩, _, _, _⟩
  have empty : departures = [] := writable.departures_eq
  subst departures
  simp [Conn.withWritten]

theorem Conn.Writable.sendAll_run (data : Bytes) (deadline : Deadline) :
    (sendAll data deadline).run conn = .ok () (conn.withWritten [] data) := by
  by_cases empty : data = []
  · rw [empty, writable.withWritten_nil]
    rfl
  · rw [Sending.run_eq (.done empty writable.isOpen (by simp [writable.departures_eq])),
      writable.departures_eq, List.drop_nil]

theorem Conn.Writable.sendAll_run_withWritten (sent data : Bytes) (deadline : Deadline) :
    (sendAll data deadline).run (conn.withWritten [] sent) =
      .ok () (conn.withWritten [] (sent ++ data)) := by
  rw [(writable.withWritten sent).sendAll_run, Conn.withWritten_withWritten]

theorem Conn.Writable.sendPieces_run (deadline : Deadline) (pieces : List Bytes) :
    (sendPieces deadline pieces).run conn = .ok () (conn.withWritten [] pieces.flatten) := by
  induction pieces generalizing conn with
  | nil =>
      rw [List.flatten_nil, writable.withWritten_nil]
      rfl
  | cons _ _ ih =>
      simp [sendPieces, writable.sendAll_run, ih (writable.withWritten _),
        Conn.withWritten_withWritten]

theorem Conn.Writable.writeChunkedBodyStream_run (bodySource : List Bytes) (trailers : Headers)
    (deadline : Deadline) :
    (writeChunkedBodyStream bodySource trailers deadline).run conn =
      .ok () (conn.withWritten [] (chunkedBytes bodySource trailers)) := by
  rw [writeChunkedBodyStream_eq, writable.sendPieces_run, flatten_chunkedPieces]

end Corouv.Http
