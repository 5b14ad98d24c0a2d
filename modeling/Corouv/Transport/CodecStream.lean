import Corouv.Io.ByteStream
import Corouv.Library.Commands

/-!
# Streams behind a codec

A `CodecStream` writes through a `MemoryCodec`, which turns plaintext into ciphertext,
to a TCP stream.  A codec is a state with the operations of the interface; any of them
may throw.  Next to the members of the class the state records what passed between its
parts: the plaintext that `write_plaintext` took, the ciphertext that `read_ciphertext`
produced, and how often the TCP stream was read.
-/

namespace Corouv.Transport

open Library Io

structure MemoryCodec (κ : Type) where
  handshakeComplete : κ → Bool
  wantsInput : κ → Bool
  hasPendingCiphertext : κ → Bool
  plaintextEof : κ → Bool
  writePlaintext : Bytes → Task κ ℕ
  feedCiphertext : Bytes → Task κ ℕ
  /-- The bytes read into a buffer of the given size. -/
  readCiphertext : ℕ → Task κ Bytes

structure CodecStream (κ : Type) where
  codec : κ
  stream : ByteStream := {}
  ciphertextBacklog : Bytes := []
  ciphertextBacklogOffset : ℕ := 0
  handed : Bytes := []
  produced : Bytes := []
  reads : ℕ := 0

/-- `TcpStream::write_all`. -/
def tcpWriteAll (data : Bytes) : Task ByteStream Unit := fun stream =>
  if data = [] then .ok () stream
  else if stream.isOpen then
    match stream.departures with
    | [] => .ok () { stream with written := stream.written ++ data }
    | .sent :: later | .stalled :: later =>
        .ok () { stream with departures := later, written := stream.written ++ data }
    | .failed count message :: later =>
        .error (.runtime message)
          { stream with departures := later, written := stream.written ++ data.take count }
  else .error (.logic "corouv::net::TcpStream is closed") stream

/-- `TcpStream::read_some`. -/
def tcpReadSome (capacity : ℕ) : Task ByteStream Bytes := fun stream =>
  if stream.isOpen then
    match receive capacity false stream.arrivals with
    | (.bytes data, later) => .ok data { stream with arrivals := later }
    | (.failure message, later) => .error (.runtime message) { stream with arrivals := later }
    | (.timeout, _) | (.waiting, _) => .error .suspended stream
    | (.busy, later) =>
        .error (.logic "corouv::net::TcpStream does not support concurrent reads")
          { stream with arrivals := later }
  else .error (.logic "corouv::net::TcpStream is closed") stream

namespace CodecStream

variable {κ : Type}

def onCodec {α : Type} (command : Task κ α) : Task (CodecStream κ) α :=
  onPart codec (fun codec state => { state with codec := codec }) command

def onStream {α : Type} (command : Task ByteStream α) : Task (CodecStream κ) α :=
  onPart stream (fun stream state => { state with stream := stream }) command

theorem onCodec_run_ok {α : Type} {command : Task κ α} {state : CodecStream κ} {value : α}
    {later : κ} (ran : command.run state.codec = .ok value later) :
    (onCodec command).run state = .ok value { state with codec := later } :=
  onPart_run_ok _ ran

theorem onStream_run_ok {α : Type} {command : Task ByteStream α} {state : CodecStream κ} {value : α}
    {later : ByteStream} (ran : command.run state.stream = .ok value later) :
    (onStream command).run state = .ok value { state with stream := later } :=
  onPart_run_ok _ ran

def hasCiphertextBacklog (state : CodecStream κ) : Bool :=
  state.ciphertextBacklogOffset < state.ciphertextBacklog.length

def compactCiphertextBacklog (state : CodecStream κ) : CodecStream κ :=
  if state.ciphertextBacklogOffset = 0 then state
  else if state.ciphertextBacklogOffset ≥ state.ciphertextBacklog.length then
    { state with ciphertextBacklog := [], ciphertextBacklogOffset := 0 }
  else
    { state with
      ciphertextBacklog := state.ciphertextBacklog.drop state.ciphertextBacklogOffset
      ciphertextBacklogOffset := 0 }

def feedBacklogTurn (codec : MemoryCodec κ) (_ : Unit) :
    Task (CodecStream κ) (Turn Unit Unit) := do
  let state ← get
  if state.hasCiphertextBacklog then
    let consumed ← onCodec
      (codec.feedCiphertext (state.ciphertextBacklog.drop state.ciphertextBacklogOffset))
    if consumed = 0 then pure (.done ())
    else
      modify fun state =>
        { state with ciphertextBacklogOffset := state.ciphertextBacklogOffset + consumed }
      pure (.again ())
  else pure (.done ())

def feedCiphertextBacklog (codec : MemoryCodec κ) : Task (CodecStream κ) Unit := do
  let state ← get
  loop .exhausted (feedBacklogTurn codec) (state.ciphertextBacklog.length + 1) ()
  modify compactCiphertextBacklog

def feedBytesTurn (codec : MemoryCodec κ) (data : Bytes) (offset : ℕ) :
    Task (CodecStream κ) (Turn ℕ Unit) := do
  if offset < data.length then
    let consumed ← onCodec (codec.feedCiphertext (data.drop offset))
    if consumed = 0 then
      modify fun state =>
        { state with ciphertextBacklog := data.drop offset, ciphertextBacklogOffset := 0 }
      pure (.done ())
    else pure (.again (offset + consumed))
  else pure (.done ())

def feedCiphertextBytes (codec : MemoryCodec κ) (data : Bytes) : Task (CodecStream κ) Unit := do
  if data = [] then pure ()
  else
    let state ← get
    if state.hasCiphertextBacklog then
      modify fun state => { state with ciphertextBacklog := state.ciphertextBacklog ++ data }
      feedCiphertextBacklog codec
    else loop .exhausted (feedBytesTurn codec data) (data.length + 1) 0

def flushTurn (codec : MemoryCodec κ) (_ : Unit) : Task (CodecStream κ) (Turn Unit Unit) := do
  let state ← get
  if codec.hasPendingCiphertext state.codec then
    let data ← onCodec (codec.readCiphertext 4096)
    if data = [] then pure (.done ())
    else
      modify fun state => { state with produced := state.produced ++ data }
      onStream (tcpWriteAll data)
      pure (.again ())
  else pure (.done ())

/-- `flush_ciphertext`, for at most so many turns. -/
def flushCiphertext (codec : MemoryCodec κ) (turns : ℕ) : Task (CodecStream κ) Unit :=
  loop .exhausted (flushTurn codec) turns ()

/-- What `write_all` does when the codec has not taken all of the data. -/
def awaitPeer (codec : MemoryCodec κ) (offset : ℕ) : Task (CodecStream κ) (Turn ℕ Unit) := do
  let state ← get
  if codec.plaintextEof state.codec then
    throw (.runtime "corouv::transport::CodecStream write on closed TLS session")
  else if !codec.wantsInput state.codec then
    if codec.hasPendingCiphertext state.codec then pure (.again offset)
    else throw (.runtime "corouv::transport::CodecStream write stalled")
  else if state.hasCiphertextBacklog then
    throw (.runtime "corouv::transport::CodecStream write backlog stalled")
  else
    modify fun state => { state with reads := state.reads + 1 }
    let data ← onStream (tcpReadSome 4096)
    if data = [] then throw (.runtime "corouv::transport::CodecStream write hit eof")
    else
      feedCiphertextBytes codec data
      pure (.again offset)

def writeTurn (codec : MemoryCodec κ) (turns : ℕ) (data : Bytes) (offset : ℕ) :
    Task (CodecStream κ) (Turn ℕ Unit) := do
  if offset < data.length then
    feedCiphertextBacklog codec
    let consumed ← onCodec (codec.writePlaintext (data.drop offset))
    modify fun state => { state with handed := state.handed ++ (data.drop offset).take consumed }
    flushCiphertext codec turns
    feedCiphertextBacklog codec
    if offset + consumed ≥ data.length then pure (.done ())
    else awaitPeer codec (offset + consumed)
  else pure (.done ())

/-- `write_all`, with a bound on the turns of its loops. -/
def writeAll (codec : MemoryCodec κ) (turns : ℕ) (data : Bytes) : Task (CodecStream κ) Unit := do
  let state ← get
  if state.stream.isOpen then
    loop .exhausted (writeTurn codec turns data) turns 0
    flushCiphertext codec turns
  else throw (.logic "corouv::transport::CodecStream is closed")

end CodecStream

end Corouv.Transport
