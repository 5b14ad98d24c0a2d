import Corouv.Transport.CodecStream

/-!
# Sessions: no ciphertext is lost

A handshake, a read and a write each take ciphertext from the TCP stream and feed it to the
codec, which may take any part of it, or nothing.  What it has not taken waits in the backlog.
At the end of every call, whether it returns or throws, what the codec took, what waits in the
backlog and what has not been read yet are, in this order, what the peer sent.

To say what the codec took, `recording` puts a record of it next to the codec's own state.
The handshake is the one of a codec without a handshake timeout, and every stream here has a
codec.
-/

namespace Corouv.Transport

open Library Io
open EStateM (run_bind run_get)

/-- The members of the interface that a handshake and a read use as well. -/
structure SessionCodec (κ : Type) extends MemoryCodec κ where
  startClient : Task κ Unit
  startServer : Task κ Unit
  /-- The bytes read into a buffer of the given size. -/
  readPlaintext : ℕ → Task κ Bytes

namespace CodecStream

variable {κ : Type}

/-- `_stream.read_some` into a scratch buffer. -/
def readCiphertextBytes : Task (CodecStream κ) Bytes := do
  modify fun state => { state with reads := state.reads + 1 }
  onStream (tcpReadSome 4096)

def handshakeTurn (codec : SessionCodec κ) (turns : ℕ) (_ : Unit) :
    Task (CodecStream κ) (Turn Unit Unit) := do
  let state ← get
  if codec.handshakeComplete state.codec then pure (.done ())
  else
    flushCiphertext codec.toMemoryCodec turns
    feedCiphertextBacklog codec.toMemoryCodec
    let state ← get
    if codec.handshakeComplete state.codec then pure (.done ())
    else if !codec.wantsInput state.codec then
      if !codec.hasPendingCiphertext state.codec then
        throw (.runtime "corouv::transport handshake stalled")
      else pure (.again ())
    else
      let data ← readCiphertextBytes
      if data = [] then throw (.runtime "corouv::transport handshake hit eof")
      else
        feedCiphertextBytes codec.toMemoryCodec data
        pure (.again ())

/-- `run_handshake`, with a bound on the turns of its loops. -/
def runHandshake (codec : SessionCodec κ) (turns : ℕ) (client : Bool) :
    Task (CodecStream κ) Unit := do
  onCodec (if client then codec.startClient else codec.startServer)
  loop .exhausted (handshakeTurn codec turns) turns ()
  flushCiphertext codec.toMemoryCodec turns
  feedCiphertextBacklog codec.toMemoryCodec

/-- What is there for the caller, or nothing if the session is over; `goOn` otherwise. -/
def deliver {α : Type} (codec : SessionCodec κ) (capacity : ℕ) (answer : Bytes → α)
    (goOn : Task (CodecStream κ) α) : Task (CodecStream κ) α := do
  let ready ← onCodec (codec.readPlaintext capacity)
  if ready ≠ [] then pure (answer ready)
  else
    let state ← get
    if codec.plaintextEof state.codec then pure (answer []) else goOn

def readTurn (codec : SessionCodec κ) (turns capacity : ℕ) (_ : Unit) :
    Task (CodecStream κ) (Turn Unit Bytes) := do
  flushCiphertext codec.toMemoryCodec turns
  feedCiphertextBacklog codec.toMemoryCodec
  deliver codec capacity .done do
    let state ← get
    if state.hasCiphertextBacklog then
      throw (.runtime "corouv::transport::CodecStream ciphertext backlog stalled")
    else
      let data ← readCiphertextBytes
      if data = [] then pure (.done [])
      else
        feedCiphertextBytes codec.toMemoryCodec data
        deliver codec capacity .done (pure (.again ()))

/-- `read_some`, with a bound on the turns of its loops. -/
def readSome (codec : SessionCodec κ) (turns capacity : ℕ) : Task (CodecStream κ) Bytes := do
  let state ← get
  if !state.stream.isOpen then throw (.logic "corouv::transport::CodecStream is closed")
  else if capacity = 0 then pure []
  else
    feedCiphertextBacklog codec.toMemoryCodec
    deliver codec capacity id (loop .exhausted (readTurn codec turns capacity) turns ())

inductive Call where
  | handshake (client : Bool)
  | readSome (capacity : ℕ)
  | writeAll (data : Bytes)

def Call.perform (codec : SessionCodec κ) (turns : ℕ) : Call → Task (CodecStream κ) Unit
  | handshake client => runHandshake codec turns client
  | readSome capacity => discard (CodecStream.readSome codec turns capacity)
  | writeAll data => CodecStream.writeAll codec.toMemoryCodec turns data

end CodecStream

section Recording

variable {κ : Type}

/-- A command of the codec leaves the record alone. -/
def aside {α : Type} (command : Task κ α) : Task (κ × Bytes) α :=
  onPart Prod.fst (fun own state => (own, state.2)) command

/-- The codec together with a record of what `feed_ciphertext` took. -/
def recording (codec : SessionCodec κ) : SessionCodec (κ × Bytes) where
  handshakeComplete state := codec.handshakeComplete state.1
  wantsInput state := codec.wantsInput state.1
  hasPendingCiphertext state := codec.hasPendingCiphertext state.1
  plaintextEof state := codec.plaintextEof state.1
  writePlaintext data := aside (codec.writePlaintext data)
  feedCiphertext data := do
    let consumed ← aside (codec.feedCiphertext data)
    modify fun state => (state.1, state.2 ++ data.take consumed)
    pure consumed
  readCiphertext capacity := aside (codec.readCiphertext capacity)
  startClient := aside codec.startClient
  startServer := aside codec.startServer
  readPlaintext capacity := aside (codec.readPlaintext capacity)

/-- `feed_ciphertext` takes a part from the front of its argument and does not throw. -/
def TakesFront (codec : SessionCodec κ) : Prop :=
  ∀ data state, ∃ count later,
    (codec.feedCiphertext data).run state = .ok count later ∧ count ≤ data.length

theorem recording_feedCiphertext {codec : SessionCodec κ} (takes : TakesFront codec)
    (data : Bytes) (state : κ × Bytes) :
    ∃ count later, ((recording codec).feedCiphertext data).run state =
      .ok count (later, state.2 ++ data.take count) ∧ count ≤ data.length := by
  rcases takes data state.1 with ⟨count, later, ran, bound⟩
  refine ⟨count, later, ?_, bound⟩
  have moved : (aside (codec.feedCiphertext data)).run state = .ok count (later, state.2) :=
    onPart_run_ok _ ran
  simp only [recording, run_bind, moved]
  rfl

theorem endState_aside {α : Type} (command : Task κ α) (state : κ × Bytes) :
    (endState ((aside command).run state)).2 = state.2 := by
  simp only [aside, onPart, EStateM.run]
  cases command state.1 with
  | ok _ _ | error _ _ => rfl

end Recording

namespace CodecStream

variable {κ : Type}

/-- The part of the backlog that the codec has not taken. -/
def unfed (state : CodecStream κ) : Bytes :=
  state.ciphertextBacklog.drop state.ciphertextBacklogOffset

/-- All of `total` is there while a call holds `data`, which it has read and not fed. -/
def Holding (total data : Bytes) (state : CodecStream (κ × Bytes)) : Prop :=
  state.codec.2 ++ (state.unfed ++ (data ++ allData state.stream.arrivals)) = total

def Conserved (total : Bytes) (state : CodecStream (κ × Bytes)) : Prop :=
  Holding total [] state

variable {codec : SessionCodec κ} {total : Bytes}

variable {α : Type} {state : CodecStream (κ × Bytes)} {data : Bytes}

theorem Holding.congr {later : CodecStream (κ × Bytes)} (holding : Holding total data state)
    (record : later.codec = state.codec) (backlog : later.unfed = state.unfed)
    (stream : later.stream.arrivals = state.stream.arrivals) : Holding total data later := by
  rw [Holding, record, backlog, stream]
  exact holding

theorem preserves_onCodec {command : Task (κ × Bytes) α}
    (silent : ∀ state, (endState (command.run state)).2 = state.2) :
    Preserves (Conserved total) (onCodec command) := by
  apply preserves_onPart
  intro _ conserved
  unfold Conserved Holding at conserved ⊢
  rw [silent]
  exact conserved

theorem preserves_aside (command : Task κ α) :
    Preserves (Conserved total) (onCodec (aside command)) :=
  preserves_onCodec (endState_aside command)

theorem unfed_compact (state : CodecStream κ) :
    state.compactCiphertextBacklog.unfed = state.unfed := by
  rw [compactCiphertextBacklog]
  split
  · rfl
  · split
    · rename_i enough
      exact (List.drop_eq_nil_of_le enough).symm
    · rfl

theorem codec_compact (state : CodecStream κ) :
    state.compactCiphertextBacklog.codec = state.codec := by
  rw [compactCiphertextBacklog]
  split_ifs <;> rfl

theorem stream_compact (state : CodecStream κ) :
    state.compactCiphertextBacklog.stream = state.stream := by
  rw [compactCiphertextBacklog]
  split_ifs <;> rfl

section

variable (takes : TakesFront codec)
include takes

theorem preserves_feedBacklogTurn (entry : Unit) :
    Preserves (Conserved total) (feedBacklogTurn (recording codec).toMemoryCodec entry) := by
  intro state conserved
  simp only [feedBacklogTurn, run_bind, run_get]
  split
  · rcases recording_feedCiphertext takes state.unfed state.codec with ⟨count, _, ran, -⟩
    rw [show state.ciphertextBacklog.drop state.ciphertextBacklogOffset = state.unfed from rfl,
      run_bind, onCodec_run_ok ran]
    have moved : state.codec.2 ++ state.unfed.take count ++
        (state.unfed.drop count ++ ([] ++ allData state.stream.arrivals)) = total := by
      rw [List.append_assoc, ← List.append_assoc (state.unfed.take count), List.take_append_drop]
      exact conserved
    by_cases none : count = 0
    · subst none
      exact moved
    · simp only [if_neg none]
      rw [unfed, List.drop_drop] at moved
      exact moved
  · exact conserved

theorem preserves_feedCiphertextBacklog :
    Preserves (Conserved total) (feedCiphertextBacklog (recording codec).toMemoryCodec) := by
  apply preserves_get_bind
  intro _
  apply preserves_bind
  · exact preserves_loop (preserves_feedBacklogTurn takes) _ ()
  · intro _
    apply preserves_modify
    intro later conserved
    exact conserved.congr (codec_compact later) (unfed_compact later) (by rw [stream_compact])

/-- Nothing is left in the backlog, and the codec has been fed `data` up to `offset`. -/
theorem feedBytesTurn_meets {offset : ℕ} (fed : state.unfed = [])
    (holding : Holding total (data.drop offset) state) : Turn.Meets
      (fun next later => (later.unfed = [] ∧ Holding total (data.drop next) later) ∧
        data.length - next < data.length - offset) (fun result => Conserved total (endState result))
      ((feedBytesTurn (recording codec).toMemoryCodec data offset).run state) := by
  have record : state.codec.2 ++ (data.drop offset ++ allData state.stream.arrivals) = total := by
    rw [Holding, fed] at holding
    exact holding
  rw [feedBytesTurn]
  split
  · rename_i more
    rcases recording_feedCiphertext takes (data.drop offset) state.codec with ⟨count, _, ran, _⟩
    rw [run_bind, onCodec_run_ok ran]
    by_cases none : count = 0
    · subst none
      simp only [if_pos, List.take_zero, List.append_nil]
      exact record
    · simp only [if_neg none]
      refine ⟨⟨fed, ?_⟩, ?_⟩
      · have moved : state.codec.2 ++ (data.drop offset).take count ++
            (state.unfed ++ (data.drop (offset + count) ++ allData state.stream.arrivals)) =
            total := by
          rw [fed, List.nil_append, ← List.drop_drop, List.append_assoc,
            ← List.append_assoc ((data.drop offset).take count), List.take_append_drop]
          exact record
        exact moved
      · omega
  · rename_i done
    rw [List.drop_eq_nil_of_le (not_lt.mp done)] at holding
    exact holding

theorem feedCiphertextBytes_conserves (holding : Holding total data state) : Conserved total
      (endState ((feedCiphertextBytes (recording codec).toMemoryCodec data).run state)) := by
  rw [feedCiphertextBytes]
  split
  · rename_i none
    rw [none] at holding
    exact holding
  · rw [run_bind, run_get]
    dsimp only
    by_cases backlog : state.hasCiphertextBacklog = true
    · rw [if_pos backlog]
      apply preserves_feedCiphertextBacklog takes
      have inside : state.ciphertextBacklogOffset ≤ state.ciphertextBacklog.length := by
        have below : state.ciphertextBacklogOffset < state.ciphertextBacklog.length := by
          simpa [hasCiphertextBacklog] using backlog
        omega
      have longer : (state.ciphertextBacklog ++ data).drop state.ciphertextBacklogOffset =
          state.unfed ++ data := List.drop_append_of_le_length inside
      change state.codec.2 ++ ((state.ciphertextBacklog ++ data).drop
        state.ciphertextBacklogOffset ++ ([] ++ allData state.stream.arrivals)) = total
      rw [longer, List.append_assoc]
      exact holding
    · rw [if_neg backlog]
      have fed : state.unfed = [] := by
        apply List.drop_eq_nil_of_le
        simpa [hasCiphertextBacklog] using backlog
      apply loop_total
        (fun offset later => later.unfed = [] ∧ Holding total (data.drop offset) later)
        (fun offset _ => data.length - offset) (fun result => Conserved total (endState result))
      · rintro _ _ ⟨nothing, held⟩
        exact feedBytesTurn_meets takes nothing held
      · exact ⟨fed, holding⟩
      · omega

end

theorem allData_tcpReadSome (capacity : ℕ) (stream : ByteStream) :
    match (tcpReadSome capacity).run stream with
    | .ok data later => allData stream.arrivals = data ++ allData later.arrivals
    | .error _ later => allData stream.arrivals = allData later.arrivals := by
  have kept := allData_receive capacity false stream.arrivals
  simp only [EStateM.run, tcpReadSome]
  by_cases isOpen : stream.isOpen = true
  · rw [if_pos isOpen]
    cases outcome : receive capacity false stream.arrivals with
    | mk received _ =>
        rw [outcome] at kept
        cases received with
        | bytes _ | failure _ | busy => exact kept
        | timeout | waiting => rfl
  · rw [if_neg isOpen]

/-- The rule for reading from the TCP stream: what was read is held by the rest of the call. -/
theorem preserves_read {next : Bytes → Task (CodecStream (κ × Bytes)) α}
    (feeds : ∀ data state, Holding total data state →
      Conserved total (endState ((next data).run state))) :
    Preserves (Conserved total) (readCiphertextBytes >>= next) := by
  intro state conserved
  have read := allData_tcpReadSome 4096 state.stream
  cases outcome : (tcpReadSome 4096).run state.stream with
  | ok data later =>
      rw [outcome] at read
      have ran : (readCiphertextBytes : Task (CodecStream (κ × Bytes)) Bytes).run state =
          .ok data { state with stream := later, reads := state.reads + 1 } :=
        onStream_run_ok outcome
      rw [run_bind, ran]
      apply feeds
      unfold Conserved Holding at conserved
      rw [read] at conserved
      exact conserved
  | error error later =>
      rw [outcome] at read
      have ran : (readCiphertextBytes : Task (CodecStream (κ × Bytes)) Bytes).run state =
          .error error { state with stream := later, reads := state.reads + 1 } :=
        onPart_run_error _ outcome
      rw [run_bind, ran]
      unfold Conserved Holding at conserved
      rw [read] at conserved
      exact conserved

theorem preserves_onStream {command : Task ByteStream Unit}
    (quiet : ∀ stream, (endState (command.run stream)).arrivals = stream.arrivals) :
    Preserves (Conserved total) (onStream command : Task (CodecStream (κ × Bytes)) Unit) := by
  apply preserves_onPart
  intro state conserved
  exact conserved.congr rfl rfl (quiet state.stream)

theorem arrivals_tcpWriteAll (data : Bytes) (stream : ByteStream) :
    (endState ((tcpWriteAll data).run stream)).arrivals = stream.arrivals := by
  simp only [EStateM.run, tcpWriteAll]
  split
  · rfl
  · split
    · split <;> rfl
    · rfl

theorem preserves_flushCiphertext (turns : ℕ) :
    Preserves (Conserved total) (flushCiphertext (recording codec).toMemoryCodec turns) := by
  apply preserves_loop
  intro _
  apply preserves_get_bind
  intro _
  split
  · apply preserves_bind (preserves_aside _)
    intro data
    split
    · apply preserves_pure
    · apply preserves_bind
      · exact preserves_modify fun _ conserved => conserved
      intro _
      apply preserves_bind
      · exact preserves_onStream (arrivals_tcpWriteAll data)
      intro _
      apply preserves_pure
  · apply preserves_pure

theorem preserves_deliver (capacity : ℕ) (answer : Bytes → α)
    {goOn : Task (CodecStream (κ × Bytes)) α} (kept : Preserves (Conserved total) goOn) :
    Preserves (Conserved total) (deliver (recording codec) capacity answer goOn) := by
  apply preserves_bind (preserves_aside _)
  intro _
  split
  · apply preserves_pure
  · apply preserves_get_bind
    intro _
    split
    · apply preserves_pure
    · exact kept

section

variable (takes : TakesFront codec)
include takes

theorem preserves_read_feed {nothing next : Task (CodecStream (κ × Bytes)) α}
    (keptNothing : Preserves (Conserved total) nothing) (kept : Preserves (Conserved total) next) :
    Preserves (Conserved total) (readCiphertextBytes >>= fun data =>
      if data = [] then nothing
      else do
        feedCiphertextBytes (recording codec).toMemoryCodec data
        next) := by
  apply preserves_read
  intro _ state holding
  split
  · rename_i none
    subst none
    exact keptNothing state holding
  · exact endState_bind (feedCiphertextBytes_conserves takes holding) fun _ => kept

theorem preserves_handshakeTurn (turns : ℕ) (entry : Unit) :
    Preserves (Conserved total) (handshakeTurn (recording codec) turns entry) := by
  apply preserves_get_bind
  intro _
  split
  · apply preserves_pure
  · apply preserves_bind (preserves_flushCiphertext turns)
    intro _
    apply preserves_bind (preserves_feedCiphertextBacklog takes)
    intro _
    apply preserves_get_bind
    intro _
    split
    · apply preserves_pure
    · split
      · split
        · apply preserves_throw
        · apply preserves_pure
      · exact preserves_read_feed takes (preserves_throw _) (preserves_pure _)

theorem preserves_runHandshake (turns : ℕ) (client : Bool) :
    Preserves (Conserved total) (runHandshake (recording codec) turns client) := by
  apply preserves_bind
  · cases client with
    | false => exact preserves_aside codec.startServer
    | true => exact preserves_aside codec.startClient
  intro _
  apply preserves_bind
  · exact preserves_loop (preserves_handshakeTurn takes turns) turns ()
  intro _
  apply preserves_bind (preserves_flushCiphertext turns)
  intro _
  exact preserves_feedCiphertextBacklog takes

theorem preserves_readTurn (turns capacity : ℕ) (entry : Unit) :
    Preserves (Conserved total) (readTurn (recording codec) turns capacity entry) := by
  apply preserves_bind (preserves_flushCiphertext turns)
  intro _
  apply preserves_bind (preserves_feedCiphertextBacklog takes)
  intro _
  apply preserves_deliver
  apply preserves_get_bind
  intro _
  split
  · apply preserves_throw
  · apply preserves_read_feed takes (preserves_pure _)
    apply preserves_deliver
    apply preserves_pure

theorem preserves_readSome (turns capacity : ℕ) :
    Preserves (Conserved total) (readSome (recording codec) turns capacity) := by
  apply preserves_get_bind
  intro _
  split
  · apply preserves_throw
  · split
    · apply preserves_pure
    · apply preserves_bind (preserves_feedCiphertextBacklog takes)
      intro _
      apply preserves_deliver
      exact preserves_loop (preserves_readTurn takes turns capacity) turns ()

theorem preserves_awaitPeer (offset : ℕ) :
    Preserves (Conserved total) (awaitPeer (recording codec).toMemoryCodec offset) := by
  apply preserves_get_bind
  intro _
  split
  · apply preserves_throw
  · split
    · split
      · apply preserves_pure
      · apply preserves_throw
    · split
      · apply preserves_throw
      · exact preserves_read_feed takes (preserves_throw _) (preserves_pure _)

theorem preserves_writeTurn (turns : ℕ) (data : Bytes) (offset : ℕ) :
    Preserves (Conserved total)
      (writeTurn (recording codec).toMemoryCodec turns data offset) := by
  rw [writeTurn]
  split
  · apply preserves_bind (preserves_feedCiphertextBacklog takes)
    intro _
    apply preserves_bind (preserves_aside _)
    intro _
    apply preserves_bind
    · exact preserves_modify fun _ conserved => conserved
    intro _
    apply preserves_bind (preserves_flushCiphertext turns)
    intro _
    apply preserves_bind (preserves_feedCiphertextBacklog takes)
    intro _
    split
    · apply preserves_pure
    · exact preserves_awaitPeer takes _
  · apply preserves_pure

theorem preserves_writeAll (turns : ℕ) (data : Bytes) :
    Preserves (Conserved total) (writeAll (recording codec).toMemoryCodec turns data) := by
  apply preserves_get_bind
  intro _
  split
  · apply preserves_bind
    · exact preserves_loop (preserves_writeTurn takes turns data) turns 0
    intro _
    exact preserves_flushCiphertext turns
  · apply preserves_throw

theorem Call.preserves_perform (turns : ℕ) (call : Call) :
    Preserves (Conserved total) (call.perform (recording codec) turns) := by
  cases call with
  | handshake client => exact preserves_runHandshake takes turns client
  | readSome capacity =>
      apply preserves_bind (preserves_readSome takes turns capacity)
      intro _
      apply preserves_pure
  | writeAll data => exact preserves_writeAll takes turns data

end

/-- The call has come to its end: it returned or threw. -/
def Completed : EStateM.Result Exn (CodecStream κ) Unit → Prop
  | .ok _ _ => True
  | .error error _ => error ≠ .suspended ∧ error ≠ .exhausted

/-- Calls made one after the other, each when the one before it has come to its end. -/
inductive Runs (codec : SessionCodec κ) : List Call → CodecStream κ → CodecStream κ → Prop
  | nil (state : CodecStream κ) : Runs codec [] state state
  | cons {call : Call} {calls : List Call} {turns : ℕ} {state later : CodecStream κ}
      (completed : Completed ((call.perform codec turns).run state))
      (rest : Runs codec calls (endState ((call.perform codec turns).run state)) later) :
      Runs codec (call :: calls) state later

/-- The bytes that were read from a stream while it went from `start` to `later`: they are those
at the front of what was in store for it that are no longer in store. -/
def Obtained (start later : ByteStream) (data : Bytes) : Prop :=
  allData start.arrivals = data ++ allData later.arrivals

theorem Runs.conserved (takes : TakesFront codec) {calls : List Call}
    {later : CodecStream (κ × Bytes)} (runs : Runs (recording codec) calls state later)
    (conserved : Conserved total state) : Conserved total later := by
  induction runs with
  | nil _ => exact conserved
  | cons _ _ ih =>
      apply ih
      exact Call.preserves_perform takes _ _ _ conserved

/-- What the codec took and what is left of the backlog is what was read, in this order. -/
theorem ciphertext_conserved (takes : TakesFront codec) {calls : List Call} {initial : κ}
    {stream : ByteStream} {later : CodecStream (κ × Bytes)}
    (runs : Runs (recording codec) calls { codec := (initial, []), stream := stream } later) :
    Obtained stream later.stream (later.codec.2 ++ later.unfed) := by
  have start : Conserved (allData stream.arrivals)
      ({ codec := (initial, []), stream := stream } : CodecStream (κ × Bytes)) := rfl
  have conserved := runs.conserved takes start
  rw [Obtained, List.append_assoc]
  exact conserved.symm

/-- A codec that takes so many bytes and no more, and whose handshake is complete when all but
two of them have come. -/
def boundedCodec : SessionCodec ℕ where
  handshakeComplete room := room ≤ 2
  wantsInput _ := true
  hasPendingCiphertext _ := false
  plaintextEof _ := false
  writePlaintext data := pure data.length
  feedCiphertext data := fun room => .ok (min room data.length) (room - min room data.length)
  readCiphertext _ := pure []
  startClient := pure ()
  startServer := pure ()
  readPlaintext _ := pure []

theorem takesFront_boundedCodec : TakesFront boundedCodec :=
  fun _ _ => ⟨_, _, rfl, Nat.min_le_right _ _⟩

/-- A handshake and a read of a stream that delivers eight bytes in two pieces. -/
theorem ciphertext_conserved_bounded :
    ∃ later : CodecStream (ℕ × Bytes),
      Runs (recording boundedCodec) [.handshake true, .readSome 16]
        { codec := (5, []),
          stream := { arrivals := [.data (ascii "abcd"), .data (ascii "efgh")] } } later ∧
      later.codec.2 = ascii "abcde" ∧ later.unfed = ascii "fgh" ∧
      Obtained { arrivals := [.data (ascii "abcd"), .data (ascii "efgh")] } later.stream
        (later.codec.2 ++ later.unfed) := by
  have runs := @Runs.cons _ (recording boundedCodec) (.handshake true) [.readSome 16] 3
    { codec := (5, []), stream := { arrivals := [.data (ascii "abcd"), .data (ascii "efgh")] } }
    _ trivial (@Runs.cons _ _ (.readSome 16) [] 3 _ _ ⟨by decide, by decide⟩ (.nil _))
  exact ⟨_, runs, by decide +kernel, by decide +kernel,
    ciphertext_conserved takesFront_boundedCodec runs⟩

end CodecStream

end Corouv.Transport
