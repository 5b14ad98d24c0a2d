import Corouv.Transport.CodecStream

/-!
# The TLS codec

What a codec does in a session that both sides keep open, and that the TLS codec does it.
`BearSslCodecBase` drives a BearSSL engine through its buffers.  The engine is a
parameter: the flags of its current state, its last error, the room in its input buffers
and the contents of its output buffer, and what acknowledging does to it.  An engine in an
open session makes the codec one that accepts plaintext whenever it has been drained.
-/

namespace Corouv.Transport

variable {κ ε : Type}

/-- A codec in an open session: `good` holds of its states from here on, and `pending`
bounds the number of reads that drain its ciphertext. -/
structure Accepting (codec : MemoryCodec κ) (good : κ → Prop) (pending : κ → ℕ) : Prop where
  listens : ∀ {state}, good state →
    codec.wantsInput state = true ∧ codec.plaintextEof state = false
  feeds : ∀ {state}, good state → ∀ data, ∃ count later,
    (codec.feedCiphertext data).run state = .ok count later ∧ good later
  drains : ∀ {state}, good state → codec.hasPendingCiphertext state = true → ∃ data later,
    (codec.readCiphertext 4096).run state = .ok data later ∧ data ≠ [] ∧
      good later ∧ pending later < pending state
  accepts : ∀ {state}, good state → ∀ {data}, data ≠ [] → ∃ count later,
    (codec.writePlaintext data).run state = .ok count later ∧ good later ∧
      count ≤ data.length ∧ (codec.hasPendingCiphertext state = false → 0 < count)

/-- `br_ssl_engine_current_state`, one field for each flag. -/
structure EngineFlags where
  closed : Bool := false
  sendRec : Bool := false
  recvRec : Bool := false
  sendApp : Bool := false
  recvApp : Bool := false

structure SslEngine (ε : Type) where
  currentState : ε → EngineFlags
  lastError : ε → ℤ
  /-- The length of `br_ssl_engine_sendapp_buf`, zero when there is none. -/
  sendAppRoom : ε → ℕ
  /-- Copy bytes to that buffer and acknowledge them. -/
  sendAppAck : Bytes → ε → ε
  flush : ε → ε
  recvRecRoom : ε → ℕ
  recvRecAck : Bytes → ε → ε
  /-- The contents of `br_ssl_engine_sendrec_buf`. -/
  sendRecData : ε → Bytes
  sendRecAck : ℕ → ε → ε

namespace SslEngine

/-- `ensure_ok`, with the message of `throw_tls_error`. -/
def ensureOk (engine : SslEngine ε) : Task ε Unit := fun state =>
  if engine.lastError state = 0 then .ok () state
  else .error (.runtime ("BearSSL engine failed: BearSSL error " ++
    toString (engine.lastError state))) state

def writePlaintext (engine : SslEngine ε) (data : Bytes) : Task ε ℕ := do
  engine.ensureOk
  let state ← get
  if (engine.currentState state).sendApp = false then pure 0
  else if engine.sendAppRoom state = 0 then pure 0
  else
    let copied := min data.length (engine.sendAppRoom state)
    modify (engine.sendAppAck (data.take copied))
    modify engine.flush
    pure copied

def feedCiphertext (engine : SslEngine ε) (data : Bytes) : Task ε ℕ := do
  engine.ensureOk
  let state ← get
  if (engine.currentState state).recvRec = false then pure 0
  else if engine.recvRecRoom state = 0 then pure 0
  else
    let copied := min data.length (engine.recvRecRoom state)
    modify (engine.recvRecAck (data.take copied))
    engine.ensureOk
    pure copied

def readCiphertext (engine : SslEngine ε) (capacity : ℕ) : Task ε Bytes := do
  engine.ensureOk
  let state ← get
  if (engine.currentState state).sendRec = false then pure []
  else if engine.sendRecData state = [] then pure []
  else
    let copied := min capacity (engine.sendRecData state).length
    modify (engine.sendRecAck copied)
    engine.ensureOk
    pure ((engine.sendRecData state).take copied)

end SslEngine

/-- `BearSslCodecBase`. -/
def bearSslCodec (engine : SslEngine ε) : MemoryCodec ε where
  handshakeComplete state :=
    (engine.currentState state).sendApp || (engine.currentState state).recvApp
  wantsInput state := (engine.currentState state).recvRec
  hasPendingCiphertext state := (engine.currentState state).sendRec
  plaintextEof state := (engine.currentState state).closed
  writePlaintext := engine.writePlaintext
  feedCiphertext := engine.feedCiphertext
  readCiphertext := engine.readCiphertext

/-- An engine in an open session: without an error, ready for records of the peer, and
with room for plaintext once its records have been sent. -/
structure SslEngine.OpenSession (engine : SslEngine ε) (good : ε → Prop) (pending : ε → ℕ) :
    Prop where
  noError : ∀ {state}, good state → engine.lastError state = 0
  listens : ∀ {state}, good state →
    (engine.currentState state).recvRec = true ∧ (engine.currentState state).closed = false
  hasRoom : ∀ {state}, good state → (engine.currentState state).sendRec = false →
    (engine.currentState state).sendApp = true ∧ engine.sendAppRoom state ≠ 0
  sendApp : ∀ {state}, good state → ∀ data, good (engine.flush (engine.sendAppAck data state))
  recvRec : ∀ {state}, good state → ∀ data, good (engine.recvRecAck data state)
  sendRec : ∀ {state}, good state → (engine.currentState state).sendRec = true →
    engine.sendRecData state ≠ [] ∧ ∀ count, 0 < count →
      good (engine.sendRecAck count state) ∧
        pending (engine.sendRecAck count state) < pending state

namespace SslEngine

variable {engine : SslEngine ε} {good : ε → Prop} {pending : ε → ℕ} {state : ε}

variable (session : engine.OpenSession good pending)
include session

theorem OpenSession.ensureOk_run (fine : good state) :
    engine.ensureOk.run state = .ok () state := by
  simp only [EStateM.run, ensureOk, if_pos (session.noError fine)]

theorem OpenSession.writePlaintext_run (fine : good state) {data : Bytes} (nonempty : data ≠ []) :
    ∃ count later, (engine.writePlaintext data).run state = .ok count later ∧ good later ∧
      count ≤ data.length ∧ ((engine.currentState state).sendRec = false → 0 < count) := by
  simp only [writePlaintext, EStateM.run_bind, session.ensureOk_run fine, EStateM.run_get]
  have room := session.hasRoom fine
  have positive : 0 < data.length := List.length_pos_iff.mpr nonempty
  by_cases closed : (engine.currentState state).sendApp = false
  · simp only [if_pos closed]
    exact ⟨0, state, rfl, fine, Nat.zero_le _, fun drained => by simp [(room drained).1] at closed⟩
  · by_cases full : engine.sendAppRoom state = 0
    · simp only [if_neg closed, if_pos full]
      exact ⟨0, state, rfl, fine, Nat.zero_le _, fun drained => absurd full (room drained).2⟩
    · simp only [if_neg closed, if_neg full]
      exact ⟨_, _, rfl, session.sendApp fine _, Nat.min_le_left _ _, fun _ => by omega⟩

theorem OpenSession.feedCiphertext_run (fine : good state) (data : Bytes) :
    ∃ count later, (engine.feedCiphertext data).run state = .ok count later ∧ good later := by
  simp only [feedCiphertext, EStateM.run_bind, session.ensureOk_run fine, EStateM.run_get,
    (session.listens fine).1, Bool.true_eq_false, if_false]
  by_cases full : engine.recvRecRoom state = 0
  · simp only [if_pos full]
    exact ⟨0, state, rfl, fine⟩
  · have kept := session.recvRec fine (data.take (min data.length (engine.recvRecRoom state)))
    simp only [if_neg full, EStateM.run_bind, EStateM.run_modify, session.ensureOk_run kept]
    exact ⟨_, _, rfl, kept⟩

theorem OpenSession.readCiphertext_run (fine : good state)
    (more : (engine.currentState state).sendRec = true) {capacity : ℕ} (room : 0 < capacity) :
    ∃ data later, (engine.readCiphertext capacity).run state = .ok data later ∧ data ≠ [] ∧
      good later ∧ pending later < pending state := by
  rcases session.sendRec fine more with ⟨nonempty, acknowledges⟩
  have positive : 0 < min capacity (engine.sendRecData state).length :=
    lt_min room (List.length_pos_iff.mpr nonempty)
  rcases acknowledges _ positive with ⟨kept, fewer⟩
  simp only [readCiphertext, EStateM.run_bind, session.ensureOk_run fine, EStateM.run_get, more,
    Bool.true_eq_false, if_false, if_neg nonempty, EStateM.run_modify, session.ensureOk_run kept]
  refine ⟨_, _, rfl, ?_, kept, fewer⟩
  apply List.ne_nil_of_length_pos
  rw [List.length_take]
  omega

theorem OpenSession.accepting : Accepting (bearSslCodec engine) good pending where
  listens := session.listens
  feeds := session.feedCiphertext_run
  drains fine more := session.readCiphertext_run fine more (by norm_num)
  accepts := session.writePlaintext_run

end SslEngine

/-- An engine whose records hold `size` bytes; its state is the record being sent. -/
def recordEngine (size : ℕ) : SslEngine Bytes where
  currentState record :=
    { sendRec := !record.isEmpty, recvRec := true, sendApp := record.isEmpty }
  lastError _ := 0
  sendAppRoom record := if record.isEmpty then size else 0
  sendAppAck data record := record ++ data
  flush := id
  recvRecRoom _ := size
  recvRecAck _ := id
  sendRecData := id
  sendRecAck count record := record.drop count

theorem openSession_recordEngine {size : ℕ} (positive : 0 < size) :
    (recordEngine size).OpenSession (fun _ => True) List.length where
  noError _ := rfl
  listens _ := ⟨rfl, rfl⟩
  hasRoom {record} _ drained := by
    have empty : record.isEmpty = true := by simpa [recordEngine] using drained
    refine ⟨empty, ?_⟩
    simp only [recordEngine, if_pos empty]
    omega
  sendApp _ _ := trivial
  recvRec _ _ := trivial
  sendRec {record} _ more := by
    have nonempty : record ≠ [] := by simpa [recordEngine] using more
    refine ⟨nonempty, fun count counted => ⟨trivial, ?_⟩⟩
    have length := List.length_pos_iff.mpr nonempty
    simp only [recordEngine, List.length_drop]
    omega

end Corouv.Transport
