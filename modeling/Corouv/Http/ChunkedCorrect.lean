import Corouv.Http.ChunkRoom

/-!
# Chunked bodies do not depend on how the network cuts the stream

Where the cap on the buffer leaves room for every chunk, the chunk loop reads what
`Grammar.chunkedBody` says.  If the limits are small, it refuses everything else.
-/

namespace Corouv.Http

open Library Io
open EStateM (run_bind run_get)

variable {limits : Limits} {wanted ended : Bool} {sink : BodySink} {conn state : Conn}
  {unread : Bytes}

namespace Grammar

/-- What is read under the cap is read without it, and there is room. -/
theorem uncappedFrom_of_chunkedWithin : ∀ (fuel : ℕ) {total : ℕ} {input : Bytes}
    {read : Bytes × Headers × Bytes}, chunkedWithin limits wanted fuel total input = some read →
      uncappedFrom limits wanted total input = some read ∧ Moderate (chunks input) ∧
        Room limits 0 total (chunks input) := by
  intro fuel
  induction fuel with
  | zero =>
      intro _ _ _ read
      cases read
  | succ _ ih =>
      intro total _ _ read
      rcases Option.bind_eq_some_iff.mp read with ⟨⟨size, rest⟩, header, later⟩
      rw [uncappedFrom_eq, header, chunks_of_sizeLine (sizeLine_of_chunkHeader header)]
      dsimp only at later
      split at later
      next last => simp [last, later, Moderate, Room]
      next nonzero =>
        split at later
        next fits =>
          rcases Option.map_eq_some_iff.mp later with ⟨_, more, rfl⟩
          rcases fits with ⟨within, capped, terminated⟩
          have limit := limits.maxBodyBytes_lt
          have cap := chunkBufferLimit_lt limits total
          have sum : sizeAdd total size = total + size := sizeAdd_of_lt (by omega)
          have passes : ChunkPasses limits total size rest := ⟨sum.le.trans within, terminated⟩
          rcases ih more with ⟨further, moderate, room⟩
          rw [Option.bind_some, if_neg nonzero, if_pos passes, sum, further, if_neg nonzero]
          refine ⟨rfl, List.forall_mem_cons.mpr ⟨capped.trans_lt cap, moderate⟩, .inr capped, ?_⟩
          rw [sum]
          exact room.mono (Nat.zero_le _)
        · cases later

end Grammar

/-- What makes the refusal of a chunked body certain. -/
structure Conn.ChunkFinal (conn : Conn) (limits : Limits) (unread : Bytes) (ended : Bool) :
    Prop where
  final : conn.Final limits ended
  small : limits.Small
  sizes : ∀ size ∈ Grammar.chunkSizes limits unread, size < 2 ^ 63

abbrev ChunkedBodySpec (conn : Conn) (unread : Bytes) (ended : Bool) (limits : Limits)
    (sink : BodySink) (wanted : Bool) : EStateM.Result Exn Conn Headers → Prop :=
  ReadSpec (Grammar.chunkedBody limits wanted unread) (conn.ChunkFinal limits unread ended)
    fun read result => Returns result read.2.1 fun conn' =>
      conn.After conn' read.2.2 ended (sink.absorb conn.body read.1) ∧
        conn'.buffer.size ≤ max conn.buffer.size limits.maxHeaderBytes

/-- The chunk loop at `state`, in front of an input that is to be refused. -/
structure RefusedProgress (limits : Limits) (wanted : Bool) (rank total : ℕ) (state : Conn) :
    Prop where
  progress : ∃ unread, rank = unread.length ∧ state.Holds unread true ∧
    Grammar.chunkedFrom limits wanted total unread = none ∧
    ∀ size ∈ Grammar.chunkSizesFrom limits total unread, size < 2 ^ 63
  total_le : total ≤ limits.maxBodyBytes
  size_le : state.buffer.size ≤ limits.maxHeaderBytes

/-- A chunked body that the grammar refuses is refused by the loop, one chunk after the other. -/
theorem RefusedProgress.meets {rank total : ℕ} (sink : BodySink) (deadline : Deadline)
    (small : limits.Small) (progress : RefusedProgress limits wanted rank total state) :
    Turn.Meets (fun total' state' => ∃ lower < rank,
        RefusedProgress limits wanted lower total' state') Refuses
      ((readChunkTurn limits sink deadline wanted total).run state) := by
  rcases progress with ⟨⟨unread, rfl, holds, refused, sizes⟩, total_le, size_le⟩
  have moderate : ∀ size rest, Grammar.chunkHeader limits unread = some (size, rest) →
      size < 2 ^ 63 := by
    intro size _ read
    apply sizes
    rw [Grammar.chunkSizesFrom_of_header total read]
    split
    · exact List.mem_cons_self
    · exact List.mem_singleton_self _
  rw [Grammar.chunkedFrom_eq] at refused
  have outcome := readChunkTurn_outcome sink deadline wanted total holds size_le
    fun size rest read => by
      have := moderate size rest read
      omega
  generalize (readChunkTurn limits sink deadline wanted total).run state = result at outcome
  cases outcome with
  | failed http => exact ⟨_, _, rfl, http small total_le moderate⟩
  | done read closed _ _ => simp [read, closed] at refused
  | @again size rest _ read nonzero passes after narrow _ =>
      have bound := small.body
      have below := moderate size rest read
      have sum : sizeAdd total size = total + size := sizeAdd_of_lt (by omega)
      rcases passes with ⟨within, terminated⟩
      rw [sum] at within
      have line : 2 ≤ limits.maxHeaderBytes := by
        rcases Grammar.chunkHeader_eq_some read with ⟨_, found, -⟩
        rcases Grammar.line_eq_some found with ⟨_, -, _, -⟩
        omega
      have fits : Grammar.ChunkFits limits total size rest :=
        ⟨within, small.le_chunkBufferLimit within line, terminated⟩
      rw [Grammar.chunkSizesFrom_of_header total read, if_pos ⟨nonzero, fits⟩] at sizes
      rw [read, Option.bind_some, if_neg nonzero, if_pos fits, Option.map_eq_none_iff] at refused
      rw [sum]
      exact ⟨_, Grammar.length_drop_lt_of_chunkHeader read (size + 2),
        ⟨_, rfl, after.holds, refused, (List.forall_mem_cons.mp sizes).2⟩, within, narrow⟩

theorem readChunkedBodyStream_of_holds (limits : Limits) (additive : sink.Additive)
    (deadline : Deadline) (wanted : Bool) (holds : conn.Holds unread ended) :
    ChunkedBodySpec conn unread ended limits sink wanted
      ((readChunkedBodyStream limits sink deadline wanted).run conn) := by
  constructor
  · intro _ read
    rcases Grammar.uncappedFrom_of_chunkedWithin _ read with ⟨uncapped, moderate, room⟩
    exact readChunkedBodyStream_of_room deadline additive holds moderate uncapped
      (room.mono (Nat.zero_le _))
  · rintro refused ⟨⟨rfl, narrow⟩, small, sizes⟩
    simp only [readChunkedBodyStream, run_bind, run_get]
    apply loop_ranked (RefusedProgress limits wanted)
    · intro _ _ _ progress
      exact progress.meets sink deadline small
    · exact ⟨⟨unread, rfl, holds, refused, sizes⟩, Nat.zero_le _, narrow⟩
    · have bound := holds.length_le_backlog
      omega

end Corouv.Http
