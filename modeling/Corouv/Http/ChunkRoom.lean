import Corouv.Http.BodyLimit
import Corouv.Http.ReaderLogic

/-!
# Room for chunks

Before it reads a chunk, `read_chunked_body_stream` puts a cap on its buffer.  The two sums in
the cap wrap around, and a cap that has come out too small stops every chunk of which some
bytes are yet to be read; a chunk that is in the buffer already passes.  Here is what the
chunk loop reads if the cap is never in the way, and when it is not: `Room` asks for a cap that
is large enough for every chunk that the buffer does not hold.

If the network delivers single bytes, the buffer never holds more than the reader has asked
for, and the loop returns only if there was room.
-/

namespace Corouv.Http

open Library Io
open EStateM (run_bind run_get run_pure)

namespace Grammar

/-- How long the line that announces a chunk is, with its terminator, and how long the chunk
is. -/
structure Chunk where
  line : ℕ
  size : ℕ
  deriving DecidableEq, Repr

def chunksWithin : ℕ → Bytes → List Chunk
  | 0, _ => []
  | fuel + 1, input =>
      match sizeLine input with
      | none => []
      | some (size, rest) =>
          if size = 0 then []
          else ⟨input.length - rest.length, size⟩ :: chunksWithin fuel (rest.drop (size + 2))

/-- The chunks that the size lines of a chunked body announce, without the empty one that ends
it. -/
def chunks (input : Bytes) : List Chunk :=
  chunksWithin (input.length + 1) input

/-- The running total, which wraps around, stays within the limit, and the terminator is
there. -/
def ChunkPasses (limits : Limits) (total size : ℕ) (input : Bytes) : Prop :=
  sizeAdd total size ≤ limits.maxBodyBytes ∧ (input.drop size).take 2 = crlf

instance (limits : Limits) (total size : ℕ) (input : Bytes) :
    Decidable (ChunkPasses limits total size input) :=
  inferInstanceAs (Decidable (_ ∧ _))

/-- The chunk loop without the cap on its buffer. -/
def uncappedWithin (limits : Limits) (wanted : Bool) :
    ℕ → ℕ → Bytes → Option (Bytes × Headers × Bytes)
  | 0, _, _ => none
  | fuel + 1, total, input =>
      (chunkHeader limits input).bind fun header =>
        if header.1 = 0 then
          (trailers limits wanted header.2).map fun closing => ([], closing.1, closing.2)
        else if ChunkPasses limits total header.1 header.2 then
          (uncappedWithin limits wanted fuel (sizeAdd total header.1)
            (header.2.drop (header.1 + 2))).map fun later =>
              (header.2.take header.1 ++ later.1, later.2)
        else none

def uncappedFrom (limits : Limits) (wanted : Bool) (total : ℕ) (input : Bytes) :
    Option (Bytes × Headers × Bytes) :=
  uncappedWithin limits wanted (input.length + 1) total input

/-- With `held` bytes in the buffer, every chunk is among them or below the cap. -/
def Room (limits : Limits) : ℕ → ℕ → List Chunk → Prop
  | _, _, [] => True
  | held, total, chunk :: later =>
      (chunk.size + 2 ≤ held - chunk.line ∨ chunk.size + 2 ≤ chunkBufferLimit limits total) ∧
        Room limits (held - chunk.line - (chunk.size + 2)) (sizeAdd total chunk.size) later

variable {limits limits' : Limits} {input rest : Bytes} {size : ℕ}

theorem Room.mono {chunks : List Chunk} :
    ∀ {held held' total : ℕ}, held ≤ held' → Room limits held total chunks →
      Room limits held' total chunks := by
  induction chunks with
  | nil =>
      intro _ _ _ _ _
      trivial
  | cons _ _ ih =>
      intro _ _ _ _ room
      refine ⟨?_, ih (by omega) room.2⟩
      rcases room.1 with _ | capped
      · left
        omega
      · exact .inr capped

theorem line_mono {maxLine maxLine' : ℕ} {read : Bytes × Bytes} (longer : maxLine ≤ maxLine')
    (found : line maxLine input = some read) : line maxLine' input = some read := by
  rcases Option.map_eq_some_iff.mp found with ⟨position, here, rfl⟩
  rcases (find_take_eq_some_iff (by simp [crlf])).mp here with ⟨whole, _⟩
  apply Option.map_eq_some_iff.mpr
  exact ⟨position, (find_take_eq_some_iff (by simp [crlf])).mpr ⟨whole, by omega⟩, rfl⟩

theorem sizeLine_of_chunkHeader (read : chunkHeader limits input = some (size, rest)) :
    sizeLine input = some (size, rest) := by
  rcases chunkHeader_eq_some read with ⟨_, found, announced⟩
  rcases line_eq_some found with ⟨position, whole, -, _, rfl, rfl⟩
  have unlimited : line input.length input =
      some (input.take position, input.drop (position + 2)) := by
    rw [line, List.take_length, whole]
    rfl
  rw [sizeLine, unlimited, Option.bind_some, announced]
  rfl

theorem chunkHeader_mono {read : ℕ × Bytes}
    (longer : limits.maxHeaderBytes ≤ limits'.maxHeaderBytes)
    (found : chunkHeader limits input = some read) : chunkHeader limits' input = some read := by
  rcases Option.bind_eq_some_iff.mp found with ⟨parts, here, announced⟩
  exact Option.bind_eq_some_iff.mpr ⟨parts, line_mono longer here, announced⟩

theorem chunks_of_sizeLine (read : sizeLine input = some (size, rest)) :
    chunks input = if size = 0 then []
      else ⟨input.length - rest.length, size⟩ :: chunks (rest.drop (size + 2)) := by
  have shorter := length_rest_of_sizeLine read
  have same : ∀ fuel fuel' (input : Bytes), input.length < fuel → input.length < fuel' →
      chunksWithin fuel input = chunksWithin fuel' input := by
    apply fuel_congr chunksWithin List.length
    intro _ _ input ih
    simp only [chunksWithin]
    cases found : sizeLine input with
    | none => rfl
    | some pair =>
        rcases pair with ⟨size, rest⟩
        have behind := length_rest_of_sizeLine found
        have smaller : (rest.drop (size + 2)).length < input.length := by
          rw [List.length_drop]
          omega
        simp only [ih _ smaller]
  have behind : (rest.drop (size + 2)).length < input.length := by
    rw [List.length_drop]
    omega
  rw [chunks, chunksWithin, read]
  dsimp only
  rw [same input.length _ (rest.drop (size + 2)) behind (Nat.lt_succ_self _)]
  rfl

theorem uncappedFrom_eq (limits : Limits) (wanted : Bool) (total : ℕ) (input : Bytes) :
    uncappedFrom limits wanted total input =
      (chunkHeader limits input).bind fun header =>
        if header.1 = 0 then
          (trailers limits wanted header.2).map fun closing => ([], closing.1, closing.2)
        else if ChunkPasses limits total header.1 header.2 then
          (uncappedFrom limits wanted (sizeAdd total header.1)
            (header.2.drop (header.1 + 2))).map fun later =>
              (header.2.take header.1 ++ later.1, later.2)
        else none := by
  have same : ∀ fuel fuel' (entry : ℕ × Bytes), entry.2.length < fuel → entry.2.length < fuel' →
      uncappedWithin limits wanted fuel entry.1 entry.2 =
        uncappedWithin limits wanted fuel' entry.1 entry.2 := by
    apply fuel_congr (fun fuel (entry : ℕ × Bytes) =>
      uncappedWithin limits wanted fuel entry.1 entry.2) (fun entry => entry.2.length)
    intro _ _ entry ih
    simp only [uncappedWithin]
    cases read : chunkHeader limits entry.2 with
    | none => rfl
    | some pair =>
        rcases pair with ⟨size, rest⟩
        have later := ih (sizeAdd entry.1 size, rest.drop (size + 2))
          (length_drop_lt_of_chunkHeader read _)
        simp [later]
  rw [uncappedFrom, uncappedWithin]
  cases read : chunkHeader limits input with
  | none => rfl
  | some pair =>
      rcases pair with ⟨size, rest⟩
      have later := same input.length ((rest.drop (size + 2)).length + 1)
        (sizeAdd total size, rest.drop (size + 2)) (length_drop_lt_of_chunkHeader read _)
        (Nat.lt_succ_self _)
      simp [later, uncappedFrom]

theorem trailersWithin_mono (wanted : Bool)
    (longer : limits.maxHeaderBytes ≤ limits'.maxHeaderBytes)
    (count : limits'.maxHeaderCount = limits.maxHeaderCount) :
    ∀ (fuel : ℕ) {fields : Headers} {input : Bytes} {read : Headers × Bytes},
      trailersWithin limits wanted fuel fields input = some read →
        trailersWithin limits' wanted fuel fields input = some read := by
  intro fuel
  induction fuel with
  | zero =>
      intro _ _ _ found
      cases found
  | succ _ ih =>
      intro _ _ _ found
      rcases Option.bind_eq_some_iff.mp found with ⟨parts, here, later⟩
      apply Option.bind_eq_some_iff.mpr
      refine ⟨parts, line_mono longer here, ?_⟩
      rw [← later]
      split
      · rfl
      next nonempty =>
        rw [if_neg nonempty] at later
        split
        next isWanted =>
          rw [if_pos isWanted] at later
          split
          · rfl
          next longer' appended =>
            rw [appended] at later
            dsimp only at later
            rw [count]
            split
            next few =>
              rw [if_pos few] at later
              rw [later]
              exact ih later
            · rfl
        next unwanted =>
          rw [if_neg unwanted] at later
          rw [later]
          exact ih later

theorem uncappedWithin_mono (wanted : Bool)
    (longer : limits.maxHeaderBytes ≤ limits'.maxHeaderBytes)
    (larger : limits.maxBodyBytes ≤ limits'.maxBodyBytes)
    (count : limits'.maxHeaderCount = limits.maxHeaderCount) :
    ∀ (fuel : ℕ) {total : ℕ} {input : Bytes} {read : Bytes × Headers × Bytes},
      uncappedWithin limits wanted fuel total input = some read →
        uncappedWithin limits' wanted fuel total input = some read := by
  intro fuel
  induction fuel with
  | zero =>
      intro _ _ _ found
      cases found
  | succ _ ih =>
      intro _ _ _ found
      rcases Option.bind_eq_some_iff.mp found with ⟨header, here, later⟩
      apply Option.bind_eq_some_iff.mpr
      refine ⟨header, chunkHeader_mono longer here, ?_⟩
      split
      next last =>
        rw [if_pos last] at later
        rcases Option.map_eq_some_iff.mp later with ⟨closing, closed, same⟩
        exact Option.map_eq_some_iff.mpr
          ⟨closing, trailersWithin_mono wanted longer count _ closed, same⟩
      next more =>
        rw [if_neg more] at later
        split at later
        next passes =>
          rw [if_pos ⟨passes.1.trans larger, passes.2⟩]
          rcases Option.map_eq_some_iff.mp later with ⟨behind, read', same⟩
          exact Option.map_eq_some_iff.mpr ⟨behind, ih read', same⟩
        · cases later

end Grammar

/-- A stream in single bytes. -/
def trickle (input : Bytes) (ended : Bool) : List Arrival :=
  input.map (fun byte => .data [byte]) ++ if ended then [.eof] else []

theorem contents_trickle (input : Bytes) (ended : Bool) :
    contents (trickle input ended) = some (input, ended) := by
  induction input with
  | nil =>
      cases ended with
      | true | false => rfl
  | cons byte later ih =>
      have step : trickle (byte :: later) ended = .data [byte] :: trickle later ended := rfl
      rw [step, contents, ih]
      rfl

theorem Conn.trickles_of_trickle {conn : Conn} {input : Bytes} {ended : Bool}
    (arrivals : conn.stream.arrivals = trickle input ended) : conn.Trickles := by
  intro _ member
  rw [arrivals] at member
  rcases List.mem_append.mp member with single | final
  · rcases List.mem_map.mp single with ⟨_, -, same⟩
    cases same
    exact le_rfl
  · cases ended with
    | true | false => simp at final

theorem Conn.exists_trickles (input : Bytes) :
    ∃ conn : Conn, conn.Holds input true ∧ conn.Trickles ∧ conn.buffer.size = 0 :=
  ⟨{ stream := { arrivals := trickle input true } }, ⟨rfl, input, contents_trickle input true, rfl⟩,
    Conn.trickles_of_trickle rfl, rfl⟩

section Chunk

variable {limits : Limits} {sink : BodySink} {deadline : Deadline} {wanted : Bool}
  {total size : ℕ} {state : Conn} {unread rest : Bytes} {ended : Bool}

variable {state' : Conn}

variable {count cap : ℕ}

theorem ensureBuffer_of_room (tooLarge : Exn) (eofMessage : String)
    (holds : state.Holds unread ended) (long : count ≤ unread.length)
    (room : count ≤ state.buffer.size ∨ count ≤ cap) :
    Returns ((ensureBuffer count cap tooLarge eofMessage deadline).run state) () fun state' =>
      state.After state' unread ended state.body ∧
        state'.buffer.size = max state.buffer.size count := by
  rcases room with inside | capped
  · refine ⟨state, ensureBuffer_run_enough cap tooLarge eofMessage deadline inside, holds.after, ?_⟩
    omega
  · exact (ensureBuffer_of_holds tooLarge eofMessage deadline holds capped).accepts long

theorem room_of_ensureBuffer {tooLarge : Exn} {eofMessage : String}
    (holds : state.Holds unread true)
    (ran : (ensureBuffer count cap tooLarge eofMessage deadline).run state = .ok () state') :
    count ≤ unread.length ∧ (count ≤ state.buffer.size ∨ count ≤ cap) := by
  have filled := (ensureBuffer_any state count cap tooLarge eofMessage deadline).filled state' ran
  have room : count ≤ state.buffer.size ∨ count ≤ cap := by
    omega
  refine ⟨?_, room⟩
  rcases room with _ | capped
  · have size_le := holds.size_le
    omega
  · by_contra short
    rcases (ensureBuffer_of_holds tooLarge eofMessage deadline holds capped).rejects
      (by omega) rfl with ⟨_, _, failed, -⟩
    rw [ran] at failed
    cases failed

theorem Conn.After.deliverChunk {filled : Conn} (sink : BodySink)
    (after : state.After filled rest ended state.body) (held : size + 2 ≤ filled.buffer.size) :
    (filled.deliver sink (some size) size).buffer.view.take 2 = (rest.drop size).take 2 ∧
      state.After ((filled.deliver sink (some size) size).consume 2) (rest.drop (size + 2)) ended
        (sink.absorb state.body (rest.take size)) ∧
      ((filled.deliver sink (some size) size).consume 2).buffer.size =
        filled.buffer.size - (size + 2) := by
  have delivered := after.holds.deliver sink (some size) (by omega : size ≤ filled.buffer.size)
  have left := filled.size_deliver sink (some size) (by omega : size ≤ filled.buffer.size)
  have two : 2 ≤ (filled.deliver sink (some size) size).buffer.size := by omega
  have consumed := delivered.holds.consume two
  have least : ((filled.deliver sink (some size) size).consume 2).buffer.size =
      (filled.deliver sink (some size) size).buffer.size - 2 := BufferCursor.size_consume two
  refine ⟨?_, ?_, by omega⟩
  · rw [delivered.holds.view_eq_take, List.take_take, Nat.min_eq_left two]
  · rw [List.drop_drop, delivered.body_eq, after.body_eq] at consumed
    exact after.trans (delivered.trans consumed)

theorem readChunkTurn_of_room {held : ℕ} (sink : BodySink) (deadline : Deadline) (wanted : Bool)
    (holds : state.Holds unread ended)
    (read : Grammar.chunkHeader limits unread = some (size, rest)) (nonzero : size ≠ 0)
    (moderate : size + 2 < 2 ^ 64) (passes : Grammar.ChunkPasses limits total size rest)
    (enough : held ≤ state.buffer.size)
    (room : size + 2 ≤ held - (unread.length - rest.length) ∨
      size + 2 ≤ chunkBufferLimit limits total) :
    Returns ((readChunkTurn limits sink deadline wanted total).run state)
      (.again (sizeAdd total size)) fun state' =>
        state.After state' (rest.drop (size + 2)) ended (sink.absorb state.body (rest.take size)) ∧
          held - (unread.length - rest.length) - (size + 2) ≤ state'.buffer.size ∧
          state'.buffer.size ≤ max state.buffer.size limits.maxHeaderBytes := by
  rcases passes with ⟨within, terminated⟩
  rcases (readChunkSize_of_holds limits deadline holds).accepts read with
    ⟨first, ran, after, _, least, -⟩
  dsimp only at least
  have needed : sizeAdd size 2 = size + 2 := sizeAdd_of_lt (by omega)
  rcases ensureBuffer_of_room (.http 413 "HTTP body too large")
      "unexpected eof while reading chunk data" after.holds
      (Grammar.length_of_take_two_eq_crlf terminated)
      (by omega : size + 2 ≤ first.buffer.size ∨ size + 2 ≤ chunkBufferLimit limits total) with
    ⟨second, filled, after', _⟩
  have admitted : ChunkAdmitted limits deadline total state size second := by
    refine ⟨first, ran, nonzero, within, ?_⟩
    rw [needed]
    exact filled
  have whole := after.trans (after.body_eq ▸ after')
  rcases whole.deliverChunk sink (by omega : size + 2 ≤ second.buffer.size) with ⟨shown, taken, _⟩
  refine ⟨_, ?_, taken, by omega, by omega⟩
  rw [readChunkTurn_run_of_admitted sink wanted admitted, shown, if_neg (not_not_intro terminated)]

/-- What one turn of the chunk loop comes to on a stream that ends. -/
inductive ChunkTurn (limits : Limits) (sink : BodySink) (wanted : Bool) (total : ℕ)
    (unread : Bytes) (state : Conn) : EStateM.Result Exn Conn (Turn ℕ Headers) → Prop
  | again {size : ℕ} {rest : Bytes} {state' : Conn}
      (read : Grammar.chunkHeader limits unread = some (size, rest)) (nonzero : size ≠ 0)
      (passes : Grammar.ChunkPasses limits total size rest)
      (after : state.After state' (rest.drop (size + 2)) true
        (sink.absorb state.body (rest.take size)))
      (narrow : state'.buffer.size ≤ limits.maxHeaderBytes)
      (room : state.Trickles →
        (size + 2 ≤ state.buffer.size - (unread.length - rest.length) ∨
          size + 2 ≤ chunkBufferLimit limits total) ∧
        state'.buffer.size ≤ state.buffer.size - (unread.length - rest.length) - (size + 2)) :
      ChunkTurn limits sink wanted total unread state (.ok (.again (sizeAdd total size)) state')
  | done {rest rest' : Bytes} {fields : Headers} {state' : Conn}
      (read : Grammar.chunkHeader limits unread = some (0, rest))
      (closed : Grammar.trailers limits wanted rest = some (fields, rest'))
      (after : state.After state' rest' true state.body)
      (narrow : state'.buffer.size ≤ limits.maxHeaderBytes) :
      ChunkTurn limits sink wanted total unread state (.ok (.done fields) state')
  | failed {error : Exn} {state' : Conn}
      (http : limits.Small → total ≤ limits.maxBodyBytes →
        (∀ size rest, Grammar.chunkHeader limits unread = some (size, rest) → size < 2 ^ 63) →
          error.isHttpError = true) :
      ChunkTurn limits sink wanted total unread state (.error error state')

/-- If the limits are small, the cap is never in the way, and only the input is to blame. -/
theorem isHttpError_of_ensureBuffer {error : Exn} {tooLarge : Exn} {eofMessage : String}
    (holds : state.Holds unread true) (capped : count ≤ cap)
    (failed : (ensureBuffer count cap tooLarge eofMessage deadline).run state =
      .error error state') : error.isHttpError = true := by
  have fill := ensureBuffer_of_holds tooLarge eofMessage deadline holds capped
  by_cases long : count ≤ unread.length
  · rcases fill.accepts long with ⟨_, ran, -⟩
    rw [failed] at ran
    cases ran
  · rcases fill.rejects (by omega) rfl with ⟨_, _, ran, http⟩
    rw [failed] at ran
    cases ran
    exact http

/-- What one chunk does to a connection that has no more buffered than the head limit. -/
theorem readChunkTurn_outcome (sink : BodySink) (deadline : Deadline) (wanted : Bool) (total : ℕ)
    (holds : state.Holds unread true) (narrow : state.buffer.size ≤ limits.maxHeaderBytes)
    (moderate : ∀ size rest, Grammar.chunkHeader limits unread = some (size, rest) →
      size + 2 < 2 ^ 64) :
    ChunkTurn limits sink wanted total unread state
      ((readChunkTurn limits sink deadline wanted total).run state) := by
  have sized := readChunkSize_of_holds limits deadline holds
  cases read : Grammar.chunkHeader limits unread with
  | none =>
      rcases sized.rejects read ⟨rfl, narrow⟩ with ⟨_, _, ran, http⟩
      simp only [readChunkTurn, run_bind, ran]
      exact .failed fun _ _ _ => http
  | some header =>
      rcases header with ⟨size, rest⟩
      rcases sized.accepts read with ⟨first, ran, after, _, -, leaves⟩
      dsimp only at leaves
      by_cases last : size = 0
      · subst last
        simp only [readChunkTurn, run_bind, ran, if_true]
        have closing := readTrailers_of_holds limits wanted deadline after.holds
        cases closed : Grammar.trailers limits wanted rest with
        | none =>
            rcases closing.rejects closed ⟨rfl, by omega⟩ with ⟨_, _, failed, http⟩
            rw [failed]
            exact .failed fun _ _ _ => http
        | some pair =>
            rcases closing.accepts closed with ⟨_, done, after', _⟩
            rw [done]
            exact .done read closed (after.trans (after.body_eq ▸ after')) (by omega)
      · have needed : sizeAdd size 2 = size + 2 := sizeAdd_of_lt (moderate size rest read)
        by_cases within : sizeAdd total size ≤ limits.maxBodyBytes
        · cases filling : (ensureBuffer (size + 2) (chunkBufferLimit limits total)
              (.http 413 "HTTP body too large") "unexpected eof while reading chunk data"
              deadline).run first with
          | error _ _ =>
              simp only [readChunkTurn, run_bind, ran, if_neg last,
                if_neg (Nat.not_lt_of_le within), needed, filling]
              refine .failed fun limited progress sizes => ?_
              have line : 2 ≤ limits.maxHeaderBytes := by
                rcases Grammar.chunkHeader_eq_some read with ⟨_, found, -⟩
                rcases Grammar.line_eq_some found with ⟨_, -, _, -⟩
                omega
              have bound := limited.body
              have small := sizes size rest read
              rw [sizeAdd_of_lt (by omega)] at within
              exact isHttpError_of_ensureBuffer after.holds
                (limited.le_chunkBufferLimit within line) filling
          | ok _ filled =>
              have admitted : ChunkAdmitted limits deadline total state size filled :=
                ⟨first, ran, last, within, needed ▸ filling⟩
              rcases room_of_ensureBuffer after.holds filling with ⟨long, room⟩
              rcases ensureBuffer_of_room _ _ after.holds long room with ⟨_, same, after', _⟩
              rw [filling] at same
              cases same
              have whole := after.trans (after.body_eq ▸ after')
              rcases whole.deliverChunk sink (by omega : size + 2 ≤ filled.buffer.size) with
                ⟨shown, taken, _⟩
              rw [readChunkTurn_run_of_admitted sink wanted admitted, shown]
              split
              · exact .failed fun _ _ _ => rfl
              next terminated =>
                refine .again read last ⟨within, not_not.mp terminated⟩ taken (by omega) ?_
                intro trickles
                have most := leaves trickles
                exact ⟨by omega, by omega⟩
        · simp only [readChunkTurn, run_bind, ran, if_neg last, if_pos (Nat.lt_of_not_le within)]
          exact .failed fun _ _ _ => rfl

end Chunk

section Chunks

variable {limits : Limits} {sink : BodySink} {deadline : Deadline} {wanted : Bool}

/-- The sizes of the chunks keep the length of a chunk and its terminator from wrapping
around. -/
def Moderate (chunks : List Grammar.Chunk) : Prop :=
  ∀ chunk ∈ chunks, chunk.size + 2 < 2 ^ 64

variable {unread rest : Bytes} {fields : Headers}

section

variable {size : ℕ} (moderate : Moderate (Grammar.chunks unread))
  (read : Grammar.chunkHeader limits unread = some (size, rest))
include moderate read

theorem Moderate.size_lt : size + 2 < 2 ^ 64 := by
  by_cases zero : size = 0
  · omega
  · have first := Grammar.chunks_of_sizeLine (Grammar.sizeLine_of_chunkHeader read)
    rw [if_neg zero] at first
    apply moderate ⟨unread.length - rest.length, size⟩
    rw [first]
    exact List.mem_cons_self

theorem Moderate.later (nonzero : size ≠ 0) : Moderate (Grammar.chunks (rest.drop (size + 2))) := by
  intro chunk member
  apply moderate chunk
  rw [Grammar.chunks_of_sizeLine (Grammar.sizeLine_of_chunkHeader read), if_neg nonzero]
  exact List.mem_cons_of_mem _ member

end

variable {conn' conn : Conn}

/-- A chunk loop that returns has read what the loop without a cap reads, and there was room
if the network delivers single bytes. -/
theorem chunkLoop_eq_ok (additive : sink.Additive) :
    ∀ (fuel total : ℕ) (state : Conn) (unread : Bytes), state.Holds unread true →
      state.buffer.size ≤ limits.maxHeaderBytes → Moderate (Grammar.chunks unread) →
      (loop .exhausted (readChunkTurn limits sink deadline wanted) fuel total).run state =
        .ok fields conn' →
      ∃ content rest, Grammar.uncappedFrom limits wanted total unread =
          some (content, fields, rest) ∧
        state.After conn' rest true (sink.absorb state.body content) ∧
        conn'.buffer.size ≤ limits.maxHeaderBytes ∧
        (state.Trickles → Grammar.Room limits state.buffer.size total (Grammar.chunks unread)) := by
  intro fuel
  induction fuel with
  | zero =>
      intro total state _ _ _ _ ran
      cases ran
  | succ _ ih =>
      intro total state _ holds narrow moderate ran
      rcases run_bind_eq_ok ran with ⟨_, _, turned, later⟩
      have outcome := readChunkTurn_outcome sink deadline wanted total holds narrow
        fun _ _ => moderate.size_lt
      rw [turned] at outcome
      cases outcome with
      | @done _ rest' _ _ read closed after narrow' =>
          cases later
          refine ⟨[], rest', ?_, ?_, narrow', ?_⟩
          · rw [Grammar.uncappedFrom_eq, read, Option.bind_some, if_pos rfl, closed]
            rfl
          · rw [additive.nil]
            exact after
          · intro _
            rw [Grammar.chunks_of_sizeLine (Grammar.sizeLine_of_chunkHeader read), if_pos rfl]
            trivial
      | @again size rest _ read nonzero passes after narrow' room =>
          rcases ih _ _ _ after.holds narrow' (moderate.later read nonzero) later with
            ⟨content, rest', uncapped, after', narrow'', roomLater⟩
          refine ⟨rest.take size ++ content, rest', ?_, ?_, narrow'', ?_⟩
          · rw [Grammar.uncappedFrom_eq, read, Option.bind_some, if_neg nonzero, if_pos passes,
              uncapped]
            rfl
          · rw [after.body_eq, additive.append] at after'
            exact after.trans after'
          · intro trickles
            rcases room trickles with ⟨here, least⟩
            rw [Grammar.chunks_of_sizeLine (Grammar.sizeLine_of_chunkHeader read), if_neg nonzero]
            exact ⟨here, (roomLater (after.trickles trickles)).mono least⟩

theorem readChunkedBodyStream_eq_ok (additive : sink.Additive) (holds : conn.Holds unread true)
    (narrow : conn.buffer.size ≤ limits.maxHeaderBytes)
    (moderate : Moderate (Grammar.chunks unread))
    (ran : (readChunkedBodyStream limits sink deadline wanted).run conn = .ok fields conn') :
    ∃ content rest, Grammar.uncappedFrom limits wanted 0 unread = some (content, fields, rest) ∧
      conn.After conn' rest true (sink.absorb conn.body content) ∧
      conn'.buffer.size ≤ limits.maxHeaderBytes ∧
      (conn.Trickles → Grammar.Room limits conn.buffer.size 0 (Grammar.chunks unread)) := by
  exact chunkLoop_eq_ok additive _ _ _ _ holds narrow moderate ran

/-- The chunk loop at `state`, with `content` and `fields` still to come. -/
def RoomyProgress (conn : Conn) (limits : Limits) (sink : BodySink) (wanted ended : Bool)
    (whole : Bytes) (fields : Headers) (rest : Bytes) (rank total : ℕ) (state : Conn) : Prop :=
  ∃ unread done later, rank = unread.length ∧ whole = done ++ later ∧
    conn.After state unread ended (sink.absorb conn.body done) ∧
    Grammar.uncappedFrom limits wanted total unread = some (later, fields, rest) ∧
    Moderate (Grammar.chunks unread) ∧
    Grammar.Room limits state.buffer.size total (Grammar.chunks unread) ∧
    state.buffer.size ≤ max conn.buffer.size limits.maxHeaderBytes

/-- With room for every chunk the body is read without the cap of `ensure_buffer`. -/
theorem readChunkedBodyStream_of_room {ended : Bool} {content : Bytes} (deadline : Deadline)
    (additive : sink.Additive) (holds : conn.Holds unread ended)
    (moderate : Moderate (Grammar.chunks unread))
    (read : Grammar.uncappedFrom limits wanted 0 unread = some (content, fields, rest))
    (room : Grammar.Room limits conn.buffer.size 0 (Grammar.chunks unread)) :
    Returns ((readChunkedBodyStream limits sink deadline wanted).run conn) fields fun conn' =>
      conn.After conn' rest ended (sink.absorb conn.body content) ∧
        conn'.buffer.size ≤ max conn.buffer.size limits.maxHeaderBytes := by
  simp only [readChunkedBodyStream, run_bind, run_get]
  apply loop_ranked (RoomyProgress conn limits sink wanted ended content fields rest)
    (fun result => Returns result fields fun conn' =>
      conn.After conn' rest ended (sink.absorb conn.body content) ∧
        conn'.buffer.size ≤ max conn.buffer.size limits.maxHeaderBytes)
  · rintro _ _ _ ⟨unread, done, _, rfl, rfl, after, read, moderate, room, _⟩
    rw [Grammar.uncappedFrom_eq] at read
    rcases Option.bind_eq_some_iff.mp read with ⟨⟨size, behind⟩, header, continues⟩
    have chunks := Grammar.chunks_of_sizeLine (Grammar.sizeLine_of_chunkHeader header)
    dsimp only at continues
    by_cases last : size = 0
    · subst last
      rw [if_pos rfl] at continues
      rcases Option.map_eq_some_iff.mp continues with ⟨⟨fields', rest'⟩, closing, same⟩
      cases same
      rcases (readChunkSize_of_holds limits deadline after.holds).accepts header with
        ⟨_, sized, after', _, -⟩
      rcases (readTrailers_of_holds limits wanted deadline after'.holds).accepts closing with
        ⟨second, closed, after'', _⟩
      simp only [readChunkTurn, run_bind, sized, if_true, closed, run_pure, Turn.Meets]
      rw [after'.body_eq, after.body_eq] at after''
      rw [List.append_nil]
      exact ⟨second, rfl, after.trans (after'.trans after''), by omega⟩
    · rw [if_neg last] at continues
      split at continues
      next passes =>
        rcases Option.map_eq_some_iff.mp continues with ⟨⟨later', _, _⟩, more, same⟩
        cases same
        rw [chunks, if_neg last] at room
        rcases readChunkTurn_of_room sink deadline wanted after.holds header last
          (moderate.size_lt header) passes le_rfl room.1 with ⟨_, ran, after', least, _⟩
        rw [ran]
        refine ⟨_, Grammar.length_drop_lt_of_chunkHeader header (size + 2),
          behind.drop (size + 2), done ++ behind.take size, later', rfl, ?_, ?_, more,
            moderate.later header last, room.2.mono least, by omega⟩
        · rw [List.append_assoc]
        · rw [after.body_eq, additive.append] at after'
          exact after.trans after'
      · cases continues
  · refine ⟨unread, [], content, rfl, rfl, ?_, read, moderate, room, le_max_left _ _⟩
    rw [additive.nil]
    exact holds.after
  · have bound := holds.length_le_backlog
    omega

end Chunks

end Corouv.Http
