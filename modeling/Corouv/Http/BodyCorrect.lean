import Corouv.Http.ReaderCorrect

/-!
# The body readers compute the grammar

Fixed-length, chunked and close-delimited bodies.  A body is handed to its sink in
pieces that depend on the network; an additive sink cannot tell.  The buffer ends
up no fuller than a line or what was in it at the start, so that the next message
can be read under the same bound.
-/

namespace Corouv.Http

open Library Io
open EStateM (run_bind run_get run_pure run_modify)

/-- The sink does not see where one chunk ends and the next begins. -/
structure BodySink.Additive (sink : BodySink) : Prop where
  nil : ∀ body, sink.absorb body [] = body
  append : ∀ body first second,
    sink.absorb (sink.absorb body first) second = sink.absorb body (first ++ second)

theorem BodySink.additive_collect : BodySink.collect.Additive :=
  ⟨fun body => List.append_nil body, fun body first second => List.append_assoc body first second⟩

theorem BodySink.additive_ignore : BodySink.ignore.Additive :=
  ⟨fun _ => rfl, fun _ _ _ => rfl⟩

/-- Hand bytes of the buffer to the sink and consume them. -/
def Conn.deliver (conn : Conn) (sink : BodySink) (announced : Option ℕ) (length : ℕ) : Conn :=
  (conn.onChunk sink announced (conn.buffer.view.take length)).consume length

variable {conn state : Conn} {unread : Bytes} {ended : Bool} {limits : Limits} {total size : ℕ}
  {sink : BodySink} {deadline : Deadline}

variable {length rank : ℕ} {fields : Headers} {error : Exn} {wanted : Bool} {rest : Bytes}
  {conn' : Conn}

theorem Conn.size_deliver (sink : BodySink) (announced : Option ℕ)
    (held : length ≤ conn.buffer.size) :
    (conn.deliver sink announced length).buffer.size = conn.buffer.size - length :=
  BufferCursor.size_consume held

theorem Conn.Holds.deliver (sink : BodySink) (announced : Option ℕ)
    (holds : conn.Holds unread ended) (held : length ≤ conn.buffer.size) :
    conn.After (conn.deliver sink announced length) (unread.drop length) ended
      (sink.absorb conn.body (unread.take length)) := by
  have shown : conn.buffer.view.take length = unread.take length := by
    rw [holds.view_eq_take, List.take_take, Nat.min_eq_left held]
  have delivered := holds.onChunk sink announced (conn.buffer.view.take length)
  have consumed := delivered.holds.consume held
  rw [← shown]
  exact delivered.trans consumed

theorem Conn.Holds.length_le_backlog (holds : conn.Holds unread ended) :
    unread.length ≤ conn.backlog := by
  rcases holds.clean with ⟨_, clean, rfl⟩
  have bound := length_le_allData_of_contents clean
  simp only [List.length_append, BufferCursor.length_view, Conn.backlog]
  omega

abbrev FixedBodySpec (conn : Conn) (unread : Bytes) (ended : Bool) (limits : Limits)
    (size : ℕ) (sink : BodySink) : EStateM.Result Exn Conn Unit → Prop :=
  ReadSpec (Grammar.fixedBody limits size unread) (ended = true) fun read result =>
    Returns result () fun conn' =>
      conn.After conn' read.2 ended (sink.absorb conn.body read.1) ∧
        conn'.buffer.size ≤ conn.buffer.size

/-- The state of the loop when `remaining` of `size` bytes are still to come. -/
structure FixedBodyProgress (conn : Conn) (unread : Bytes) (ended : Bool) (size : ℕ)
    (sink : BodySink) (remaining : ℕ) (state : Conn) : Prop where
  remaining_le : remaining ≤ size
  taken_le : size - remaining ≤ unread.length
  after : conn.After state (unread.drop (size - remaining)) ended
    (sink.absorb conn.body (unread.take (size - remaining)))
  size_le : state.buffer.size ≤ max conn.buffer.size remaining

theorem FixedBodyProgress.deliver {remaining count : ℕ} (additive : sink.Additive)
    (progress : FixedBodyProgress conn unread ended size sink remaining state)
    (held : count ≤ state.buffer.size) (wanted : count ≤ remaining) :
    FixedBodyProgress conn unread ended size sink (remaining - count)
      (state.deliver sink none count) := by
  rcases progress with ⟨_, _, after, _⟩
  have delivered := after.holds.deliver sink none held
  have inside := after.holds.size_le
  have further : size - (remaining - count) = size - remaining + count := by omega
  simp only [List.length_drop] at inside
  refine ⟨by omega, by omega, ?_, ?_⟩
  · rw [after.body_eq, additive.append, List.drop_drop, ← List.take_add] at delivered
    rw [further]
    exact after.trans delivered
  · have shrunk := state.size_deliver sink none held
    omega

/-- A sized body is read as the grammar reads it, whatever pieces it comes in. -/
theorem readFixedBodyStream_of_holds (limits : Limits) (size : ℕ) (additive : sink.Additive)
    (deadline : Deadline) (holds : conn.Holds unread ended) :
    FixedBodySpec conn unread ended limits size sink
      ((readFixedBodyStream limits size sink deadline).run conn) := by
  by_cases large : size > limits.maxBodyBytes
  · simp only [readFixedBodyStream, if_pos large]
    rw [FixedBodySpec, Grammar.fixedBody, if_neg (by omega)]
    exact .of_none fun _ => ⟨_, _, rfl, rfl⟩
  · simp only [readFixedBodyStream, if_neg large, run_bind, run_get]
    apply loop_total (FixedBodyProgress conn unread ended size sink)
      (fun _ state => 2 * state.incoming + state.buffer.size)
    · intro remaining state progress
      by_cases more : remaining > 0
      · by_cases nonempty : state.buffer.size ≠ 0
        · simp only [readFixedBodyTurn, if_pos more, run_bind, run_get,
            if_pos nonempty, run_modify, run_pure, Turn.Meets]
          have held := Nat.min_le_right remaining state.buffer.size
          refine ⟨progress.deliver additive held (Nat.min_le_left _ _), ?_⟩
          have shrunk := state.size_deliver sink none held
          have untouched : (state.deliver sink none (min remaining state.buffer.size)).incoming =
              state.incoming := rfl
          rw [Conn.deliver] at shrunk untouched
          omega
        · simp only [readFixedBodyTurn, if_pos more, run_bind, run_get, if_neg nonempty]
          rcases progress with ⟨remaining_le, taken_le, after, _⟩
          rcases readMore_of_holds (.http 413 "HTTP body too large") deadline after.holds
              (by omega : 0 < min remaining 4096)
              (by omega : state.buffer.size + min remaining 4096 ≤ remaining) with
            ⟨whole, stays, waits⟩ | ⟨whole, closed, _, -, ends⟩ |
              ⟨_, _, nonzero, _, reads, after', _, _⟩
          · have length := Conn.length_of_view_eq whole
            rw [List.length_drop] at length
            rw [waits, FixedBodySpec, Grammar.fixedBody, if_neg (by omega)]
            exact .of_none fun closed => absurd (stays.symm.trans closed) (by simp)
          · have length := Conn.length_of_view_eq whole
            rw [List.length_drop] at length
            rw [ends, FixedBodySpec, Grammar.fixedBody, if_neg (by omega)]
            exact .of_none fun _ => ⟨_, _, rfl, rfl⟩
          · rw [reads]
            simp only [if_neg nonzero, run_pure, Turn.Meets]
            refine ⟨⟨remaining_le, taken_le, after.trans (after.body_eq ▸ after'), ?_⟩, ?_⟩
            · omega
            · omega
      · simp only [readFixedBodyTurn, if_neg more, run_pure, Turn.Meets]
        rcases progress with ⟨_, taken_le, after, _⟩
        have finished : remaining = 0 := by omega
        subst remaining
        rw [FixedBodySpec, Grammar.fixedBody, if_pos ⟨by omega, taken_le⟩]
        exact .of_some ⟨state, rfl, after, by omega⟩
    · refine ⟨le_rfl, by simp, ?_, le_max_left _ _⟩
      simpa [additive.nil] using holds.after
    · simp only [Conn.incoming, Conn.backlog]
      omega

/-- Nothing more will come and the buffer is within the limit of a line, so a
reader that does not find what it wants has to say so. -/
def Conn.Final (conn : Conn) (limits : Limits) (ended : Bool) : Prop :=
  ended = true ∧ conn.buffer.size ≤ limits.maxHeaderBytes

abbrev ChunkSizeSpec (conn : Conn) (unread : Bytes) (ended : Bool) (limits : Limits) :
    EStateM.Result Exn Conn ℕ → Prop :=
  ReadSpec (Grammar.chunkHeader limits unread) (conn.Final limits ended) fun read result =>
    Returns result read.1 fun conn' => conn.After conn' read.2 ended conn.body ∧
      conn.Takes conn' (unread.length - read.2.length) limits.maxHeaderBytes

theorem readChunkSize_of_holds (limits : Limits) (deadline : Deadline)
    (holds : conn.Holds unread ended) :
    ChunkSizeSpec conn unread ended limits ((readChunkSize limits deadline).run conn) := by
  have lines := readLineCrlf_of_holds limits.maxHeaderBytes (.http 431 "chunk header too large")
    "unexpected eof while reading chunk header" deadline holds
  constructor
  · intro _ read
    rcases Grammar.chunkHeader_eq_some read with ⟨text, found, announced⟩
    rcases lines.accepts found with ⟨conn', ran, after⟩
    refine ⟨conn', ?_, after⟩
    simp only [readChunkSize, run_bind, ran, announced, run_pure]
  · rintro rejected ⟨final, narrow⟩
    cases found : Grammar.line limits.maxHeaderBytes unread with
    | none =>
        exact (lines.rejects found ⟨final, narrow, rfl⟩).bind _
    | some read =>
        rcases lines.accepts found with ⟨conn', ran, -⟩
        have unannounced : chunkSize read.1 = none := by
          simpa [Grammar.chunkHeader, found] using rejected
        refine ⟨.http 400 "invalid chunk size", conn', ?_, rfl⟩
        simp only [readChunkSize, run_bind, ran, unannounced]
        rfl

abbrev TrailersSpec (conn : Conn) (unread : Bytes) (ended : Bool) (limits : Limits)
    (wanted : Bool) : EStateM.Result Exn Conn Headers → Prop :=
  ReadSpec (Grammar.trailers limits wanted unread) (conn.Final limits ended) fun read result =>
    Returns result read.1 fun conn' => conn.After conn' read.2 ended conn.body ∧
      conn'.buffer.size ≤ max conn.buffer.size limits.maxHeaderBytes

theorem isHttpError_of_appendTrailer {line : Bytes}
    (failed : appendTrailer fields line = .error error) : error.isHttpError = true := by
  simp only [appendTrailer] at failed
  split at failed
  · cases failed
    rfl
  · cases failed

/-- The trailer loop at `state`, with the fields read so far. -/
structure TrailersProgress (conn : Conn) (unread : Bytes) (ended : Bool) (limits : Limits)
    (wanted : Bool) (rank : ℕ) (fields : Headers) (state : Conn) : Prop where
  progress : ∃ unread', rank = unread'.length ∧ conn.After state unread' ended conn.body ∧
    Grammar.trailers limits wanted unread = Grammar.trailersFrom limits wanted fields unread'
  size_le : state.buffer.size ≤ max conn.buffer.size limits.maxHeaderBytes

/-- One trailer line; `rank` falls with every field that is taken. -/
theorem readTrailersTurn_meets
    (settled : (Grammar.trailers limits wanted unread).isSome ∨ conn.Final limits ended)
    (progress : TrailersProgress conn unread ended limits wanted rank fields state) :
    Turn.Meets (fun longer state' => ∃ lower < rank,
        TrailersProgress conn unread ended limits wanted lower longer state')
      (TrailersSpec conn unread ended limits wanted)
      ((readTrailersTurn limits deadline wanted fields).run state) := by
  rcases progress with ⟨⟨unread', rfl, after, same⟩, _⟩
  have lines := readLineCrlf_of_holds limits.maxHeaderBytes (.http 431 "trailer headers too large")
    "unexpected eof while reading trailer headers" deadline after.holds
  rw [Grammar.trailersFrom_eq] at same
  cases found : Grammar.line limits.maxHeaderBytes unread' with
  | none =>
      simp only [found, Option.bind_none] at same
      rcases settled with some_ | ⟨final, _⟩
      · simp [same] at some_
      · rcases lines.rejects found ⟨final, by omega, rfl⟩ with ⟨error, state', ran, http⟩
        simp only [readTrailersTurn, run_bind, ran, Turn.Meets]
        exact ⟨by simp [same], fun _ _ => ⟨error, state', rfl, http⟩⟩
  | some read =>
      rcases read with ⟨text, rest⟩
      rcases lines.accepts found with ⟨state', ran, after', _, -⟩
      have shorter := Grammar.length_rest_of_line found
      have chained := after.trans (after.body_eq ▸ after')
      simp only [found, Option.bind_some] at same
      simp only [readTrailersTurn, run_bind, ran]
      by_cases last : text = []
      · simp only [if_pos last, run_pure, Turn.Meets] at same ⊢
        rw [TrailersSpec, same]
        exact .of_some ⟨state', rfl, chained, by omega⟩
      · simp only [if_neg last] at same ⊢
        cases wanted with
        | false =>
            simp only [Bool.false_eq_true, if_false, run_pure, Turn.Meets] at same ⊢
            exact ⟨rest.length, by omega, ⟨rest, rfl, chained, same⟩, by omega⟩
        | true =>
            simp only [if_true] at same ⊢
            cases appended : appendTrailer fields text with
            | error error =>
                simp only [appended] at same ⊢
                exact ⟨by simp [same], fun _ _ =>
                  ⟨error, state', rfl, isHttpError_of_appendTrailer appended⟩⟩
            | ok longer =>
                simp only [appended] at same ⊢
                by_cases many : longer.length > limits.maxHeaderCount
                · simp only [if_pos many, if_neg (Nat.not_le_of_gt many)] at same ⊢
                  exact ⟨by simp [same], fun _ _ => ⟨_, state', rfl, rfl⟩⟩
                · simp only [if_neg many, if_pos (Nat.le_of_not_gt many), run_pure,
                    Turn.Meets] at same ⊢
                  exact ⟨rest.length, by omega, ⟨rest, rfl, chained, same⟩, by omega⟩

theorem readTrailers_of_holds (limits : Limits) (wanted : Bool) (deadline : Deadline)
    (holds : conn.Holds unread ended) :
    TrailersSpec conn unread ended limits wanted
      ((readTrailers limits deadline wanted).run conn) := by
  apply ReadSpec.of_settled
  intro settled
  simp only [readTrailers, run_bind, run_get]
  apply loop_ranked (TrailersProgress conn unread ended limits wanted)
  · intro _ _ _ progress
    exact readTrailersTurn_meets settled progress
  · exact ⟨⟨unread, rfl, holds.after, rfl⟩, le_max_left _ _⟩
  · have bound := holds.length_le_backlog
    omega

/-- The sums of limits and chunk sizes stay below `2 ^ 64`. -/
structure Limits.Small (limits : Limits) : Prop where
  body : limits.maxBodyBytes < 2 ^ 62
  header : limits.maxHeaderBytes < 2 ^ 62

theorem chunkBufferLimit_lt (limits : Limits) (total : ℕ) :
    chunkBufferLimit limits total < 2 ^ 64 :=
  lt_of_le_of_lt (Nat.min_le_left _ _) (sizeAdd_lt _ _)

theorem Limits.Small.le_chunkBufferLimit (small : limits.Small)
    (fits : total + size ≤ limits.maxBodyBytes) (line : 2 ≤ limits.maxHeaderBytes) :
    size + 2 ≤ chunkBufferLimit limits total := by
  rcases small with ⟨_, _⟩
  rw [chunkBufferLimit, sizeSub_of_le (by omega) limits.maxBodyBytes_lt, sizeAdd_of_lt (by omega),
    sizeAdd_of_lt (by omega)]
  omega

/-- The connection once the bytes already in the buffer have been handed over. -/
def Conn.handOver (conn : Conn) (sink : BodySink) : Conn :=
  if conn.buffer.size ≠ 0 then
    (conn.onChunk sink none conn.buffer.view).consume conn.buffer.size
  else conn

theorem Conn.stream_handOver (conn : Conn) (sink : BodySink) :
    (conn.handOver sink).stream = conn.stream := by
  simp only [Conn.handOver]
  split
  · rfl
  · rfl

theorem Conn.handOver_incoming (conn : Conn) (sink : BodySink) :
    (conn.handOver sink).incoming = conn.incoming := by
  rw [Conn.incoming, Conn.stream_handOver, Conn.incoming]

theorem readUntilCloseBodyStream_run (sink : BodySink) (deadline : Deadline)
    (within : conn.buffer.size ≤ limits.maxBodyBytes) :
    (readUntilCloseBodyStream limits sink deadline).run conn =
      (loop .exhausted (readUntilCloseTurn limits sink deadline) (conn.backlog + 1)
        conn.buffer.size).run (conn.handOver sink) := by
  simp only [readUntilCloseBodyStream, run_bind, run_get, if_neg (Nat.not_lt_of_le within)]
  by_cases nonempty : conn.buffer.size ≠ 0
  · simp only [if_pos nonempty, Conn.handOver]
    rfl
  · simp only [if_neg nonempty, Conn.handOver]

theorem readUntilCloseTurn_run_ok {data : Bytes} (sink : BodySink) (deadline : Deadline)
    (received : (recvSome 4096 deadline).run conn = .ok data conn') :
    (readUntilCloseTurn limits sink deadline total).run conn =
      if data = [] then .ok (.done ()) conn'.close
      else if sizeAdd total data.length > limits.maxBodyBytes then
        .error (.http 413 "HTTP body too large") conn'
      else .ok (.again (sizeAdd total data.length)) (conn'.onChunk sink none data) := by
  simp only [readUntilCloseTurn, run_bind, received]
  split
  · rfl
  · split
    · rfl
    · rfl

theorem readUntilCloseTurn_run_error (sink : BodySink) (deadline : Deadline)
    (failed : (recvSome 4096 deadline).run conn = .error error conn') :
    (readUntilCloseTurn limits sink deadline total).run conn = .error error conn' := by
  simp only [readUntilCloseTurn, run_bind, failed]

structure UntilCloseSpec (conn : Conn) (unread : Bytes) (limits : Limits) (sink : BodySink)
    (result : EStateM.Result Exn Conn Unit) : Prop where
  accepts : unread.length ≤ limits.maxBodyBytes → Returns result () fun conn' =>
    conn'.stream.isOpen = false ∧ conn'.body = sink.absorb conn.body unread ∧
      conn'.prefetchedResponse = conn.prefetchedResponse
  rejects : limits.maxBodyBytes < unread.length → Refuses result

/-- The loop after `total` bytes of the body: the buffer has been drained. -/
structure UntilCloseProgress (conn : Conn) (unread : Bytes) (limits : Limits) (sink : BodySink)
    (total : ℕ) (state : Conn) : Prop where
  total_le : total ≤ limits.maxBodyBytes
  taken_le : total ≤ unread.length
  drained : state.buffer.size = 0
  after : conn.After state (unread.drop total) true (sink.absorb conn.body (unread.take total))

/-- One receive of an unsized body; what is still to come gets less. -/
theorem readUntilCloseTurn_meets (additive : sink.Additive)
    (settled : unread.length ≤ limits.maxBodyBytes ∨ limits.Small)
    (progress : UntilCloseProgress conn unread limits sink total state) :
    Turn.Meets (fun total' state' => UntilCloseProgress conn unread limits sink total' state' ∧
        state'.incoming < state.incoming)
      (UntilCloseSpec conn unread limits sink)
      ((readUntilCloseTurn limits sink deadline total).run state) := by
  rcases progress with ⟨_, _, drained, after⟩
  rcases after.holds.clean with ⟨data, clean, joined⟩
  have empty : state.buffer.view = [] := by
    rw [← List.length_eq_zero_iff, BufferCursor.length_view, drained]
  rw [empty, List.nil_append] at joined
  subst data
  rcases receive_of_contents deadline.duration.isSome clean (by norm_num : 0 < 4096) with
    ⟨-, stays, -⟩ | ⟨done, -, later, ends, -⟩ | ⟨count, later, positive, small, inside, arrives,
      laterClean⟩
  · exact absurd stays (by simp)
  · have received : (recvSome 4096 deadline).run state = .ok [] (state.withArrivals later) := by
      rw [recvSome_run after.holds.isOpen, ends]
      rfl
    rw [readUntilCloseTurn_run_ok sink deadline received, if_pos rfl]
    have all : unread.length ≤ total := List.drop_eq_nil_iff.mp done
    constructor
    · intro _
      refine ⟨_, rfl, rfl, ?_, after.prefetched_eq⟩
      simp only [Conn.close, Conn.withArrivals, after.body_eq, List.take_of_length_le all]
    · intro _
      omega
  · have received : (recvSome 4096 deadline).run state =
        .ok ((unread.drop total).take count) (state.withArrivals later) := by
      rw [recvSome_run after.holds.isOpen, arrives]
      rfl
    have length : ((unread.drop total).take count).length = count := by
      rw [List.length_take, Nat.min_eq_left inside]
    have some_ : (unread.drop total).take count ≠ [] := by
      rw [← List.length_pos_iff, length]
      exact positive
    rw [List.length_drop] at inside
    have limit := limits.maxBodyBytes_lt
    have sum : sizeAdd total count = total + count := by
      apply sizeAdd_of_lt
      rcases settled with _ | small
      · omega
      · have := small.body
        omega
    rw [readUntilCloseTurn_run_ok sink deadline received, if_neg some_, length, sum]
    by_cases large : total + count > limits.maxBodyBytes
    · rw [if_pos large]
      constructor
      · intro _
        omega
      · intro _
        exact ⟨_, _, rfl, rfl⟩
    · rw [if_neg large]
      have moved := (receive_bytes arrives).2
      have fewer : (state.withArrivals later).incoming + count = state.incoming := by
        simp only [Conn.incoming, Conn.withArrivals, moved, List.length_append, length]
        omega
      refine ⟨⟨by omega, by omega, drained, ?_⟩, ?_⟩
      · refine ⟨⟨after.holds.isOpen, (unread.drop total).drop count, laterClean, ?_⟩, ?_,
          after.departures_eq, after.written_eq, after.prefetched_eq, ?_, ?_⟩
        · have still : (state.withArrivals later).buffer.view = [] := empty
          rw [Conn.onChunk, still, List.nil_append, List.drop_drop]
        · simp only [Conn.onChunk, Conn.withArrivals, after.body_eq, additive.append, List.take_add]
        · have early := after.incoming_le
          change (state.withArrivals later).incoming ≤ conn.incoming
          omega
        · intro trickles
          have pieces := receive_trickles 4096 deadline.duration.isSome (after.trickles trickles)
          rw [arrives] at pieces
          exact pieces.2
      · change (state.withArrivals later).incoming < state.incoming
        omega

theorem Conn.Holds.handOver (sink : BodySink) (additive : sink.Additive)
    (holds : conn.Holds unread ended) :
    conn.After (conn.handOver sink) (unread.drop conn.buffer.size) ended
        (sink.absorb conn.body (unread.take conn.buffer.size)) ∧
      (conn.handOver sink).buffer.size = 0 := by
  simp only [Conn.handOver]
  split
  · have delivered := holds.deliver sink none le_rfl
    have left := conn.size_deliver sink none le_rfl
    rw [Conn.deliver, List.take_of_length_le (by simp)] at delivered left
    exact ⟨delivered, by omega⟩
  next empty =>
    rw [not_not] at empty
    refine ⟨?_, empty⟩
    rw [empty, List.take_zero, List.drop_zero, additive.nil]
    exact holds.after

theorem readUntilCloseBodyStream_of_holds (limits : Limits) (additive : sink.Additive)
    (deadline : Deadline) (holds : conn.Holds unread true)
    (settled : unread.length ≤ limits.maxBodyBytes ∨ limits.Small) :
    UntilCloseSpec conn unread limits sink
      ((readUntilCloseBodyStream limits sink deadline).run conn) := by
  have inside := holds.size_le
  by_cases within : conn.buffer.size ≤ limits.maxBodyBytes
  · rcases holds.handOver sink additive with ⟨after, drained⟩
    rw [readUntilCloseBodyStream_run sink deadline within]
    apply loop_total (UntilCloseProgress conn unread limits sink) (fun _ state => state.incoming)
    · intro _ _ progress
      exact readUntilCloseTurn_meets additive settled progress
    · exact ⟨within, inside, drained, after⟩
    · rw [conn.handOver_incoming]
      exact conn.incoming_lt_fuel
  · simp only [readUntilCloseBodyStream, run_bind, run_get, if_pos (Nat.lt_of_not_le within)]
    constructor
    · intro _
      omega
    · intro _
      exact ⟨_, _, rfl, rfl⟩

end Corouv.Http
