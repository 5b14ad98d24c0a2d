import Corouv.Http.BodyCorrect
import Corouv.Http.ReaderSafe
import Mathlib.Algebra.BigOperators.Group.List.Basic

/-!
# The limit on incoming bodies

The readers of message bodies are to hand over at most `max_body_bytes`, each
chunk with exactly the length its chunk-size line announced, and never to consume
more than the buffer holds.  For bodies of fixed length this is so on every stream.
The other two readers add sizes in `size_t` and test the sum: they keep the
promise as long as, and only as long as, no sum they let pass has wrapped around.
Which bytes lead them there can be said of the input alone; it is then enough that
some of them are in the buffer already, and no network keeps the reader from it.
-/

namespace Corouv.Http

open Library Io
open EStateM (run_bind run_get run_pure run_modify)

def BodyEvent.bytes : BodyEvent → ℕ
  | .delivered _ data => data.length
  | .consumed _ _ => 0

/-- A chunk is as long as announced, and what is consumed is there. -/
def BodyEvent.Exact : BodyEvent → Prop
  | .delivered (some size) data => data.length = size
  | .delivered none _ => True
  | .consumed length held => length ≤ held

def deliveredBytes (trace : List BodyEvent) : ℕ :=
  (trace.map BodyEvent.bytes).sum

structure SafeTrace (limit : ℕ) (trace : List BodyEvent) : Prop where
  total_le : deliveredBytes trace ≤ limit
  exact : ∀ event ∈ trace, event.Exact

/-- So far `total` bytes have been handed over and all has been well. -/
structure Accounted (total : ℕ) (trace : List BodyEvent) : Prop where
  total_eq : deliveredBytes trace = total
  exact : ∀ event ∈ trace, event.Exact

/-- However a reader ends, it has kept to the limit, to the announced lengths and to its
buffer. -/
def EndsSafely {α : Type} (limits : Limits) (result : EStateM.Result Exn Conn α) : Prop :=
  SafeTrace limits.maxBodyBytes (endState result).trace

def Conn.Extends (before after : Conn) : Prop :=
  before.trace <+: after.trace

theorem deliveredBytes_append (first second : List BodyEvent) :
    deliveredBytes (first ++ second) = deliveredBytes first + deliveredBytes second := by
  simp [deliveredBytes]

variable {conn before after : Conn} {total size : ℕ} {limits : Limits} {deadline : Deadline}

variable {limit bound : ℕ} {trace : List BodyEvent} {filled : Conn}

theorem SafeTrace.of_extends (extended : before.Extends after)
    (safe : SafeTrace limit after.trace) :
    SafeTrace limit before.trace := by
  rcases extended with ⟨later, split⟩
  rcases safe with ⟨total_le, exact⟩
  rw [← split] at total_le exact
  rw [deliveredBytes_append] at total_le
  refine ⟨by omega, ?_⟩
  intro event mem
  exact exact event (List.mem_append_left later mem)

theorem Accounted.safeTrace (accounted : Accounted total trace) (within : total ≤ limit) :
    SafeTrace limit trace :=
  ⟨accounted.total_eq ▸ within, accounted.exact⟩

theorem Accounted.append {event : BodyEvent} (accounted : Accounted total trace)
    (fine : event.Exact) : Accounted (total + event.bytes) (trace ++ [event]) := by
  constructor
  · rw [deliveredBytes_append, accounted.total_eq]
    simp [deliveredBytes]
  · intro event' mem
    rcases List.mem_append.mp mem with old | new
    · exact accounted.exact event' old
    · rw [List.mem_singleton.mp new]
      exact fine

theorem Accounted.quiet (accounted : Accounted total before.trace) (quiet : before.Quiet after) :
    Accounted total after.trace := by
  rcases quiet with ⟨events, split, mild⟩
  have nothing : deliveredBytes events = 0 := by
    apply List.sum_eq_zero
    intro _ mem
    rcases List.mem_map.mp mem with ⟨event, eventMem, rfl⟩
    rcases mild event eventMem with ⟨_, _, rfl, -⟩
    rfl
  constructor
  · rw [split, deliveredBytes_append, accounted.total_eq, nothing, Nat.add_zero]
  · intro event mem
    rw [split] at mem
    rcases List.mem_append.mp mem with old | new
    · exact accounted.exact event old
    · rcases mild event new with ⟨_, _, rfl, within⟩
      exact within

theorem Accounted.deliver {length : ℕ} (sink : BodySink) (announced : Option ℕ)
    (accounted : Accounted total conn.trace) (held : length ≤ conn.buffer.size)
    (honest : announced = none ∨ announced = some length) :
    Accounted (total + length) (conn.deliver sink announced length).trace := by
  have size : (conn.buffer.view.take length).length = length := by
    rw [List.length_take, BufferCursor.length_view, Nat.min_eq_left held]
  have handed : (BodyEvent.delivered announced (conn.buffer.view.take length)).Exact := by
    rcases honest with rfl | rfl
    · trivial
    · exact size
  have delivered := accounted.append handed
  have consumable : (BodyEvent.consumed length conn.buffer.size).Exact := held
  have consumed := delivered.append consumable
  simp only [BodyEvent.bytes, size, Nat.add_zero] at consumed
  exact consumed

theorem Conn.Quiet.extends (quiet : before.Quiet after) : before.Extends after := by
  rcases quiet with ⟨events, split, -⟩
  exact ⟨events, split.symm⟩

theorem Conn.Extends.refl (conn : Conn) : conn.Extends conn :=
  List.prefix_rfl

theorem Conn.Extends.trans (first second third : Conn) (one : first.Extends second)
    (two : second.Extends third) : first.Extends third :=
  List.IsPrefix.trans one two

theorem Conn.extends_consume (conn : Conn) (length : ℕ) : conn.Extends (conn.consume length) :=
  List.prefix_append _ _

theorem Conn.extends_deliver (conn : Conn) (sink : BodySink) (announced : Option ℕ)
    (length : ℕ) : conn.Extends (conn.deliver sink announced length) :=
  ⟨[.delivered announced (conn.buffer.view.take length), .consumed length conn.buffer.size],
    by simp [Conn.deliver, Conn.consume, Conn.onChunk]⟩

def EndsWithin (size : ℕ) (result : EStateM.Result Exn Conn Unit) : Prop :=
  ∃ total ≤ size, Accounted total (endState result).trace

theorem readFixedBodyTurn_meets {remaining : ℕ} (sink : BodySink) (deadline : Deadline)
    (within : remaining ≤ size) (accounted : Accounted (size - remaining) conn.trace) :
    Turn.Meets (fun remaining' conn' => remaining' ≤ size ∧
        Accounted (size - remaining') conn'.trace)
      (EndsWithin size) ((readFixedBodyTurn sink deadline remaining).run conn) := by
  by_cases more : remaining > 0
  · by_cases nonempty : conn.buffer.size ≠ 0
    · simp only [readFixedBodyTurn, if_pos more, run_bind, run_get,
        if_pos nonempty, run_modify, run_pure, Turn.Meets]
      refine ⟨by omega, ?_⟩
      have delivered := accounted.deliver sink none
        (Nat.min_le_right remaining conn.buffer.size) (.inl rfl)
      have further : size - (remaining - min remaining conn.buffer.size) =
          size - remaining + min remaining conn.buffer.size := by omega
      rw [further]
      exact delivered
    · simp only [readFixedBodyTurn, if_pos more, run_bind, run_get, if_neg nonempty]
      rcases readMore_any conn remaining (.http 413 "HTTP body too large") (min remaining 4096)
          deadline with ⟨data, _, ran, -, -, fetched⟩ | ⟨_, _, ran, same⟩
      · rw [ran]
        by_cases none_ : data.length = 0
        · simp only [if_pos none_]
          exact ⟨size - remaining, by omega, accounted.quiet (.of_eq fetched.trace_eq)⟩
        · simp only [if_neg none_, run_pure, Turn.Meets]
          exact ⟨within, accounted.quiet (.of_eq fetched.trace_eq)⟩
      · rw [ran]
        exact ⟨size - remaining, by omega, accounted.quiet (.of_eq same)⟩
  · simp only [readFixedBodyTurn, if_neg more, run_pure, Turn.Meets]
    exact ⟨size - remaining, by omega, accounted⟩

theorem safeTrace_readFixedBodyStream (limits : Limits) (size : ℕ) (sink : BodySink)
    (deadline : Deadline) (blank : Accounted 0 conn.trace) :
    EndsSafely limits ((readFixedBodyStream limits size sink deadline).run conn) := by
  by_cases large : size > limits.maxBodyBytes
  · simp only [readFixedBodyStream, if_pos large]
    exact blank.safeTrace (Nat.zero_le _)
  · simp only [readFixedBodyStream, if_neg large, run_bind, run_get]
    have ended : EndsWithin size ((loop .exhausted (readFixedBodyTurn sink deadline)
        (2 * conn.backlog + 2) size).run conn) := by
      apply loop_safe (fun remaining (state : Conn) => remaining ≤ size ∧
        Accounted (size - remaining) state.trace)
      · rintro remaining _ ⟨within, accounted⟩
        exact ⟨size - remaining, by omega, accounted⟩
      · rintro _ _ ⟨within, accounted⟩
        exact readFixedBodyTurn_meets sink deadline within accounted
      · exact ⟨le_rfl, by simpa using blank⟩
    rcases ended with ⟨_, _, accounted⟩
    exact accounted.safeTrace (by omega)

/-- At `conn`, with `total` bytes delivered, the next chunk-size line announces
`size`, the limit test lets it pass, and what the reader waits for arrives: the
chunk will be handed over from the buffer of `filled`. -/
def ChunkAdmitted (limits : Limits) (deadline : Deadline) (total : ℕ) (conn : Conn) (size : ℕ)
    (filled : Conn) : Prop :=
  ∃ after, (readChunkSize limits deadline).run conn = .ok size after ∧ size ≠ 0 ∧
    sizeAdd total size ≤ limits.maxBodyBytes ∧
    (ensureBuffer (sizeAdd size 2) (chunkBufferLimit limits total)
      (.http 413 "HTTP body too large") "unexpected eof while reading chunk data" deadline).run
        after = .ok () filled

structure ChunkAdmitted.Facts (conn : Conn) (size : ℕ) (filled : Conn) : Prop where
  quiet : conn.Quiet filled
  read : Grammar.sizeLine conn.unread = some (size, filled.unread)
  needed_le : sizeAdd size 2 ≤ filled.buffer.size

theorem ChunkAdmitted.facts (admitted : ChunkAdmitted limits deadline total conn size filled) :
    ChunkAdmitted.Facts conn size filled := by
  rcases admitted with ⟨after, read, -, -, ran⟩
  have sized := readChunkSize_any conn limits deadline
  rw [read] at sized
  have safe := ensureBuffer_any after (sizeAdd size 2) (chunkBufferLimit limits total)
    (.http 413 "HTTP body too large") "unexpected eof while reading chunk data" deadline
  rw [ran] at safe
  rcases safe.filled filled rfl with ⟨enough, -, same⟩
  refine ⟨sized.quiet.trans (.of_eq safe.trace_eq), ?_, enough⟩
  rw [same]
  exact sized.taken size after rfl

theorem readChunkTurn_run_of_admitted (sink : BodySink) (wanted : Bool)
    (admitted : ChunkAdmitted limits deadline total conn size filled) :
    (readChunkTurn limits sink deadline wanted total).run conn =
      if (filled.deliver sink (some size) size).buffer.view.take 2 ≠ crlf then
        .error (.http 400 "invalid chunk terminator") (filled.deliver sink (some size) size)
      else
        .ok (.again (sizeAdd total size)) ((filled.deliver sink (some size) size).consume 2) := by
  rcases admitted with ⟨_, read, nonzero, passes, ran⟩
  simp only [readChunkTurn, run_bind, read, if_neg nonzero,
    if_neg (Nat.not_lt_of_le passes), ran, run_modify, run_get, Conn.deliver]
  by_cases unterminated : ((filled.onChunk sink (some size) (filled.buffer.view.take size)).consume
      size).buffer.view.take 2 ≠ crlf
  · simp only [if_pos unterminated]
    exact (if_pos unterminated).symm
  · simp only [if_neg unterminated]
    exact (if_neg unterminated).symm

/-- Nothing of a chunk that is not admitted reaches the sink, and the loop ends there. -/
theorem readChunkTurn_of_not_admitted (sink : BodySink) (wanted : Bool)
    (refused : ¬∃ size filled, ChunkAdmitted limits deadline total conn size filled) :
    conn.Quiet (endState ((readChunkTurn limits sink deadline wanted total).run conn)) ∧
      ∀ next conn', (readChunkTurn limits sink deadline wanted total).run conn ≠
        .ok (.again next) conn' := by
  have quiet := (readChunkSize_any conn limits deadline).quiet
  cases read : (readChunkSize limits deadline).run conn with
  | error error after =>
      rw [read] at quiet
      simp only [readChunkTurn, run_bind, read]
      exact ⟨quiet, by simp⟩
  | ok size after =>
      rw [read] at quiet
      simp only [readChunkTurn, run_bind, read]
      by_cases last : size = 0
      · have trailed := readTrailers_any after limits deadline wanted
        simp only [if_pos last, run_bind]
        cases closing : (readTrailers limits deadline wanted).run after with
        | error error _ | ok _ _ =>
            rw [closing] at trailed
            exact ⟨quiet.trans trailed, by simp⟩
      · simp only [if_neg last]
        by_cases large : sizeAdd total size > limits.maxBodyBytes
        · simp only [if_pos large]
          exact ⟨quiet, by simp [run_throw_error]⟩
        · simp only [if_neg large, run_bind]
          have safe := ensureBuffer_any after (sizeAdd size 2) (chunkBufferLimit limits total)
            (.http 413 "HTTP body too large") "unexpected eof while reading chunk data" deadline
          cases ran : (ensureBuffer (sizeAdd size 2) (chunkBufferLimit limits total)
              (.http 413 "HTTP body too large") "unexpected eof while reading chunk data"
              deadline).run after with
          | error _ _ =>
              rw [ran] at safe
              exact ⟨quiet.trans (.of_eq safe.trace_eq), by simp⟩
          | ok _ filled =>
              exact absurd ⟨size, filled, after, read, last, Nat.le_of_not_lt large, ran⟩ refused

theorem readChunkTurn_extends (limits : Limits) (sink : BodySink) (deadline : Deadline)
    (wanted : Bool) (total : ℕ) (conn : Conn) :
    conn.Extends (endState ((readChunkTurn limits sink deadline wanted total).run conn)) := by
  by_cases admission : ∃ size filled, ChunkAdmitted limits deadline total conn size filled
  · rcases admission with ⟨size, filled, admitted⟩
    have early := admitted.facts.quiet.extends
    have delivered := filled.extends_deliver sink (some size) size
    rw [readChunkTurn_run_of_admitted sink wanted admitted]
    split
    · exact early.trans _ _ _ delivered
    · exact (early.trans _ _ _ delivered).trans _ _ _ (Conn.extends_consume _ 2)
  · exact (readChunkTurn_of_not_admitted sink wanted admission).1.extends

/-- The chunk loop, with `total` bytes handed over and `input` before it, comes to a chunk
that passes the test of the limit and makes a sum wrap around: the running total, or the
number of bytes to wait for. -/
inductive Grammar.Overflows (limits : Limits) : ℕ → Bytes → Prop
  | here {total size : ℕ} {input rest : Bytes} (read : sizeLine input = some (size, rest))
      (nonzero : size ≠ 0) (passes : sizeAdd total size ≤ limits.maxBodyBytes)
      (arrives : sizeAdd size 2 ≤ rest.length)
      (wraps : 2 ^ 64 ≤ total + size ∨ 2 ^ 64 ≤ size + 2) : Overflows limits total input
  | later {total size : ℕ} {input rest : Bytes} (read : sizeLine input = some (size, rest))
      (nonzero : size ≠ 0) (passes : total + size ≤ limits.maxBodyBytes)
      (exact : size + 2 < 2 ^ 64) (terminated : (rest.drop size).take 2 = crlf)
      (again : Overflows limits (total + size) (rest.drop (size + 2))) :
      Overflows limits total input

/-- The state of the chunk loop while all is well. -/
structure ChunkLoopSound (limits : Limits) (total : ℕ) (conn : Conn) : Prop where
  accounted : Accounted total conn.trace
  total_le : total ≤ limits.maxBodyBytes
  calm : ¬Grammar.Overflows limits total conn.unread

/-- A chunk that is in the buffer with its terminator, and what is left behind it. -/
theorem Conn.deliver_chunk (sink : BodySink) (held : size + 2 ≤ conn.buffer.size) :
    (conn.deliver sink (some size) size).buffer.view.take 2 = (conn.unread.drop size).take 2 ∧
      2 ≤ (conn.deliver sink (some size) size).buffer.size ∧
      ((conn.deliver sink (some size) size).consume 2).buffer.size =
        conn.buffer.size - (size + 2) ∧
      ((conn.deliver sink (some size) size).consume 2).unread = conn.unread.drop (size + 2) := by
  have inside : size ≤ conn.buffer.size := by omega
  have left := conn.size_deliver sink (some size) inside
  have two : 2 ≤ (conn.deliver sink (some size) size).buffer.size := by omega
  have unread : (conn.deliver sink (some size) size).unread = conn.unread.drop size :=
    Conn.unread_consume inside
  refine ⟨?_, two, ?_, ?_⟩
  · rw [← unread, Conn.unread, List.take_append_of_le_length (by simpa using two)]
  · have last : ((conn.deliver sink (some size) size).consume 2).buffer.size = _ :=
      BufferCursor.size_consume two
    omega
  · rw [Conn.unread_consume two, unread, List.drop_drop]

theorem readChunkTurn_of_calm (sink : BodySink) (wanted : Bool)
    (sound : ChunkLoopSound limits total conn) :
    Turn.Meets (ChunkLoopSound limits) (EndsSafely limits)
      ((readChunkTurn limits sink deadline wanted total).run conn) := by
  rcases sound with ⟨accounted, total_le, calm⟩
  by_cases admission : ∃ size filled, ChunkAdmitted limits deadline total conn size filled
  · rcases admission with ⟨size, filled, admitted⟩
    rcases admitted.facts with ⟨quiet, read, needed_le⟩
    rw [readChunkTurn_run_of_admitted sink wanted admitted]
    rcases admitted with ⟨-, -, nonzero, passes, -⟩
    have arrives : sizeAdd size 2 ≤ filled.unread.length := by
      simp only [Conn.unread, List.length_append, BufferCursor.length_view]
      omega
    have exactSums : ¬(2 ^ 64 ≤ total + size ∨ 2 ^ 64 ≤ size + 2) :=
      fun wraps => calm (.here read nonzero passes arrives wraps)
    rw [sizeAdd_of_lt (by omega)] at needed_le passes
    have held : size ≤ filled.buffer.size := by omega
    have delivered := (accounted.quiet quiet).deliver sink (some size) held (.inr rfl)
    rcases filled.deliver_chunk sink needed_le with ⟨terminator, two, -, left⟩
    split
    · exact delivered.safeTrace passes
    next terminated =>
      rw [sizeAdd_of_lt (by omega : total + size < 2 ^ 64)]
      refine ⟨delivered.quiet (Conn.quiet_consume two), passes, ?_⟩
      rw [left]
      intro overflows
      rw [terminator, not_not] at terminated
      exact calm (.later read nonzero passes (by omega) terminated overflows)
  · rcases readChunkTurn_of_not_admitted sink wanted admission with ⟨quiet, leaves⟩
    have safe := (accounted.quiet quiet).safeTrace total_le
    cases ran : (readChunkTurn limits sink deadline wanted total).run conn with
    | error _ conn' =>
        rw [ran] at safe
        exact safe
    | ok verdict conn' =>
        rw [ran] at safe
        cases verdict with
        | done _ => exact safe
        | again next => exact absurd ran (leaves next conn')

/-- A chunk is admitted if the buffer holds its line and what is waited for. -/
theorem admitted_of_buffered {rest : Bytes} (deadline : Deadline)
    (read : Grammar.sizeLine conn.unread = some (size, rest)) (nonzero : size ≠ 0)
    (passes : sizeAdd total size ≤ limits.maxBodyBytes)
    (enough : conn.unread.length - rest.length + sizeAdd size 2 ≤ conn.buffer.size) :
    ∃ filled, ChunkAdmitted limits deadline total conn size filled ∧
      filled.buffer.size = conn.buffer.size - (conn.unread.length - rest.length) := by
  rcases Grammar.sizeLine_eq_some read with ⟨_, line, announced⟩
  rcases Grammar.line_eq_some line with ⟨position, found, -, within, rfl, rfl⟩
  have length : conn.unread.length - (conn.unread.drop (position + 2)).length = position + 2 := by
    rw [List.length_drop]
    omega
  rw [length] at enough ⊢
  have shown : conn.buffer.view = conn.unread.take conn.buffer.size :=
    (List.take_left' conn.buffer.length_view).symm
  have buffered : find crlf conn.buffer.view = some position := by
    rw [shown, find_take_eq_some_iff (by simp [crlf])]
    exact ⟨found, show position + 2 ≤ _ by omega⟩
  have text : conn.buffer.view.take position = conn.unread.take position := by
    rw [shown, List.take_take, Nat.min_eq_left (by omega)]
  have left : (conn.consume (position + 2)).buffer.size = conn.buffer.size - (position + 2) :=
    BufferCursor.size_consume (by omega)
  refine ⟨_, ⟨conn.consume (position + 2), ?_, nonzero, passes, ?_⟩, left⟩
  · simp only [readChunkSize, run_bind, readLineCrlf_run_found buffered, text, announced, run_pure]
  · exact ensureBuffer_run_enough _ _ _ _ (by omega)

/-- A chunk that makes a sum wrap around is too long, shorter than announced or
consumed beyond the end of the buffer. -/
theorem not_safeTrace_deliver (sink : BodySink) (accounted : Accounted total conn.trace)
    (needed : conn.buffer.size = sizeAdd size 2) (size_lt : size < 2 ^ 64)
    (wraps : 2 ^ 64 ≤ total + size ∨ 2 ^ 64 ≤ size + 2) :
    ¬SafeTrace limits.maxBodyBytes (conn.deliver sink (some size) size).trace := by
  intro safe
  have limit := limits.maxBodyBytes_lt
  have held : size ≤ conn.buffer.size := by
    apply safe.exact (.consumed size conn.buffer.size)
    simp [Conn.deliver, Conn.consume, Conn.onChunk]
  have short : size + 2 < 2 ^ 64 := by
    simp only [sizeAdd] at needed
    omega
  have delivered := accounted.deliver sink (some size) held (.inr rfl)
  have sum := safe.total_le
  rw [delivered.total_eq] at sum
  omega

/-- With the input buffered up to the chunk that overflows and the bytes waited for, the loop
goes wrong.  By induction on the chunks before that one. -/
theorem Grammar.Overflows.breaks {input : Bytes} (overflows : Overflows limits total input)
    (sink : BodySink) (deadline : Deadline) (wanted : Bool) :
    ∃ held ≤ input.length, ∀ (conn : Conn) (fuel : ℕ), conn.unread = input →
      conn.buffer.size = held → Accounted total conn.trace → held < fuel →
        ¬EndsSafely limits ((loop .exhausted (readChunkTurn limits sink deadline wanted) fuel
          total).run conn) := by
  induction overflows with
  | @here total size input rest read nonzero passes arrives wraps =>
      have shorter := length_rest_of_sizeLine read
      refine ⟨input.length - rest.length + sizeAdd size 2, by omega, ?_⟩
      rintro conn fuel rfl buffered accounted below safe
      rcases admitted_of_buffered deadline read nonzero passes buffered.ge with
        ⟨filled, admitted, left⟩
      rcases sizeLine_eq_some read with ⟨_, -, announced⟩
      rcases Nat.exists_eq_succ_of_ne_zero (by omega : fuel ≠ 0) with ⟨fuel, rfl⟩
      apply not_safeTrace_deliver sink (accounted.quiet admitted.facts.quiet) (by omega)
        (chunkSize_lt announced) wraps
      apply safe.of_extends
      apply Conn.Extends.trans _ _ _ _ (endState_loop_of_turn Conn.Extends Conn.Extends.refl
        Conn.Extends.trans (readChunkTurn_extends limits sink deadline wanted) .exhausted fuel total
        conn)
      rw [readChunkTurn_run_of_admitted sink wanted admitted]
      split
      · exact .refl _
      · exact Conn.extends_consume _ 2
  | @later total size input rest read nonzero passes exact terminated _ ih =>
      rcases ih with ⟨held, inside, breaks⟩
      have shorter := length_rest_of_sizeLine read
      have long := length_of_take_two_eq_crlf terminated
      have limit := limits.maxBodyBytes_lt
      have sum : sizeAdd total size = total + size := sizeAdd_of_lt (by omega)
      have needed : sizeAdd size 2 = size + 2 := sizeAdd_of_lt exact
      rw [List.length_drop] at inside
      refine ⟨input.length - rest.length + (size + 2 + held), by omega, ?_⟩
      rintro conn fuel rfl buffered accounted below
      rcases admitted_of_buffered deadline read nonzero (sum.trans_le passes) (by omega) with
        ⟨filled, admitted, left⟩
      have unread := admitted.facts.read
      rw [read] at unread
      cases unread
      have enough : size + 2 ≤ filled.buffer.size := by omega
      rcases filled.deliver_chunk sink enough with ⟨terminator, two, size_eq, rest⟩
      have delivered := (accounted.quiet admitted.facts.quiet).deliver sink (some size)
        (Nat.le_of_add_right_le enough) (.inr rfl)
      rcases Nat.exists_eq_succ_of_ne_zero (by omega : fuel ≠ 0) with ⟨fuel, rfl⟩
      have ran := readChunkTurn_run_of_admitted sink wanted admitted
      rw [terminator, if_neg (not_not.mpr terminated), sum] at ran
      rw [loop_run_again fuel ran]
      exact breaks _ _ rest (by omega) (delivered.quiet (Conn.quiet_consume two)) (by omega)

/-- The connection is about to read a body from these bytes, some of which may be in its
buffer. -/
structure Conn.Carries (conn : Conn) (input : Bytes) : Prop where
  fresh : conn.trace = []
  unread_eq : conn.unread = input

/-- A connection with the first bytes of the input in its buffer. -/
def Conn.primed (input : Bytes) (held : ℕ) (pieces : List Bytes) : Conn :=
  { buffer := ({} : BufferCursor).append (input.take held)
    stream := { arrivals := pieces.map .data } }

theorem Conn.primed_carries (input : Bytes) (held : ℕ) (pieces : List Bytes)
    (behind : pieces.flatten = input.drop held) :
    (Conn.primed input held pieces).Carries input := by
  refine ⟨rfl, ?_⟩
  rw [Conn.unread, Conn.primed, BufferCursor.view_append, allData_map_data, behind]
  exact List.take_append_drop held input

theorem Conn.size_primed {input : Bytes} {held : ℕ} (pieces : List Bytes)
    (inside : held ≤ input.length) : (Conn.primed input held pieces).buffer.size = held := by
  rw [Conn.primed, BufferCursor.size_append, List.length_take, Nat.min_eq_left inside]
  exact Nat.zero_add held

theorem Conn.Carries.accounted {input : Bytes} (carries : conn.Carries input) :
    Accounted 0 conn.trace := by
  rw [carries.fresh]
  exact ⟨rfl, by simp⟩

theorem safeTrace_readChunkedBodyStream_iff (limits : Limits) (sink : BodySink)
    (deadline : Deadline) (wanted : Bool) (input : Bytes) :
    (∀ conn : Conn, conn.Carries input →
        EndsSafely limits ((readChunkedBodyStream limits sink deadline wanted).run conn)) ↔
      ¬Grammar.Overflows limits 0 input := by
  simp only [readChunkedBodyStream, run_bind, run_get]
  constructor
  · intro safe overflows
    rcases overflows.breaks sink deadline wanted with ⟨held, inside, breaks⟩
    have carries := Conn.primed_carries input held [input.drop held] (by simp)
    have size := Conn.size_primed [input.drop held] inside
    refine breaks _ _ carries.unread_eq size carries.accounted ?_ (safe _ carries)
    rw [Conn.backlog, size]
    omega
  · intro calm conn carries
    apply loop_safe (ChunkLoopSound limits)
    · intro _ _ sound
      exact sound.accounted.safeTrace sound.total_le
    · intro _ _ sound
      exact readChunkTurn_of_calm sink wanted sound
    · exact ⟨carries.accounted, Nat.zero_le _, carries.unread_eq ▸ calm⟩

theorem Accounted.handOver (sink : BodySink) (blank : Accounted 0 conn.trace) :
    Accounted conn.buffer.size (conn.handOver sink).trace := by
  simp only [Conn.handOver]
  split
  · have delivered := blank.deliver sink none le_rfl (.inl rfl)
    rw [Conn.deliver, List.take_of_length_le (by simp)] at delivered
    simpa using delivered
  next empty =>
    rw [not_not.mp empty]
    exact blank

theorem readUntilCloseTurn_extends (limits : Limits) (sink : BodySink) (deadline : Deadline)
    (total : ℕ) (conn : Conn) :
    conn.Extends (endState ((readUntilCloseTurn limits sink deadline total).run conn)) := by
  rcases recvSome_any conn 4096 deadline with
    ⟨data, later, received, -, -⟩ | ⟨_, _, failed, same⟩
  · rw [readUntilCloseTurn_run_ok sink deadline received]
    split
    · exact .refl conn
    · split
      · exact .refl conn
      · exact List.prefix_append conn.trace _
  · rw [readUntilCloseTurn_run_error sink deadline failed]
    exact (Conn.Quiet.of_eq same).extends

/-- The input is long enough for the running total to wrap around, and the limit so large
that the total comes within one piece of it. -/
def Grammar.Exceeds (limits : Limits) (input : Bytes) : Prop :=
  2 ^ 64 ≤ input.length ∧ 2 ^ 64 ≤ limits.maxBodyBytes + 4096

/-- The state of the loop while all is well. -/
structure UntilCloseSound (limits : Limits) (input : Bytes) (total : ℕ) (conn : Conn) : Prop where
  accounted : Accounted total conn.trace
  total_le : total ≤ limits.maxBodyBytes
  rest_le : total + conn.incoming ≤ input.length

theorem readUntilCloseTurn_of_calm {input : Bytes} (sink : BodySink) (deadline : Deadline)
    (calm : ¬Grammar.Exceeds limits input) (sound : UntilCloseSound limits input total conn) :
    Turn.Meets (UntilCloseSound limits input) (EndsSafely limits)
      ((readUntilCloseTurn limits sink deadline total).run conn) := by
  rcases sound with ⟨accounted, within, rest_le⟩
  rcases recvSome_any conn 4096 deadline with
    ⟨data, _, received, small, moved⟩ | ⟨_, _, failed, same⟩
  · rw [readUntilCloseTurn_run_ok sink deadline received]
    split
    · exact accounted.safeTrace within
    · split
      · exact accounted.safeTrace within
      next fits =>
        have rest := congrArg List.length moved
        rw [List.length_append] at rest
        rw [Conn.incoming] at rest_le
        have sum : sizeAdd total data.length = total + data.length := by
          apply sizeAdd_of_lt
          by_contra wraps
          exact calm ⟨by omega, by omega⟩
        rw [sum] at fits ⊢
        have fine : (BodyEvent.delivered none data).Exact := trivial
        refine ⟨accounted.append fine, Nat.le_of_not_lt fits, ?_⟩
        simp only [Conn.incoming, Conn.onChunk, Conn.withArrivals]
        omega
  · rw [readUntilCloseTurn_run_error sink deadline failed]
    exact (accounted.quiet (.of_eq same)).safeTrace within

/-- The sum that wraps to zero passes the check, with the trace above the limit. -/
theorem readUntilCloseTurn_of_wrapping {piece : Bytes} {later : List Arrival} (sink : BodySink)
    (deadline : Deadline) (accounted : Accounted total conn.trace)
    (isOpen : conn.stream.isOpen = true) (arrivals : conn.stream.arrivals = .data piece :: later)
    (some_ : piece ≠ []) (small : piece.length ≤ 4096) (sum : total + piece.length = 2 ^ 64) :
    ¬SafeTrace limits.maxBodyBytes
      (endState ((readUntilCloseTurn limits sink deadline total).run conn)).trace := by
  have received : (recvSome 4096 deadline).run conn = .ok piece (conn.withArrivals later) := by
    rw [recvSome_run isOpen, arrivals]
    simp [receive, some_, small, Conn.received]
  have wraps : sizeAdd total piece.length = 0 := by
    rw [sizeAdd, sum, Nat.mod_self]
  rw [readUntilCloseTurn_run_ok sink deadline received, if_neg some_, wraps,
    if_neg (Nat.not_lt_zero _)]
  intro safe
  have fine : (BodyEvent.delivered none piece).Exact := trivial
  have delivered : deliveredBytes (conn.trace ++ [.delivered none piece]) = 2 ^ 64 :=
    (accounted.append fine).total_eq.trans sum
  have within : deliveredBytes (conn.trace ++ [.delivered none piece]) ≤ limits.maxBodyBytes :=
    safe.total_le
  have limit := limits.maxBodyBytes_lt
  omega

/-- As much as the limit allows is in the buffer, and the next piece brings the total to
`2 ^ 64`. -/
theorem readUntilCloseBodyStream_breaks {input : Bytes} (sink : BodySink) (deadline : Deadline)
    (exceeds : Grammar.Exceeds limits input) :
    ∃ conn : Conn, conn.Carries input ∧
      ¬EndsSafely limits ((readUntilCloseBodyStream limits sink deadline).run conn) := by
  have limit := limits.maxBodyBytes_lt
  rcases exceeds with ⟨long, large⟩
  generalize front : (input.drop limits.maxBodyBytes).take (2 ^ 64 - limits.maxBodyBytes) = piece
  generalize back : (input.drop limits.maxBodyBytes).drop (2 ^ 64 - limits.maxBodyBytes) = rest
  have length : piece.length = 2 ^ 64 - limits.maxBodyBytes := by
    rw [← front, List.length_take, List.length_drop]
    omega
  have carries := Conn.primed_carries input limits.maxBodyBytes [piece, rest]
    (by simp [← front, ← back])
  have size := Conn.size_primed [piece, rest] (by omega : limits.maxBodyBytes ≤ input.length)
  have handed := carries.accounted.handOver sink
  have stream := Conn.stream_handOver (Conn.primed input limits.maxBodyBytes [piece, rest]) sink
  refine ⟨_, carries, ?_⟩
  rw [readUntilCloseBodyStream_run sink deadline size.le]
  rw [size] at handed ⊢
  intro safe
  apply readUntilCloseTurn_of_wrapping sink deadline handed (by rw [stream]; rfl)
    (by rw [stream]; rfl) (List.ne_nil_of_length_pos (by omega)) (by omega) (by omega)
  exact safe.of_extends (endState_loop_of_turn Conn.Extends Conn.Extends.refl
    Conn.Extends.trans (readUntilCloseTurn_extends limits sink deadline) .exhausted _ _ _)

/-- The limit holds for every arrival of `input` unless the sum can wrap around below it. -/
theorem safeTrace_readUntilCloseBodyStream_iff (limits : Limits) (sink : BodySink)
    (deadline : Deadline) (input : Bytes) :
    (∀ conn : Conn, conn.Carries input →
        EndsSafely limits ((readUntilCloseBodyStream limits sink deadline).run conn)) ↔
      ¬Grammar.Exceeds limits input := by
  constructor
  · intro safe exceeds
    rcases readUntilCloseBodyStream_breaks sink deadline exceeds with ⟨conn, carries, broken⟩
    exact broken (safe conn carries)
  · intro calm conn carries
    by_cases within : conn.buffer.size ≤ limits.maxBodyBytes
    · rw [readUntilCloseBodyStream_run sink deadline within]
      apply loop_safe (UntilCloseSound limits input)
      · intro _ _ sound
        exact sound.accounted.safeTrace sound.total_le
      · intro _ _ sound
        exact readUntilCloseTurn_of_calm sink deadline calm sound
      · refine ⟨carries.accounted.handOver sink, within, ?_⟩
        rw [Conn.handOver_incoming, ← carries.unread_eq, Conn.unread, List.length_append,
          BufferCursor.length_view, Conn.incoming]
    · simp only [readUntilCloseBodyStream, run_bind, run_get, if_pos (Nat.lt_of_not_le within)]
      exact carries.accounted.safeTrace (Nat.zero_le _)

def twoByteLimits : Limits := { maxBodyBytes := 2 }

def bodyDeadline : Deadline := ⟨none, 408, "request body read timeout"⟩

/-- Two bytes of body, as many as allowed, and then a chunk of `2 ^ 64 - 2`. -/
def wrappingChunk : Conn :=
  { stream := { arrivals := [.data (ascii "2\r\nab\r\nfffffffffffffffe\r\nxyz")] } }

end Corouv.Http
