import Corouv.Http.Grammar

/-!
# The readers compute the grammar

`Conn.Holds` says what a connection still has to offer: the bytes in its buffer
followed by those the network will deliver, and whether the stream ends after
them.  Each reader, run on a connection that holds some input, returns exactly
what the corresponding function of `Corouv.Http.Grammar` reads from that input
and leaves a connection that holds the rest.  How the network cuts the input into
pieces does not enter.

Acceptance needs no bound on sizes.  For rejection the stream must have ended, so
that the reader does not wait, and the buffer must not be fuller than a line may
be long; both are so wherever a `Connection` calls these readers.
-/

namespace Corouv.Http

open Library Io
open EStateM (run_bind run_get run_pure run_modify)

/-- The connection is open and its buffer and its clean stream together contain
`unread`; `ended` tells whether the stream ends there. -/
structure Conn.Holds (conn : Conn) (unread : Bytes) (ended : Bool) : Prop where
  isOpen : conn.stream.isOpen = true
  clean : ∃ data, contents conn.stream.arrivals = some (data, ended) ∧
    conn.buffer.view ++ data = unread

/-- Number of bytes the network has yet to deliver. -/
def Conn.incoming (conn : Conn) : ℕ :=
  (allData conn.stream.arrivals).length

/-- The network has nothing but single bytes in store. -/
def Conn.Trickles (conn : Conn) : Prop :=
  ∀ piece, .data piece ∈ conn.stream.arrivals → piece.length ≤ 1

/-- The effect of a reader: `unread` is left, the sink has been filled to `body`,
and nothing was written. -/
structure Conn.After (before after : Conn) (unread : Bytes) (ended : Bool) (body : Bytes) :
    Prop where
  holds : after.Holds unread ended
  body_eq : after.body = body
  departures_eq : after.stream.departures = before.stream.departures
  written_eq : after.stream.written = before.stream.written
  prefetched_eq : after.prefetchedResponse = before.prefetchedResponse
  incoming_le : after.incoming ≤ before.incoming
  trickles : before.Trickles → after.Trickles

/-- The effect on the buffer of a reader that takes `length` bytes: no more than these are taken
out of it, and if the network delivers single bytes, none are left behind them that were not
there before. -/
structure Conn.Takes (before after : Conn) (length maxBuffered : ℕ) : Prop where
  size_le : after.buffer.size ≤ max before.buffer.size maxBuffered
  least : before.buffer.size - length ≤ after.buffer.size
  most : before.Trickles → after.buffer.size ≤ before.buffer.size - length

/-- The reader returns `value` in a state as described. -/
def Returns {α : Type} (result : EStateM.Result Exn Conn α) (value : α) (meets : Conn → Prop) :
    Prop :=
  ∃ conn', result = .ok value conn' ∧ meets conn'

/-- The reader throws an `http::Error`. -/
def Refuses {α : Type} (result : EStateM.Result Exn Conn α) : Prop :=
  ∃ error conn', result = .error error conn' ∧ error.isHttpError = true

variable {conn conn' : Conn} {unread : Bytes} {ended : Bool} {tooLarge : Exn}
  {maxBuffered maxRead position maxLine : ℕ} {deadline : Deadline}

theorem Refuses.bind {α β : Type} {task : EStateM Exn Conn α} (refuses : Refuses (task.run conn))
    (next : α → EStateM Exn Conn β) : Refuses ((task >>= next).run conn) := by
  rcases refuses with ⟨error, conn', ran, http⟩
  exact ⟨error, conn', by rw [run_bind, ran], http⟩

/-- A reader returns what is expected of it, and refuses where nothing is and that is certain. -/
structure ReadSpec {α β : Type} (expected : Option β) (certain : Prop)
    (returned : β → EStateM.Result Exn Conn α → Prop) (result : EStateM.Result Exn Conn α) :
    Prop where
  accepts : ∀ {read}, expected = some read → returned read result
  rejects : expected = none → certain → Refuses result

namespace ReadSpec

variable {α β α' β' : Type} {certain certain' : Prop}
  {returned : β → EStateM.Result Exn Conn α → Prop} {result : EStateM.Result Exn Conn α}
  {returned' : β' → EStateM.Result Exn Conn α' → Prop}

theorem of_some {read : β} (returns : returned read result) :
    ReadSpec (some read) certain returned result := by
  refine ⟨?_, by simp⟩
  rintro _ ⟨⟩
  exact returns

theorem of_none (refuses : certain → Refuses result) : ReadSpec none certain returned result :=
  ⟨by simp, fun _ => refuses⟩

theorem of_settled {expected : Option β}
    (spec : expected.isSome ∨ certain → ReadSpec expected certain returned result) :
    ReadSpec expected certain returned result := by
  constructor
  · intro _ read
    exact (spec (.inl (by simp [read]))).accepts read
  · intro rejected final
    exact (spec (.inr final)).rejects rejected final

theorem map {expected : Option β} {task : EStateM Exn Conn α} {next : α → EStateM Exn Conn α'}
    {f : β → β'} (spec : ReadSpec expected certain returned (task.run conn))
    (certainly : certain' → certain)
    (follow : ∀ read, returned read (task.run conn) →
      returned' (f read) ((task >>= next).run conn)) :
    ReadSpec (expected.map f) certain' returned' ((task >>= next).run conn) := by
  constructor
  · intro _ read
    rcases Option.map_eq_some_iff.mp read with ⟨_, found, rfl⟩
    exact follow _ (spec.accepts found)
  · intro rejected final
    exact (spec.rejects (Option.map_eq_none_iff.mp rejected) (certainly final)).bind _

end ReadSpec

theorem Conn.Holds.after (holds : conn.Holds unread ended) :
    conn.After conn unread ended conn.body :=
  ⟨holds, rfl, rfl, rfl, rfl, le_rfl, id⟩

theorem Conn.After.trans {first second third : Conn} {unread' : Bytes} {ended' : Bool}
    {body body' : Bytes} (one : first.After second unread ended body)
    (two : second.After third unread' ended' body') : first.After third unread' ended' body' :=
  ⟨two.holds, two.body_eq, two.departures_eq.trans one.departures_eq,
    two.written_eq.trans one.written_eq, two.prefetched_eq.trans one.prefetched_eq,
    two.incoming_le.trans one.incoming_le, fun trickles => two.trickles (one.trickles trickles)⟩

theorem Conn.Holds.view_append (holds : conn.Holds unread ended) :
    ∃ data, unread = conn.buffer.view ++ data := by
  rcases holds.clean with ⟨data, -, joined⟩
  exact ⟨data, joined.symm⟩

theorem Conn.Holds.view_eq_take (holds : conn.Holds unread ended) :
    conn.buffer.view = unread.take conn.buffer.size := by
  rcases holds.view_append with ⟨_, rfl⟩
  rw [← BufferCursor.length_view, List.take_left]

theorem Conn.Holds.size_le (holds : conn.Holds unread ended) :
    conn.buffer.size ≤ unread.length := by
  rcases holds.view_append with ⟨_, rfl⟩
  simp

theorem Conn.length_of_view_eq (whole : conn.buffer.view = unread) :
    unread.length = conn.buffer.size := by
  rw [← whole, BufferCursor.length_view]

theorem Conn.Holds.consume {length : ℕ} (holds : conn.Holds unread ended)
    (held : length ≤ conn.buffer.size) :
    conn.After (conn.consume length) (unread.drop length) ended conn.body := by
  rcases holds with ⟨isOpen, data, clean, rfl⟩
  refine ⟨⟨isOpen, data, clean, ?_⟩, rfl, rfl, rfl, rfl, le_rfl, id⟩
  rw [Conn.consume, BufferCursor.view_consume held,
    List.drop_append_of_le_length (by simpa using held)]

theorem Conn.Holds.onChunk (sink : BodySink) (announced : Option ℕ) (chunk : Bytes)
    (holds : conn.Holds unread ended) :
    conn.After (conn.onChunk sink announced chunk) unread ended (sink.absorb conn.body chunk) :=
  ⟨⟨holds.isOpen, holds.clean⟩, rfl, rfl, rfl, rfl, le_rfl, id⟩

theorem recvSome_run (isOpen : conn.stream.isOpen = true) (capacity : ℕ) (deadline : Deadline) :
    (recvSome capacity deadline).run conn =
      conn.received deadline (receive capacity deadline.duration.isSome conn.stream.arrivals) := by
  simp only [recvSome, EStateM.run, if_pos isOpen]

theorem readMore_run_nil (room : 0 < maxRead)
    (received : (recvSome (min maxRead 4096) deadline).run conn = .ok [] conn') :
    (readMore maxBuffered tooLarge maxRead deadline).run conn = .ok 0 conn' := by
  simp only [readMore, if_neg room.ne', run_bind, received, if_true, run_pure]

theorem readMore_run_error {error : Exn} (room : 0 < maxRead)
    (received : (recvSome (min maxRead 4096) deadline).run conn = .error error conn') :
    (readMore maxBuffered tooLarge maxRead deadline).run conn = .error error conn' := by
  simp only [readMore, if_neg room.ne', run_bind, received]

theorem readMore_run_data {data : Bytes} (room : 0 < maxRead) (nonempty : data ≠ [])
    (received : (recvSome (min maxRead 4096) deadline).run conn = .ok data conn') :
    (readMore maxBuffered tooLarge maxRead deadline).run conn =
      if conn'.buffer.size + data.length > maxBuffered then .error tooLarge conn'
      else .ok data.length (conn'.append data) := by
  simp only [readMore, if_neg room.ne', run_bind, received, if_neg nonempty, run_get]
  split
  · rfl
  · rfl

theorem receive_trickles (capacity : ℕ) (timed : Bool) {arrivals : List Arrival}
    (single : ∀ piece, .data piece ∈ arrivals → piece.length ≤ 1) :
    (receive capacity timed arrivals).1.data.length ≤ 1 ∧
      ∀ piece, .data piece ∈ (receive capacity timed arrivals).2 → piece.length ≤ 1 := by
  induction arrivals with
  | nil => exact ⟨Nat.zero_le 1, single⟩
  | cons arrival later ih =>
      have rest : ∀ piece, .data piece ∈ later → piece.length ≤ 1 := by
        intro piece member
        exact single piece (List.mem_cons_of_mem _ member)
      cases arrival with
      | stall =>
          cases timed with
          | true =>
              refine ⟨Nat.zero_le 1, fun piece member => rest piece ?_⟩
              exact (List.mem_cons.mp member).resolve_left (by simp)
          | false => exact ih rest
      | eof | failure message | abandoned room => exact ⟨Nat.zero_le 1, single⟩
      | data piece =>
          have small := single piece List.mem_cons_self
          simp only [receive]
          split
          · exact ih rest
          · split
            · exact ⟨small, rest⟩
            · constructor
              · simp only [Received.data, List.length_take]
                omega
              · intro other member
                rcases List.mem_cons.mp member with same | older
                · cases same
                  simp only [List.length_drop]
                  omega
                · exact rest other older

/-- One read within the cap: the stream has nothing more and stays open, it has
ended, or some of the input moves into the buffer. -/
theorem readMore_of_holds (tooLarge : Exn) (deadline : Deadline) (holds : conn.Holds unread ended)
    (room : 0 < maxRead) (capped : conn.buffer.size + maxRead ≤ maxBuffered) :
    (conn.buffer.view = unread ∧ ended = false ∧
        (readMore maxBuffered tooLarge maxRead deadline).run conn = .error .suspended conn) ∨
      (conn.buffer.view = unread ∧ ended = true ∧ ∃ conn', conn'.buffer = conn.buffer ∧
        (readMore maxBuffered tooLarge maxRead deadline).run conn = .ok 0 conn') ∨
      ∃ count conn', count ≠ 0 ∧ count ≤ maxRead ∧
        (readMore maxBuffered tooLarge maxRead deadline).run conn = .ok count conn' ∧
        conn.After conn' unread ended conn.body ∧
        conn'.buffer.size = conn.buffer.size + count ∧ conn'.incoming + count = conn.incoming ∧
        (conn.Trickles → count ≤ 1) := by
  rcases holds with ⟨isOpen, data, clean, rfl⟩
  rcases receive_of_contents deadline.duration.isSome clean (by omega : 0 < min maxRead 4096) with
    ⟨rfl, rfl, waits⟩ | ⟨rfl, rfl, later, ends, -⟩ | ⟨count, later, _, _, inside,
      arrives, laterClean⟩
  · left
    refine ⟨by simp, rfl, ?_⟩
    apply readMore_run_error room
    rw [recvSome_run isOpen]
    generalize receive (min maxRead 4096) deadline.duration.isSome conn.stream.arrivals = result
      at waits
    rcases result with ⟨outcome, _⟩
    simp only at waits
    subst outcome
    rfl
  · right
    left
    refine ⟨by simp, rfl, conn.withArrivals later, rfl, ?_⟩
    apply readMore_run_nil room
    rw [recvSome_run isOpen, ends]
    rfl
  · right
    right
    have taken : data.take count ≠ [] := by
      rw [← List.length_pos_iff, List.length_take]
      omega
    have received : (recvSome (min maxRead 4096) deadline).run conn =
        .ok (data.take count) (conn.withArrivals later) := by
      rw [recvSome_run isOpen, arrives]
      rfl
    have drained : ((conn.withArrivals later).append (data.take count)).incoming + count =
        conn.incoming := by
      have moved := (receive_bytes arrives).2
      simp only [Conn.incoming, Conn.append, Conn.withArrivals, moved, List.length_append,
        List.length_take]
      omega
    have single : conn.Trickles → count ≤ 1 ∧
        ((conn.withArrivals later).append (data.take count)).Trickles := by
      intro trickles
      have pieces := receive_trickles (min maxRead 4096) deadline.duration.isSome trickles
      simp only [arrives, Received.data, List.length_take, Nat.min_eq_left inside] at pieces
      exact pieces
    refine ⟨count, (conn.withArrivals later).append (data.take count), by omega, by omega, ?_, ?_,
      ?_, drained, fun trickles => (single trickles).1⟩
    · rw [readMore_run_data room taken received, if_neg, List.length_take, Nat.min_eq_left inside]
      simp only [Conn.withArrivals, List.length_take]
      omega
    · refine ⟨⟨isOpen, data.drop count, laterClean, ?_⟩, rfl, rfl, rfl, rfl, by omega,
        fun trickles => (single trickles).2⟩
      simp [Conn.append, Conn.withArrivals]
    · simp [Conn.append, Conn.withArrivals, Nat.min_eq_left inside]

theorem Conn.incoming_lt_fuel (conn : Conn) : conn.incoming < conn.backlog + 1 := by
  simp only [Conn.incoming, Conn.backlog]
  omega

structure EnsureBufferSpec (conn : Conn) (unread : Bytes) (ended : Bool) (wanted : ℕ)
    (result : EStateM.Result Exn Conn Unit) : Prop where
  accepts : wanted ≤ unread.length → Returns result () fun conn' =>
    conn.After conn' unread ended conn.body ∧ conn'.buffer.size = max conn.buffer.size wanted
  rejects : unread.length < wanted → ended = true → Refuses result

/-- `ensure_buffer` fills the buffer if enough is to come and throws if not. -/
theorem ensureBuffer_of_holds {wanted : ℕ} (tooLarge : Exn) (eofMessage : String)
    (deadline : Deadline) (holds : conn.Holds unread ended) (capped : wanted ≤ maxBuffered) :
    EnsureBufferSpec conn unread ended wanted
      ((ensureBuffer wanted maxBuffered tooLarge eofMessage deadline).run conn) := by
  simp only [ensureBuffer, run_bind, run_get]
  apply loop_total (fun _ state => conn.After state unread ended conn.body ∧
      conn.buffer.size ≤ state.buffer.size ∧ state.buffer.size ≤ max conn.buffer.size wanted)
    (fun _ state => state.incoming)
  · rintro _ state ⟨after, _, _⟩
    by_cases short : state.buffer.size < wanted
    · simp only [ensureBufferTurn, run_bind, run_get, if_pos short]
      rcases readMore_of_holds tooLarge deadline after.holds
          (by omega : 0 < wanted - state.buffer.size)
          (by omega : state.buffer.size + (wanted - state.buffer.size) ≤ maxBuffered) with
        ⟨whole, stays, waits⟩ | ⟨whole, closed, _, -, ends⟩ |
          ⟨_, _, nonzero, _, reads, after', _, _⟩
      · rw [waits]
        have length := Conn.length_of_view_eq whole
        constructor
        · intro _
          omega
        · intro _ closed
          exact absurd (stays.symm.trans closed) (by simp)
      · rw [ends]
        have length := Conn.length_of_view_eq whole
        constructor
        · intro _
          omega
        · intro _ _
          exact ⟨_, _, rfl, rfl⟩
      · rw [reads]
        simp only [if_neg nonzero, run_pure, Turn.Meets]
        refine ⟨⟨after.trans (after.body_eq ▸ after'), ?_, ?_⟩, ?_⟩
        · omega
        · omega
        · omega
    · simp only [ensureBufferTurn, run_bind, run_get, if_neg short, run_pure, Turn.Meets]
      have inside := after.holds.size_le
      constructor
      · intro _
        exact ⟨state, rfl, after, by omega⟩
      · intro _ _
        omega
  · exact ⟨holds.after, le_rfl, le_max_left _ _⟩
  · exact conn.incoming_lt_fuel

theorem ensureBuffer_run_enough {wanted : ℕ} (maxBuffered : ℕ) (tooLarge : Exn)
    (eofMessage : String) (deadline : Deadline) (enough : wanted ≤ conn.buffer.size) :
    (ensureBuffer wanted maxBuffered tooLarge eofMessage deadline).run conn = .ok () conn := by
  simp only [ensureBuffer, run_bind, run_get]
  apply loop_run_done
  simp only [ensureBufferTurn, run_bind, run_get, if_neg (Nat.not_lt_of_le enough), run_pure]

abbrev LineSpec (conn : Conn) (unread : Bytes) (ended : Bool) (maxLine : ℕ) (tooLarge : Exn) :
    EStateM.Result Exn Conn Bytes → Prop :=
  ReadSpec (Grammar.line maxLine unread)
    (ended = true ∧ conn.buffer.size ≤ maxLine ∧ tooLarge.isHttpError = true)
    fun read result => Returns result read.1 fun conn' =>
      conn.After conn' read.2 ended conn.body ∧
        conn.Takes conn' (unread.length - read.2.length) maxLine

/-- The line loop: while there is no terminator in the buffer, only the byte read last has not
been searched. -/
structure LineProgress (conn : Conn) (unread : Bytes) (ended : Bool) (maxLine : ℕ) (state : Conn) :
    Prop where
  after : conn.After state unread ended conn.body
  grown : conn.buffer.size ≤ state.buffer.size
  bounded : state.buffer.size ≤ max conn.buffer.size maxLine
  lazily : conn.Trickles → state.buffer.size ≤ conn.buffer.size ∨
    find crlf (unread.take (state.buffer.size - 1)) = none

theorem Conn.Holds.find_eq (holds : conn.Holds unread ended) :
    find crlf conn.buffer.view = some position ↔
      find crlf unread = some position ∧ position + 2 ≤ conn.buffer.size := by
  rw [holds.view_eq_take]
  exact find_take_eq_some_iff (by simp [crlf])

theorem readLineCrlfTurn_run_found {eofMessage : String}
    (found : find crlf conn.buffer.view = some position) :
    (readLineCrlfTurn maxLine tooLarge eofMessage deadline ()).run conn =
      .ok (.done (conn.buffer.view.take position)) (conn.consume (position + 2)) := by
  simp only [readLineCrlfTurn, run_bind, run_get, found, run_modify, run_pure]

theorem readLineCrlf_run_found {eofMessage : String}
    (found : find crlf conn.buffer.view = some position) :
    (readLineCrlf maxLine tooLarge eofMessage deadline).run conn =
      .ok (conn.buffer.view.take position) (conn.consume (position + 2)) := by
  simp only [readLineCrlf, run_bind, run_get]
  exact loop_run_done _ (readLineCrlfTurn_run_found found)

theorem LineProgress.found {state : Conn}
    (progress : LineProgress conn unread ended maxLine state)
    (found : find crlf state.buffer.view = some position) :
    LineSpec conn unread ended maxLine tooLarge
      (.ok (state.buffer.view.take position) (state.consume (position + 2))) := by
  rcases progress with ⟨after, _, _, lazily⟩
  rcases after.holds.find_eq.mp found with ⟨whole, inside⟩
  constructor
  · rintro ⟨_, _⟩ read
    rcases Grammar.line_eq_some read with ⟨position', whole', -, _, rfl, rfl⟩
    have same : position' = position := Option.some.inj (whole'.symm.trans whole)
    subst position'
    have consumed := after.holds.consume inside
    have left : (state.consume (position + 2)).buffer.size = state.buffer.size - (position + 2) :=
      BufferCursor.size_consume inside
    refine ⟨_, ?_, after.trans (after.body_eq ▸ consumed), ?_⟩
    · rw [after.holds.view_eq_take, List.take_take, Nat.min_eq_left (by omega)]
    · rw [List.length_drop]
      refine ⟨by omega, by omega, fun trickles => ?_⟩
      rcases lazily trickles with _ | unseen
      · omega
      · have late : ¬position + 2 ≤ state.buffer.size - 1 := by
          intro early
          rw [(find_take_eq_some_iff (by simp [crlf])).mpr ⟨whole, early⟩] at unseen
          cases unseen
        omega
  · rintro rejected ⟨-, _, -⟩
    have within : find crlf (unread.take maxLine) = some position := by
      apply (find_take_eq_some_iff (by simp [crlf])).mpr
      simp only [crlf, List.length_cons, List.length_nil]
      exact ⟨whole, by omega⟩
    simp [Grammar.line, within] at rejected

theorem Conn.Holds.line_beyond {line : Bytes × Bytes} (holds : conn.Holds unread ended)
    (missing : find crlf conn.buffer.view = none)
    (read : Grammar.line maxLine unread = some line) :
    conn.buffer.size < maxLine ∧ conn.buffer.view ≠ unread := by
  rcases Grammar.line_eq_some read with ⟨position, whole, _, _, -, -⟩
  have unseen : ¬position + 2 ≤ conn.buffer.size := by
    intro visible
    have shown := holds.find_eq.mpr ⟨whole, visible⟩
    simp [missing] at shown
  constructor
  · omega
  · intro same
    simp [same, whole] at missing

/-- `read_line_crlf` returns the first line of what is unread. -/
theorem readLineCrlf_of_holds (maxLine : ℕ) (tooLarge : Exn) (eofMessage : String)
    (deadline : Deadline) (holds : conn.Holds unread ended) :
    LineSpec conn unread ended maxLine tooLarge
      ((readLineCrlf maxLine tooLarge eofMessage deadline).run conn) := by
  simp only [readLineCrlf, run_bind, run_get]
  apply loop_total (fun _ => LineProgress conn unread ended maxLine)
    (fun _ state => state.incoming)
  · intro _ state progress
    cases found : find crlf state.buffer.view with
    | some _ =>
        rw [readLineCrlfTurn_run_found found]
        exact progress.found found
    | none =>
        rcases progress with ⟨after, _, _, _⟩
        have beyond : ∀ read, Grammar.line maxLine unread = some read →
            state.buffer.size < maxLine ∧ state.buffer.view ≠ unread :=
          fun _ => after.holds.line_beyond found
        simp only [readLineCrlfTurn, run_bind, run_get, found]
        by_cases full : state.buffer.size ≥ maxLine
        · simp only [if_pos full]
          constructor
          · intro _ read
            have := (beyond _ read).1
            omega
          · intro _ certain
            exact ⟨_, _, rfl, certain.2.2⟩
        · simp only [if_neg full, run_bind]
          rcases readMore_of_holds tooLarge deadline after.holds
              (by omega : 0 < maxLine - state.buffer.size)
              (by omega : state.buffer.size + (maxLine - state.buffer.size) ≤ maxLine) with
            ⟨whole, stays, waits⟩ | ⟨whole, closed, _, -, ends⟩ |
              ⟨_, state', nonzero, _, reads, after', _, _, single⟩
          · rw [waits]
            constructor
            · intro _ read
              exact absurd whole (beyond _ read).2
            · intro _ certain
              exact absurd (stays.symm.trans certain.1) (by simp)
          · rw [ends]
            constructor
            · intro _ read
              exact absurd whole (beyond _ read).2
            · intro _ _
              exact ⟨_, _, rfl, rfl⟩
          · rw [reads]
            simp only [if_neg nonzero, run_pure, Turn.Meets]
            refine ⟨⟨after.trans (after.body_eq ▸ after'), by omega, by omega, ?_⟩, by omega⟩
            intro trickles
            have one := single (after.trickles trickles)
            have searched : state'.buffer.size - 1 = state.buffer.size := by omega
            rw [searched, ← after.holds.view_eq_take]
            exact .inr found
  · exact ⟨holds.after, le_rfl, le_max_left _ _, fun _ => .inl le_rfl⟩
  · exact conn.incoming_lt_fuel

end Corouv.Http
