import Corouv.Http.ReaderCorrect

/-!
# What the readers may do on any stream

Facts that hold whatever the network does: data may stop coming, the peer may go
silent or fail, and the buffer may hold anything to begin with.  Reading only adds
to the buffer, and only lines are consumed, each within what the buffer holds.
-/

namespace Corouv.Http

open Library Io
open EStateM (run_bind run_get run_pure)

/-- Everything that may yet be read: the buffer, and the data the network has in store,
whether or not it ever comes. -/
def Conn.unread (conn : Conn) : Bytes :=
  conn.buffer.view ++ allData conn.stream.arrivals

/-- The buffer has grown by `data` from the network, and nothing else was done. -/
structure Conn.Fetched (before after : Conn) (data : Bytes) : Prop where
  view_eq : after.buffer.view = before.buffer.view ++ data
  rest_eq : allData before.stream.arrivals = data ++ allData after.stream.arrivals
  trace_eq : after.trace = before.trace

/-- Only lines were consumed, each of them held by the buffer. -/
def Conn.Quiet (before after : Conn) : Prop :=
  ∃ events, after.trace = before.trace ++ events ∧
    ∀ event ∈ events, ∃ length held, event = .consumed length held ∧ length ≤ held

theorem Conn.Fetched.refl (conn : Conn) : conn.Fetched conn [] :=
  ⟨by simp, by simp, rfl⟩

variable {before after : Conn} {data : Bytes}

theorem Conn.Fetched.trans {first second third : Conn} {data' : Bytes}
    (one : first.Fetched second data) (two : second.Fetched third data') :
    first.Fetched third (data ++ data') := by
  refine ⟨?_, ?_, two.trace_eq.trans one.trace_eq⟩
  · rw [two.view_eq, one.view_eq, List.append_assoc]
  · rw [one.rest_eq, two.rest_eq, List.append_assoc]

theorem Conn.Fetched.size_eq (fetched : before.Fetched after data) :
    after.buffer.size = before.buffer.size + data.length := by
  have length := congrArg List.length fetched.view_eq
  simpa using length

theorem Conn.Fetched.unread_eq (fetched : before.Fetched after data) :
    after.unread = before.unread := by
  rw [Conn.unread, Conn.unread, fetched.view_eq, fetched.rest_eq, List.append_assoc]

theorem Conn.unread_consume {conn : Conn} {length : ℕ} (held : length ≤ conn.buffer.size) :
    (conn.consume length).unread = conn.unread.drop length := by
  have shown : (conn.consume length).buffer.view = conn.buffer.view.drop length :=
    BufferCursor.view_consume held
  rw [Conn.unread, Conn.unread, shown, List.drop_append_of_le_length (by simpa using held)]
  rfl

theorem Conn.Quiet.of_eq (same : after.trace = before.trace) : before.Quiet after :=
  ⟨[], by simp [same], by simp⟩

theorem Conn.Quiet.trans {first second third : Conn} (one : first.Quiet second)
    (two : second.Quiet third) : first.Quiet third := by
  rcases one with ⟨early, early_eq, earlyMild⟩
  rcases two with ⟨late, late_eq, lateMild⟩
  refine ⟨early ++ late, ?_, ?_⟩
  · rw [late_eq, early_eq, List.append_assoc]
  · intro event mem
    rcases List.mem_append.mp mem with here | there
    · exact earlyMild event here
    · exact lateMild event there

theorem Conn.quiet_consume {conn : Conn} {length : ℕ} (held : length ≤ conn.buffer.size) :
    conn.Quiet (conn.consume length) := by
  refine ⟨[.consumed length conn.buffer.size], rfl, ?_⟩
  intro _ mem
  rw [List.mem_singleton.mp mem]
  exact ⟨length, conn.buffer.size, rfl, held⟩

theorem recvSome_run_closed {conn : Conn} (closed : conn.stream.isOpen = false) (capacity : ℕ)
    (deadline : Deadline) : (recvSome capacity deadline).run conn =
      .error (.logic "corouv::net::TcpStream is closed") conn := by
  simp [recvSome, EStateM.run, closed]

theorem recvSome_any (conn : Conn) (capacity : ℕ) (deadline : Deadline) :
    (∃ data later, (recvSome capacity deadline).run conn = .ok data (conn.withArrivals later) ∧
        data.length ≤ capacity ∧ allData conn.stream.arrivals = data ++ allData later) ∨
      ∃ error conn', (recvSome capacity deadline).run conn = .error error conn' ∧
        conn'.trace = conn.trace := by
  cases isOpen : conn.stream.isOpen with
  | false =>
      right
      exact ⟨_, conn, recvSome_run_closed isOpen capacity deadline, rfl⟩
  | true =>
      rw [recvSome_run isOpen]
      cases outcome : receive capacity deadline.duration.isSome conn.stream.arrivals with
      | mk received later =>
          cases received with
          | bytes data =>
              left
              exact ⟨data, later, rfl, receive_bytes outcome⟩
          | timeout | failure message | busy | waiting =>
              right
              exact ⟨_, _, rfl, rfl⟩

/-- What `read_more` can do on any connection, with no assumption on what is to come. -/
theorem readMore_any (conn : Conn) (maxBuffered : ℕ) (tooLarge : Exn) (maxRead : ℕ)
    (deadline : Deadline) :
    (∃ data conn', (readMore maxBuffered tooLarge maxRead deadline).run conn =
        .ok data.length conn' ∧ data.length ≤ maxRead ∧
        (data = [] ∨ conn'.buffer.size ≤ maxBuffered) ∧ conn.Fetched conn' data) ∨
      ∃ error conn', (readMore maxBuffered tooLarge maxRead deadline).run conn =
        .error error conn' ∧ conn'.trace = conn.trace := by
  by_cases room : maxRead = 0
  · left
    refine ⟨[], conn, ?_, Nat.zero_le _, .inl rfl, .refl conn⟩
    simp [readMore, room]
  · have room : 0 < maxRead := Nat.pos_of_ne_zero room
    rcases recvSome_any conn (min maxRead 4096) deadline with
      ⟨data, later, received, small, split⟩ | ⟨error, conn', failed, same⟩
    · by_cases empty : data = []
      · left
        subst data
        refine ⟨[], conn.withArrivals later, readMore_run_nil room received, Nat.zero_le _,
          .inl rfl, ?_⟩
        exact ⟨by simp [Conn.withArrivals], split, rfl⟩
      · rw [readMore_run_data room empty received]
        split
        · right
          exact ⟨_, _, rfl, rfl⟩
        next fits =>
          left
          refine ⟨data, _, rfl, by omega, .inr ?_, by simp [Conn.append, Conn.withArrivals],
            split, rfl⟩
          simpa [Conn.append] using fits
    · right
      exact ⟨error, conn', readMore_run_error room failed, same⟩

structure EnsureBufferSafe (conn : Conn) (wanted maxBuffered : ℕ)
    (result : EStateM.Result Exn Conn Unit) : Prop where
  trace_eq : (endState result).trace = conn.trace
  filled : ∀ conn', result = .ok () conn' → wanted ≤ conn'.buffer.size ∧
    conn'.buffer.size ≤ max conn.buffer.size (min wanted maxBuffered) ∧
    conn'.unread = conn.unread

theorem ensureBuffer_any (conn : Conn) (wanted maxBuffered : ℕ) (tooLarge : Exn)
    (eofMessage : String) (deadline : Deadline) :
    EnsureBufferSafe conn wanted maxBuffered
      ((ensureBuffer wanted maxBuffered tooLarge eofMessage deadline).run conn) := by
  simp only [ensureBuffer, run_bind, run_get]
  apply loop_safe (fun _ state => (∃ data, conn.Fetched state data) ∧
    state.buffer.size ≤ max conn.buffer.size (min wanted maxBuffered))
  · rintro _ state ⟨⟨_, fetched⟩, bounded⟩
    exact ⟨fetched.trace_eq, by simp⟩
  · rintro _ state ⟨⟨data, fetched⟩, bounded⟩
    by_cases short : state.buffer.size < wanted
    · simp only [ensureBufferTurn, run_bind, run_get, if_pos short]
      rcases readMore_any state maxBuffered tooLarge (wanted - state.buffer.size) deadline with
        ⟨more, _, ran, _, capped, fetched'⟩ | ⟨_, _, ran, same⟩
      · have chained := fetched.trans fetched'
        have grown := fetched'.size_eq
        rw [ran]
        by_cases none_ : more.length = 0
        · simp only [if_pos none_]
          exact ⟨chained.trace_eq, by simp⟩
        · simp only [if_neg none_, run_pure, Turn.Meets]
          rcases capped with rfl | _
          · exact absurd rfl none_
          · exact ⟨⟨_, chained⟩, by omega⟩
      · rw [ran]
        exact ⟨same.trans fetched.trace_eq, by simp⟩
    · simp only [ensureBufferTurn, run_bind, run_get, if_neg short, run_pure, Turn.Meets]
      refine ⟨fetched.trace_eq, ?_⟩
      intro conn' same
      simp only [EStateM.Result.ok.injEq, true_and] at same
      subst conn'
      exact ⟨by omega, bounded, fetched.unread_eq⟩
  · exact ⟨⟨[], .refl conn⟩, le_max_left _ _⟩

/-- A line that is read is the first of the unread bytes, and is taken from them. -/
structure LineSafe (conn : Conn) (result : EStateM.Result Exn Conn Bytes) : Prop where
  quiet : conn.Quiet (endState result)
  taken : ∀ line conn', result = .ok line conn' →
    Grammar.line conn.unread.length conn.unread = some (line, conn'.unread)

theorem Conn.line_unread {conn : Conn} {position : ℕ}
    (found : find crlf conn.buffer.view = some position) :
    position + 2 ≤ conn.buffer.size ∧ Grammar.line conn.unread.length conn.unread =
      some (conn.buffer.view.take position, conn.unread.drop (position + 2)) := by
  have held : position + 2 ≤ conn.buffer.view.length := find_add_length_le found
  have prefix_ : conn.unread.take conn.buffer.view.length = conn.buffer.view := List.take_left' rfl
  have whole : find crlf conn.unread = some position := by
    rw [← prefix_] at found
    exact ((find_take_eq_some_iff (by simp [crlf])).mp found).1
  refine ⟨by simpa using held, ?_⟩
  rw [Grammar.line, List.take_length, whole, Option.map_some, ← prefix_, List.take_take,
    Nat.min_eq_left (by omega)]

theorem readLineCrlf_any (conn : Conn) (maxLine : ℕ) (tooLarge : Exn) (eofMessage : String)
    (deadline : Deadline) :
    LineSafe conn ((readLineCrlf maxLine tooLarge eofMessage deadline).run conn) := by
  simp only [readLineCrlf, run_bind, run_get]
  apply loop_safe (fun _ state => ∃ data, conn.Fetched state data)
  · rintro _ state ⟨_, fetched⟩
    exact ⟨.of_eq fetched.trace_eq, by simp⟩
  · rintro _ state ⟨_, fetched⟩
    cases found : find crlf state.buffer.view with
    | some _ =>
        rcases Conn.line_unread found with ⟨held, line⟩
        rw [readLineCrlfTurn_run_found found]
        refine ⟨(Conn.Quiet.of_eq fetched.trace_eq).trans (Conn.quiet_consume held), ?_⟩
        intro _ _ same
        cases same
        rw [← fetched.unread_eq, Conn.unread_consume held]
        exact line
    | none =>
        simp only [readLineCrlfTurn, run_bind, run_get, found]
        by_cases full : state.buffer.size ≥ maxLine
        · simp only [if_pos full]
          exact ⟨.of_eq fetched.trace_eq, by simp⟩
        · simp only [if_neg full, run_bind]
          rcases readMore_any state maxLine tooLarge (maxLine - state.buffer.size) deadline with
            ⟨more, _, ran, -, -, fetched'⟩ | ⟨_, _, ran, same⟩
          · have chained := fetched.trans fetched'
            rw [ran]
            by_cases none_ : more.length = 0
            · simp only [if_pos none_]
              exact ⟨.of_eq chained.trace_eq, by simp⟩
            · simp only [if_neg none_, run_pure, Turn.Meets]
              exact ⟨_, chained⟩
          · rw [ran]
            exact ⟨.of_eq (same.trans fetched.trace_eq), by simp⟩
  · exact ⟨[], .refl conn⟩

structure ChunkSizeSafe (conn : Conn) (result : EStateM.Result Exn Conn ℕ) : Prop where
  quiet : conn.Quiet (endState result)
  taken : ∀ size conn', result = .ok size conn' →
    Grammar.sizeLine conn.unread = some (size, conn'.unread)

variable (conn : Conn) (limits : Limits) (deadline : Deadline)
include conn limits deadline

theorem readChunkSize_any : ChunkSizeSafe conn ((readChunkSize limits deadline).run conn) := by
  have lines := readLineCrlf_any conn limits.maxHeaderBytes (.http 431 "chunk header too large")
    "unexpected eof while reading chunk header" deadline
  simp only [readChunkSize, run_bind]
  cases read : (readLineCrlf limits.maxHeaderBytes (.http 431 "chunk header too large")
      "unexpected eof while reading chunk header" deadline).run conn with
  | error error conn' =>
      rw [read] at lines
      exact ⟨lines.quiet, by simp⟩
  | ok line conn' =>
      rw [read] at lines
      dsimp only
      cases announced : chunkSize line with
      | none => exact ⟨lines.quiet, by simp [run_throw_error]⟩
      | some size =>
          refine ⟨lines.quiet, ?_⟩
          intro _ _ same
          cases same
          rw [Grammar.sizeLine, lines.taken line conn' rfl, Option.bind_some, announced,
            Option.map_some]

theorem readTrailersTurn_any (wanted : Bool) (fields : Headers) :
    conn.Quiet (endState ((readTrailersTurn limits deadline wanted fields).run conn)) := by
  have quiet := (readLineCrlf_any conn limits.maxHeaderBytes
    (.http 431 "trailer headers too large") "unexpected eof while reading trailer headers"
    deadline).quiet
  simp only [readTrailersTurn, run_bind]
  cases read : (readLineCrlf limits.maxHeaderBytes (.http 431 "trailer headers too large")
      "unexpected eof while reading trailer headers" deadline).run conn with
  | error error conn' =>
      rw [read] at quiet
      exact quiet
  | ok line conn' =>
      rw [read] at quiet
      simp only
      split
      · exact quiet
      · split
        · split
          · exact quiet
          · split
            · exact quiet
            · exact quiet
        · exact quiet

theorem readTrailers_any (wanted : Bool) :
    conn.Quiet (endState ((readTrailers limits deadline wanted).run conn)) := by
  simp only [readTrailers, run_bind, run_get]
  apply loop_related Conn.Quiet fun _ => .of_eq rfl
  · intro _ _ _ one two
    exact one.trans two
  · intro fields state
    exact readTrailersTurn_any state limits deadline wanted fields

end Corouv.Http
