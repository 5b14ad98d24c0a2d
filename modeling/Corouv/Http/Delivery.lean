import Corouv.Http.WholeRequests

/-!
# What becomes of an outgoing request

How much of a request `write_request` sends is decided by the fates that the network has in
store for the writes and, where the body waits for `100 Continue`, by what the server answers
to the head: nothing, a part, or all of it.
-/

namespace Corouv.Http

open Library Io
open EStateM (run_bind)

/-- How many of the pieces there is a write for. -/
def writesOf (pieces : List Bytes) : ℕ :=
  pieces.countP (· ≠ [])

/-- The network lets the writes of the pieces go through. -/
def Conn.Conveys (deadline : Deadline) (pieces : List Bytes) (conn : Conn) : Prop :=
  ∀ fate ∈ conn.stream.departures.take (writesOf pieces), deadline.carries fate = true

/-- Nothing is written: the stream is closed, or the first write fails at once. -/
def Conn.Refuses (conn : Conn) : Prop :=
  conn.stream.isOpen = false ∨
    ∃ message later, conn.stream.departures = .failed 0 message :: later

/-- The answer comes without a pause or a failure, and no size in it is out of bounds. -/
structure Conn.Hears (client : Config) (answer : Bytes) (conn : Conn) : Prop where
  size_le : conn.buffer.size ≤ client.limits.maxHeaderBytes
  clean : ∃ data ended, contents conn.stream.arrivals = some (data, ended) ∧
    conn.buffer.view ++ data = answer
  sane : Sane client.limits (Grammar.unsizedInputs client.parser client.limits false answer)

/-- The first response in the answer is a `100 Continue`. -/
def Request.Invited (client : Config) (answer : Bytes) (request : Request) : Prop :=
  ∃ first content rest, Grammar.response client.parser client.limits request.method false answer =
    some (first, content, rest) ∧ first.status = 100

/-- All of the request is written: every write goes through, and a body that waits is asked
for. -/
structure Conn.Delivers (client : Config) (request : Request) (defaultHost answer : Bytes)
    (conn : Conn) : Prop where
  isOpen : conn.stream.isOpen = true
  carried : conn.Conveys client.requestWriteDeadline
    (RequestWriter.whole.head request defaultHost :: RequestWriter.whole.pieces request)
  invited : waitsForContinue request defaultHost = true → request.Invited client answer

section Pieces

variable {conn : Conn} {deadline : Deadline} {piece : Bytes} {later : List Bytes}

theorem Conn.conveys_cons (some : piece ≠ []) : conn.Conveys deadline (piece :: later) ↔
    (∀ fate ∈ conn.stream.departures.take 1, deadline.carries fate = true) ∧
      ∀ fate ∈ (conn.stream.departures.drop 1).take (writesOf later),
        deadline.carries fate = true := by
  have count : writesOf (piece :: later) = 1 + writesOf later := by
    simp [writesOf, some, Nat.add_comm]
  simp only [Conn.Conveys, count, List.take_add, List.mem_append, or_imp, forall_and]

/-- A write that failed was not to be carried. -/
theorem Sending.not_conveys {error : Exn} {conn' : Conn}
    (sending : Sending piece deadline conn (.error error conn'))
    (isOpen : conn.stream.isOpen = true) : ¬conn.Conveys deadline (piece :: later) := by
  intro carried
  cases sending with
  | late some _ fates timed =>
      have first := ((Conn.conveys_cons some).mp carried).1 .stalled (by simp [fates])
      simp [Deadline.carries, Option.isSome_iff_ne_none.mp timed] at first
  | @failed count message _ some _ fates =>
      cases ((Conn.conveys_cons some).mp carried).1 (.failed count message) (by simp [fates])
  | closed _ shut => cases isOpen.symm.trans shut

theorem Sending.longer {error : Exn} {conn' : Conn}
    (sending : Sending piece deadline conn (.error error conn')) :
    conn.stream.written <+: conn'.stream.written := by
  cases sending with
  | late | failed => exact List.prefix_append _ _
  | closed => exact List.prefix_rfl

theorem Sending.unwritten_iff {error : Exn} {conn' : Conn}
    (sending : Sending piece deadline conn (.error error conn')) :
    conn'.stream.written = conn.stream.written ↔ conn.Refuses := by
  cases sending with
  | late some isOpen fates _ => simp [Conn.Refuses, isOpen, fates, Conn.withWritten, some]
  | failed some isOpen fates => simp [Conn.Refuses, isOpen, fates, Conn.withWritten, some]
  | closed _ shut => exact iff_of_true rfl (.inl shut)

/-- The pieces are sent exactly if no departure in store for them fails. -/
theorem sendPieces_outcome (deadline : Deadline) (pieces : List Bytes)
    (isOpen : conn.stream.isOpen = true) :
    match (sendPieces deadline pieces).run conn with
    | .ok _ _ => conn.Conveys deadline pieces
    | .error _ conn' => ¬conn.Conveys deadline pieces ∧
        conn.stream.written <+: conn'.stream.written := by
  induction pieces generalizing conn with
  | nil => simp [sendPieces, Conn.Conveys, writesOf]
  | cons piece later ih =>
      rw [sendPieces, run_bind]
      have sending := sending_sendAll piece deadline conn
      cases begun : (sendAll piece deadline).run conn with
      | error _ _ =>
          rw [begun] at sending
          exact ⟨sending.not_conveys isOpen, sending.longer⟩
      | ok _ _ =>
          rw [begun] at sending
          cases sending with
          | nothing empty => simpa [Conn.Conveys, writesOf, empty] using ih isOpen
          | done some _ carried =>
              have further := @ih (conn.withWritten (conn.stream.departures.drop 1) piece) isOpen
              rw [Conn.conveys_cons some, and_iff_right carried]
              dsimp only
              split at further
              next ran =>
                rw [ran]
                exact further
              next ran =>
                rw [ran]
                exact ⟨further.1, (List.prefix_append _ _).trans further.2⟩

end Pieces

section Answer

variable {client : Config} {request : Request} {answer : Bytes} {conn : Conn}
  (stable : PrefixStable (client.parser.response client.limits.maxHeaderCount))
  (isOpen : conn.stream.isOpen = true) (hears : conn.Hears client answer)
include stable isOpen hears

/-- A `100` at the front of what is in store lets the writer go on. -/
theorem awaitContinue_of_invited (invited : request.Invited client answer)
    (departures : List Departure) (sent : Bytes) :
    ∃ conn', (awaitContinue client request.method).run (conn.withWritten departures sent) =
      .ok true conn' ∧ conn'.stream.isOpen = true := by
  rcases hears.clean with ⟨data, ended, clean, unread⟩
  rcases invited with ⟨first, content, rest, read, hundred⟩
  have ready : (conn.withWritten [] sent).Ready client.limits answer ended :=
    ⟨⟨isOpen, data, clean, unread⟩, ⟨isOpen, rfl⟩, hears.size_le⟩
  have message := Grammar.firstMessage stable request.method answer
  rw [read] at message
  cases message with
  | final final _ =>
      rw [hundred] at final
      cases final
  | interim _ _ _ =>
      rcases awaitContinue_of_message stable ready read (by simp) with ⟨_, -, left, ran⟩
      rw [if_pos hundred] at ran
      -- the fates of the writes mean nothing to the reader
      have follows := (unread_extend [] fun _ => departures).responseLogic.awaitContinue client
        request.method (conn.withWritten [] sent)
      rw [ran] at follows
      have same : (conn.withWritten [] sent).change (fun stream => { stream with
          arrivals := stream.arrivals ++ [], departures := departures }) =
            conn.withWritten departures sent := by
        simp [Conn.change, Conn.withWritten]
      rw [same] at follows
      exact ⟨_, follows, (left _ rfl).holds.isOpen⟩

/-- The writer goes on only after a `100` at the front of what was in store. -/
theorem invited_of_awaitContinue {departures : List Departure} {sent : Bytes} {conn' : Conn}
    (ran : (awaitContinue client request.method).run (conn.withWritten departures sent) =
      .ok true conn') : request.Invited client answer := by
  rcases hears.clean with ⟨data, ended, clean, unread⟩
  -- what was read is read also if the server closes the connection behind it
  have follows := (unread_extend [.eof] fun _ => []).responseLogic.awaitContinue client
    request.method (conn.withWritten departures sent)
  rw [ran] at follows
  have closing : contents (conn.stream.arrivals ++ [.eof]) = some (data, true) := by
    rw [contents_append _ clean]
    cases ended with
    | true | false => simp [contents]
  have ready : ((conn.withWritten departures sent).change fun stream => { stream with
      arrivals := stream.arrivals ++ [.eof], departures := [] }).Ready client.limits answer true :=
    ⟨⟨isOpen, data, closing, unread⟩, ⟨isOpen, rfl⟩, hears.size_le⟩
  rcases run_bind_eq_ok follows with ⟨first, after, collected, later⟩
  have spec := collectResponse_of_ready request.method false stable ready
  rw [collected] at spec
  cases read : Grammar.response client.parser client.limits request.method false answer with
  | none =>
      rcases spec.rejects read ⟨rfl, hears.sane⟩ with ⟨_, _, failed, -⟩
      cases failed
  | some message =>
      rcases message with ⟨received, content, rest⟩
      rcases spec.accepts read fun _ => rfl with ⟨_, same, -⟩
      cases same
      split at later
      · rcases run_bind_eq_ok later with ⟨_, _, -, same⟩
        cases same
      next hundred => exact ⟨received, content, rest, read, not_not.mp hundred⟩

end Answer

/-- What `write_request` comes to: an exception before anything is written or after it, all of
the request, or a head whose body is not asked for. -/
def Writing (client : Config) (request : Request) (defaultHost answer : Bytes) (conn : Conn) :
    EStateM.Result Exn Conn Unit → Prop
  | .error _ conn' => ¬conn.Delivers client request defaultHost answer ∧
      (conn'.stream.written = conn.stream.written ↔ conn.Refuses)
  | .ok _ conn' => ¬conn.Refuses ∧
      ((conn.Delivers client request defaultHost answer ∧
          conn'.stream.written = conn.stream.written ++ request.message defaultHost) ∨
        (¬conn.Delivers client request defaultHost answer ∧
          waitsForContinue request defaultHost = true ∧ conn'.stream.written =
            conn.stream.written ++ RequestWriter.whole.head request defaultHost))

theorem length_head_ge (request : Request) (defaultHost : Bytes) :
    3 ≤ (RequestWriter.whole.head request defaultHost).length := by
  simp only [RequestWriter.head, requestHeadBytes, List.length_append, crlf, List.length_cons,
    List.length_nil]
  omega

theorem head_ne_nil (request : Request) (defaultHost : Bytes) :
    RequestWriter.whole.head request defaultHost ≠ [] := by
  intro empty
  have long := length_head_ge request defaultHost
  rw [empty] at long
  cases long

section Writing

variable {client : Config} {request : Request} {defaultHost answer : Bytes} {conn : Conn}

section Begun

variable (isOpen : conn.stream.isOpen = true) (begun : ¬conn.Refuses)
  (carried : ∀ fate ∈ conn.stream.departures.take 1,
    client.requestWriteDeadline.carries fate = true)
include isOpen begun carried

omit isOpen carried in
/-- An exception behind the head leaves the head written. -/
theorem writing_broken {error : Exn} {conn' : Conn}
    (fails : ¬conn.Delivers client request defaultHost answer) (longer :
      conn.stream.written ++ RequestWriter.whole.head request defaultHost <+:
        conn'.stream.written) :
    Writing client request defaultHost answer conn (.error error conn') := by
  refine ⟨fails, iff_of_false ?_ begun⟩
  intro same
  have short := longer.length_le
  have long := length_head_ge request defaultHost
  rw [same, List.length_append] at short
  omega

theorem writing_finish {state : Conn}
    (invited : waitsForContinue request defaultHost = true → request.Invited client answer)
    (stays : state.stream.isOpen = true)
    (sent : state.Sent (conn.stream.written ++ RequestWriter.whole.head request defaultHost)
      (conn.stream.departures.drop 1)) :
    Writing client request defaultHost answer conn
      ((RequestWriter.whole.finish client request true).run state) := by
  have some := head_ne_nil request defaultHost
  have outcome := sendPieces_outcome client.requestWriteDeadline
    (RequestWriter.whole.pieces request) stays
  have rest : state.Conveys client.requestWriteDeadline (RequestWriter.whole.pieces request) ↔
      conn.Delivers client request defaultHost answer := by
    rw [Conn.Conveys, sent.departures_eq]
    constructor
    · intro through
      exact ⟨isOpen, (Conn.conveys_cons some).mpr ⟨carried, through⟩, invited⟩
    · intro delivers
      exact ((Conn.conveys_cons some).mp delivers.carried).2
  rw [rest] at outcome
  rw [RequestWriter.finish, if_pos rfl]
  split at outcome
  next conn' ran =>
    rw [ran]
    refine ⟨begun, .inl ⟨outcome, ?_⟩⟩
    rw [writes_sendPieces _ _ _ _ ran, sent.written_eq, RequestWriter.flatten_pieces,
      Request.message, List.append_assoc]
  next ran =>
    rw [ran]
    rw [sent.written_eq] at outcome
    exact writing_broken begun outcome.1 outcome.2

/-- The writer that waits: what it writes is decided by what the stream has in store. -/
theorem writing_awaited
    (stable : PrefixStable (client.parser.response client.limits.maxHeaderCount))
    (waits : waitsForContinue request defaultHost = true) (hears : conn.Hears client answer) :
    Writing client request defaultHost answer conn
      ((awaitContinue client request.method >>= RequestWriter.whole.finish client request).run
        (conn.withWritten (conn.stream.departures.drop 1)
          (RequestWriter.whole.head request defaultHost))) := by
  have asked := fun invited : request.Invited client answer => awaitContinue_of_invited stable
    isOpen hears invited (conn.stream.departures.drop 1)
    (RequestWriter.whole.head request defaultHost)
  have quiet := (responseLogic_preserves _ _).awaitContinue client request.method
    (conn.withWritten (conn.stream.departures.drop 1)
      (RequestWriter.whole.head request defaultHost)) ⟨rfl, rfl⟩
  rw [run_bind]
  cases answered : (awaitContinue client request.method).run (conn.withWritten
      (conn.stream.departures.drop 1) (RequestWriter.whole.head request defaultHost)) with
  | error _ _ =>
      rw [answered] at asked quiet
      apply writing_broken begun
      · intro delivers
        rcases asked (delivers.invited waits) with ⟨_, ran, -⟩
        cases ran
      · exact quiet.written_eq ▸ List.prefix_rfl
  | ok proceed _ =>
      rw [answered] at asked quiet
      cases proceed with
      | false =>
          refine ⟨begun, .inr ⟨?_, waits, quiet.written_eq⟩⟩
          intro delivers
          rcases asked (delivers.invited waits) with ⟨_, ran, -⟩
          cases ran
      | true =>
          have invited : request.Invited client answer :=
            invited_of_awaitContinue stable isOpen hears answered
          rcases asked invited with ⟨_, same, stays⟩
          cases same
          exact writing_finish isOpen begun carried (fun _ => invited) stays quiet

end Begun

/-- What is written on the wire, in terms of the stream before the call only. -/
theorem writing_writeRequest
    (stable : PrefixStable (client.parser.response client.limits.maxHeaderCount))
    (supported : ¬(request.versionMinor < 0 ∨ request.versionMinor > 1))
    (hears : waitsForContinue request defaultHost = true → conn.Hears client answer) :
    Writing client request defaultHost answer conn
      ((writeRequest client request defaultHost).run conn) := by
  have parts : writeRequest client request defaultHost = _ :=
    RequestWriter.whole.write_eq client request defaultHost supported
  rw [parts, run_bind]
  have sending := sending_sendAll (RequestWriter.whole.head request defaultHost)
    client.requestWriteDeadline conn
  cases begun : (sendAll (RequestWriter.whole.head request defaultHost)
      client.requestWriteDeadline).run conn with
  | error _ _ =>
      rw [begun] at sending
      refine ⟨?_, sending.unwritten_iff⟩
      intro delivers
      exact sending.not_conveys delivers.isOpen delivers.carried
  | ok _ _ =>
      rw [begun] at sending
      cases sending with
      | nothing empty => exact absurd empty (head_ne_nil request defaultHost)
      | done _ isOpen carried =>
          have unrefused : ¬conn.Refuses := by
            rintro (shut | ⟨_, _, fates⟩)
            · cases isOpen.symm.trans shut
            · rw [fates] at carried
              cases carried _ List.mem_cons_self
          cases waits : waitsForContinue request defaultHost with
          | false =>
              rw [RequestWriter.waits, waits]
              exact writing_finish isOpen unrefused carried (by simp [waits]) isOpen ⟨rfl, rfl⟩
          | true =>
              rw [RequestWriter.waits, waits]
              exact writing_awaited isOpen unrefused carried stable waits (hears waits)

end Writing

end Corouv.Http
