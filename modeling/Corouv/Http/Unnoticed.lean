import Corouv.Http.ReaderLogic
import Corouv.Http.ReaderSafe
import Corouv.Http.SentRequest

/-!
# Changes of a stream that a connection does not notice

A change of the stream is unnoticed if `recv_some` and `send_all` get on as before, or
did not come to an end.  Everything a `Connection` does then gets on as before.  Two
such changes matter: more arrivals behind those that are there, which can only help a
call that still waits, and the removal of silences and failures, which a call that
returned or still waits has not met.
-/

namespace Corouv.Http

open Library Io

def Conn.change (alter : ByteStream → ByteStream) (conn : Conn) : Conn :=
  { conn with stream := alter conn.stream }

/-- The readers do not notice the change. -/
structure Unread (alter : ByteStream → ByteStream) (unfinished : Exn → Prop) : Prop where
  data : ∀ stream, (allData stream.arrivals).length ≤ (allData (alter stream).arrivals).length
  exhausted : ∀ stream, unfinished .exhausted ∨
    (allData stream.arrivals).length = (allData (alter stream).arrivals).length
  close : ∀ stream, alter { stream with isOpen := false } = { alter stream with isOpen := false }
  recv : ∀ capacity deadline, Commutes (Conn.change alter) unfinished (recvSome capacity deadline)

structure Unnoticed (alter : ByteStream → ByteStream) (unfinished : Exn → Prop) : Prop
    extends Unread alter unfinished where
  send : ∀ data deadline, Commutes (Conn.change alter) unfinished (sendAll data deadline)

variable {alter : ByteStream → ByteStream} {unfinished : Exn → Prop}

namespace Unread

variable (unnoticed : Unread alter unfinished)
include unnoticed

theorem backlog_le (conn : Conn) : conn.backlog ≤ (conn.change alter).backlog :=
  Nat.add_le_add_left (unnoticed.data conn.stream) _

theorem backlog_eq (conn : Conn) :
    unfinished .exhausted ∨ conn.backlog = (conn.change alter).backlog :=
  (unnoticed.exhausted conn.stream).imp_right (congrArg (conn.buffer.size + ·))

theorem readerLogic :
    ReaderLogic fun {_} task => Commutes (Conn.change alter) unfinished task where
  pure := commutes_pure
  throw := fun _ => commutes_throw _
  bind := commutes_bind
  inspect := fun blind each => commutes_get_bind (fun conn => blind conn _) each
  change := by
    intro update blind
    apply commutes_modify
    intro conn
    have whole : update conn = { update conn with stream := conn.stream } := blind conn conn.stream
    have same : (update conn).stream = conn.stream := by
      rw [whole]
    have moved := blind conn (alter conn.stream)
    simp only [Conn.change] at moved ⊢
    rw [moved, same]
  loop := by
    intro α β _ _ grows turn entry
    exact commutes_fuelled_loop turn (fun conn => grows _ _ (unnoticed.backlog_le conn))
      (fun conn => (unnoticed.backlog_eq conn).imp_right fun same =>
        (grows _ _ same.le).antisymm (grows _ _ same.ge)) entry
  recv := unnoticed.recv

theorem readUntilCloseTurn (limits : Limits) (sink : BodySink) (deadline : Deadline) (total : ℕ) :
    Commutes (Conn.change alter) unfinished
      (Http.readUntilCloseTurn limits sink deadline total) := by
  have logic := unnoticed.readerLogic
  apply logic.bind (logic.recv _ _)
  intro _
  split
  · apply logic.bind
    · apply commutes_modify
      intro _
      simp only [Conn.close, Conn.change, unnoticed.close]
    · intro _
      exact logic.pure _
  · split
    · exact logic.throw rfl
    · apply logic.bind (logic.change fun _ _ => rfl)
      intro _
      exact logic.pure _

/-- The fuel of the loop is fixed before what is buffered has been handed over. -/
theorem readUntilCloseBodyStream (limits : Limits) (sink : BodySink) (deadline : Deadline) :
    Commutes (Conn.change alter) unfinished
      (Http.readUntilCloseBodyStream limits sink deadline) := by
  have logic := unnoticed.readerLogic
  intro conn
  simp only [Http.readUntilCloseBodyStream, EStateM.run_bind, EStateM.run_get]
  have same : (conn.change alter).buffer = conn.buffer := rfl
  simp only [same]
  split
  · exact .inr rfl
  · have turn := unnoticed.readUntilCloseTurn limits sink deadline
    have enough := Nat.succ_le_succ (unnoticed.backlog_le conn)
    have cutOff := (unnoticed.backlog_eq conn).imp_right (congrArg (· + 1))
    split
    · exact follows_loop turn (conn.backlog + 1) _ _ _ enough cutOff
    · exact follows_loop turn (conn.backlog + 1) _ _ conn enough cutOff

theorem responseLogic :
    ResponseLogic fun {_} task => Commutes (Conn.change alter) unfinished task :=
  { unnoticed.readerLogic with untilClose := unnoticed.readUntilCloseBodyStream }

end Unread

namespace Unnoticed

variable (unnoticed : Unnoticed alter unfinished)
include unnoticed

theorem finishRequest (config : Config) (sink : BodySink) (length : ℕ) (head : RequestHead) :
    Commutes (Conn.change alter) unfinished (Http.finishRequest config sink length head) := by
  have logic := unnoticed.readerLogic
  simp only [Http.finishRequest]
  split
  · exact commutes_throw _
  next request contentLength _ =>
    apply logic.bind (logic.change fun _ _ => rfl)
    intro _
    split
    · exact logic.throw rfl
    · apply logic.bind
      · simp only [sendContinue]
        split
        · exact unnoticed.send _ _
        · exact logic.pure ()
      · intro _
        exact logic.readRequestBody config sink request contentLength

theorem readRequest (config : Config) :
    Commutes (Conn.change alter) unfinished (Http.readRequest config) := by
  have logic := unnoticed.readerLogic
  apply logic.bind (logic.change fun _ _ => rfl)
  intro _
  apply logic.bind
  · apply logic.loop (fun _ _ => Nat.succ_le_succ)
    intro _
    apply logic.bind (logic.headStep _ rfl rfl _ _ _)
    intro verdict
    cases verdict with
    | complete length head =>
        apply logic.bind (unnoticed.finishRequest config .collect length head)
        intro _
        exact logic.pure _
    | more _ => exact logic.pure _
    | eof =>
        apply logic.inspect (fun _ _ => rfl)
        intro _
        split
        · exact logic.pure _
        · exact logic.throw rfl
  · intro _
    apply logic.inspect (fun _ _ => rfl)
    intro _
    exact logic.pure _

theorem sendPieces (deadline : Deadline) (pieces : List Bytes) :
    Commutes (Conn.change alter) unfinished (Http.sendPieces deadline pieces) := by
  induction pieces with
  | nil => exact commutes_pure ()
  | cons piece _ ih =>
      apply commutes_bind (unnoticed.send piece deadline)
      intro _
      exact ih

theorem finish (config : Config) (request : Request) (writer : RequestWriter) (proceed : Bool) :
    Commutes (Conn.change alter) unfinished (writer.finish config request proceed) := by
  cases proceed with
  | false => exact commutes_pure ()
  | true => exact unnoticed.sendPieces _ _

theorem write (config : Config) (request : Request) (defaultHost : Bytes)
    (writer : RequestWriter) :
    Commutes (Conn.change alter) unfinished (writer.write config request defaultHost) := by
  by_cases unsupported : request.versionMinor < 0 ∨ request.versionMinor > 1
  · rw [writer.write_unsupported config request defaultHost unsupported]
    exact commutes_throw _
  · rw [writer.write_eq config request defaultHost unsupported]
    apply commutes_bind (unnoticed.send _ _)
    intro _
    split
    · exact commutes_bind (unnoticed.responseLogic.awaitContinue config request.method)
        (unnoticed.finish config request writer)
    · exact unnoticed.finish config request writer true

end Unnoticed

/-- More is in store for the reader.  The fates of writes mean nothing to it. -/
theorem unread_extend (more : List Arrival) (fates : List Departure → List Departure) :
    Unread (fun stream => { stream with
      arrivals := stream.arrivals ++ more, departures := fates stream.departures })
      Exn.IsUnfinished where
  data := fun stream => length_allData_append stream.arrivals more
  exhausted := fun _ => .inl (.inr rfl)
  close := fun _ => rfl
  recv := by
    intro capacity deadline conn
    cases isOpen : conn.stream.isOpen with
    | false =>
        rw [recvSome_run_closed isOpen, recvSome_run_closed (by exact isOpen)]
        exact .inr rfl
    | true =>
        rw [recvSome_run isOpen, recvSome_run (by exact isOpen)]
        show Follows _ _ (Conn.received _ _ (receive _ _ (conn.stream.arrivals ++ more))) _
        rcases receive_append capacity deadline.duration.isSome conn.stream.arrivals more with
          waiting | same
        · cases outcome : receive capacity deadline.duration.isSome conn.stream.arrivals with
          | mk received _ =>
              rw [outcome] at waiting
              dsimp only at waiting
              subst waiting
              exact .inl (.inl rfl)
        · rw [same]
          cases receive capacity deadline.duration.isSome conn.stream.arrivals with
          | mk received _ =>
              cases received with
              | bytes data => rfl
              | timeout | failure message | busy => exact .inr rfl
              | waiting => exact .inl (.inl rfl)

def extend (more : List Arrival) (stream : ByteStream) : ByteStream :=
  { stream with arrivals := stream.arrivals ++ more }

theorem unnoticed_extend (more : List Arrival) : Unnoticed (extend more) Exn.IsUnfinished where
  toUnread := unread_extend more id
  send := by
    intro data deadline conn
    have sending := sending_sendAll data deadline conn
    generalize (sendAll data deadline).run conn = result at sending
    cases sending with
    | nothing empty => exact Sending.run_eq (.nothing empty)
    | done some isOpen carried => exact Sending.run_eq (.done some isOpen carried)
    | late some isOpen fates timed => exact .inr (Sending.run_eq (.late some isOpen fates timed))
    | failed some isOpen fates => exact .inr (Sending.run_eq (.failed some isOpen fates))
    | closed some shut => exact .inr (Sending.run_eq (.closed some shut))

/-- The stream as it would be if nothing went wrong on it. -/
def calm (stream : ByteStream) : ByteStream :=
  { stream with arrivals := stream.arrivals.filter Arrival.isClean, departures := [] }

theorem unnoticed_calm : Unnoticed calm fun error => ¬error.IsUnfinished where
  data := fun stream => by simp [calm, allData_filter_isClean]
  exhausted := fun stream => .inr (by simp [calm, allData_filter_isClean])
  close := fun _ => rfl
  recv := by
    intro capacity deadline conn
    cases isOpen : conn.stream.isOpen with
    | false =>
        rw [recvSome_run_closed isOpen]
        exact .inl (by simp [Exn.IsUnfinished])
    | true =>
        have isOpen' : (conn.change calm).stream.isOpen = true := isOpen
        have cleaned : (conn.change calm).stream.arrivals =
            conn.stream.arrivals.filter Arrival.isClean := rfl
        rw [recvSome_run isOpen, recvSome_run isOpen', cleaned]
        cases outcome : receive capacity deadline.duration.isSome conn.stream.arrivals with
        | mk received _ =>
            cases received with
            | bytes data =>
                rw [receive_calm outcome]
                rfl
            | timeout | failure message | busy => exact .inl (by simp [Exn.IsUnfinished])
            | waiting =>
                have still := receive_calm_of_waiting (congrArg Prod.fst outcome)
                generalize receive capacity deadline.duration.isSome
                  (conn.stream.arrivals.filter Arrival.isClean) = answer at still
                rcases answer with ⟨_, _⟩
                cases still
                exact .inr rfl
  send := by
    intro data deadline conn
    have sending := sending_sendAll data deadline conn
    generalize (sendAll data deadline).run conn = result at sending
    cases sending with
    | nothing empty => exact Sending.run_eq (.nothing empty)
    | done some isOpen _ => exact Sending.run_eq (.done some isOpen (by simp [Conn.change, calm]))
    | late | failed | closed => exact .inl (by simp [Exn.IsUnfinished])

end Corouv.Http
