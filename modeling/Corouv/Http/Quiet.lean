import Corouv.Http.ReaderLogic

/-!
# Readers write nothing

Whatever a reader comes to, the bytes written so far and the fates of the writes to come
are as they were.  Only a body that extends to the end of the stream closes the stream, and an
interim response has none.
-/

namespace Corouv.Http

open Library Io

/-- What has been written, and what the network has in store for the next writes. -/
structure Conn.Sent (written : Bytes) (departures : List Departure) (conn : Conn) : Prop where
  written_eq : conn.stream.written = written
  departures_eq : conn.stream.departures = departures

section Sent

variable (written : Bytes) (departures : List Departure)

theorem preserves_recvSome (capacity : ℕ) (deadline : Deadline) :
    Preserves (Conn.Sent written departures) (recvSome capacity deadline) := by
  intro conn sent
  simp only [recvSome, EStateM.run]
  split
  · rcases receive capacity deadline.duration.isSome conn.stream.arrivals with ⟨received, _⟩
    cases received with
    | bytes data | timeout | failure message | busy => exact ⟨sent.written_eq, sent.departures_eq⟩
    | waiting => exact sent
  · exact sent

theorem readerLogic_preserves :
    ReaderLogic fun {_} task => Preserves (Conn.Sent written departures) task := by
  apply readerLogic_of_recv _ (preserves_recvSome written departures)
  intro _ _ same sent
  exact ⟨same ▸ sent.written_eq, same ▸ sent.departures_eq⟩

theorem preserves_readUntilClose (limits : Limits) (sink : BodySink) (deadline : Deadline) :
    Preserves (Conn.Sent written departures)
      (readUntilCloseBodyStream limits sink deadline) := by
  have logic := readerLogic_preserves written departures
  apply preserves_get_bind
  intro _
  have turn : ∀ total, Preserves (Conn.Sent written departures)
      (readUntilCloseTurn limits sink deadline total) := by
    intro _
    apply preserves_bind (preserves_recvSome written departures _ _)
    intro _
    split
    · apply preserves_bind
      · apply preserves_modify
        intro _ sent
        exact ⟨sent.written_eq, sent.departures_eq⟩
      · intro _
        exact preserves_pure _
    · split
      · exact preserves_throw _
      · apply preserves_bind (logic.change fun _ _ => rfl)
        intro _
        exact preserves_pure _
  split
  · exact preserves_throw _
  · split
    · apply preserves_bind (logic.change fun _ _ => rfl)
      intro _
      apply preserves_bind (logic.change fun _ _ => rfl)
      intro _
      exact preserves_loop turn _ _
    · exact preserves_loop turn _ _

theorem responseLogic_preserves :
    ResponseLogic fun {_} task => Preserves (Conn.Sent written departures) task :=
  { readerLogic_preserves written departures with
    untilClose := preserves_readUntilClose written departures }

end Sent

end Corouv.Http
