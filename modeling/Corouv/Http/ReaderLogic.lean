import Corouv.Library.Commands
import Corouv.Http.Connection

/-!
# A logic for the readers

Every reader is put together from `recv_some`, the buffer and a few constructs.  A
property of computations that has a rule for each of these holds of every reader;
`ReaderLogic` lists the rules.
-/

namespace Corouv

/-- The outcome of a computation that has not come to its end. -/
def Exn.IsUnfinished (error : Exn) : Prop :=
  error = .suspended ∨ error = .exhausted

end Corouv

namespace Corouv.Http

open Library Io

structure ReaderLogic (property : ∀ {α : Type}, Task Conn α → Prop) : Prop where
  pure : ∀ {α : Type} (value : α), property (pure value)
  throw : ∀ {α : Type} {error : Exn}, error.isHttpError = true →
    property (throw error : Task Conn α)
  bind : ∀ {α β : Type} {first : Task Conn α} {second : α → Task Conn β}, property first →
    (∀ value, property (second value)) → property (first >>= second)
  /-- Reading anything but the stream. -/
  inspect : ∀ {α : Type} {next : Conn → Task Conn α},
    (∀ conn stream, next { conn with stream := stream } = next conn) →
    (∀ conn, property (next conn)) → property (get >>= next)
  /-- Changing anything but the stream. -/
  change : ∀ {update : Conn → Conn},
    (∀ conn stream, update { conn with stream := stream } = { update conn with stream := stream }) →
    property (modify update)
  loop : ∀ {α β : Type} {body : β → Task Conn (Turn β α)} {fuel : Conn → ℕ},
    (∀ conn conn', conn.backlog ≤ conn'.backlog → fuel conn ≤ fuel conn') →
    (∀ entry, property (body entry)) →
    ∀ entry, property (get >>= fun conn => Library.loop .exhausted body (fuel conn) entry)
  recv : ∀ (capacity : ℕ) (deadline : Deadline), property (recvSome capacity deadline)

namespace ReaderLogic

variable {property : ∀ {α : Type}, Task Conn α → Prop} (logic : ReaderLogic property)
include logic

variable {tooLarge : Exn}

theorem readMore (maxBuffered : ℕ) (http : tooLarge.isHttpError = true) (maxRead : ℕ)
    (deadline : Deadline) : property (Http.readMore maxBuffered tooLarge maxRead deadline) := by
  simp only [Http.readMore]
  split
  · exact logic.pure 0
  · apply logic.bind (logic.recv _ _)
    intro _
    split
    · exact logic.pure 0
    · apply logic.inspect (fun _ _ => rfl)
      intro _
      split
      · exact logic.throw http
      · apply logic.bind (logic.change fun _ _ => rfl)
        intro _
        exact logic.pure _

theorem ensureBuffer (wanted maxBuffered : ℕ) (http : tooLarge.isHttpError = true)
    (eofMessage : String) (deadline : Deadline) :
    property (Http.ensureBuffer wanted maxBuffered tooLarge eofMessage deadline) := by
  apply logic.loop (fun _ _ => Nat.succ_le_succ)
  intro _
  apply logic.inspect (fun _ _ => rfl)
  intro _
  split
  · apply logic.bind (logic.readMore _ http _ _)
    intro _
    split
    · exact logic.throw rfl
    · exact logic.pure _
  · exact logic.pure _

theorem readLineCrlf (maxLine : ℕ) (http : tooLarge.isHttpError = true) (eofMessage : String)
    (deadline : Deadline) : property (Http.readLineCrlf maxLine tooLarge eofMessage deadline) := by
  apply logic.loop (fun _ _ => Nat.succ_le_succ)
  intro _
  apply logic.inspect (fun _ _ => rfl)
  intro _
  split
  · apply logic.bind (logic.change fun _ _ => rfl)
    intro _
    exact logic.pure _
  · split
    · exact logic.throw http
    · apply logic.bind (logic.readMore _ http _ _)
      intro _
      split
      · exact logic.throw rfl
      · exact logic.pure _

theorem readFixedBodyStream (limits : Limits) (size : ℕ) (sink : BodySink) (deadline : Deadline) :
    property (Http.readFixedBodyStream limits size sink deadline) := by
  simp only [Http.readFixedBodyStream]
  split
  · exact logic.throw rfl
  · apply logic.loop
    · intro _ _ _
      omega
    · intro _
      simp only [readFixedBodyTurn]
      split
      · apply logic.inspect (fun _ _ => rfl)
        intro _
        split
        · apply logic.bind (logic.change fun _ _ => rfl)
          intro _
          apply logic.bind (logic.change fun _ _ => rfl)
          intro _
          exact logic.pure _
        · apply logic.bind (logic.readMore _ rfl _ _)
          intro _
          split
          · exact logic.throw rfl
          · exact logic.pure _
      · exact logic.pure _

theorem readChunkSize (limits : Limits) (deadline : Deadline) :
    property (Http.readChunkSize limits deadline) := by
  apply logic.bind (logic.readLineCrlf _ rfl _ _)
  intro _
  split
  · exact logic.pure _
  · exact logic.throw rfl

theorem readTrailers (limits : Limits) (deadline : Deadline) (wanted : Bool) :
    property (Http.readTrailers limits deadline wanted) := by
  apply logic.loop (fun _ _ => Nat.succ_le_succ)
  intro _
  apply logic.bind (logic.readLineCrlf _ rfl _ _)
  intro _
  split
  · exact logic.pure _
  · split
    · split
      next error failed =>
        apply logic.throw
        simp only [appendTrailer] at failed
        split at failed
        · cases failed
          rfl
        · cases failed
      · split
        · exact logic.throw rfl
        · exact logic.pure _
    · exact logic.pure _

theorem readChunkTurn (limits : Limits) (sink : BodySink) (deadline : Deadline) (wanted : Bool)
    (total : ℕ) : property (Http.readChunkTurn limits sink deadline wanted total) := by
  apply logic.bind (logic.readChunkSize _ _)
  intro _
  split
  · apply logic.bind (logic.readTrailers _ _ _)
    intro _
    exact logic.pure _
  · split
    · exact logic.throw rfl
    · apply logic.bind (logic.ensureBuffer _ _ rfl _ _)
      intro _
      apply logic.bind (logic.change fun _ _ => rfl)
      intro _
      apply logic.bind (logic.change fun _ _ => rfl)
      intro _
      apply logic.inspect (fun _ _ => rfl)
      intro _
      split
      · exact logic.throw rfl
      · apply logic.bind (logic.change fun _ _ => rfl)
        intro _
        exact logic.pure _

theorem readChunkedBodyStream (limits : Limits) (sink : BodySink) (deadline : Deadline)
    (wanted : Bool) : property (Http.readChunkedBodyStream limits sink deadline wanted) := by
  apply logic.loop (fun _ _ => Nat.succ_le_succ)
  intro total
  exact logic.readChunkTurn limits sink deadline wanted total

theorem headStep {head : Type} (parse : Bytes → ℕ → Parsed head) {errors : HeadErrors}
    (malformed : errors.malformed.isHttpError = true)
    (tooLarge : errors.tooLarge.isHttpError = true) (limits : Limits) (deadline : Deadline)
    (lastLen : ℕ) : property (Http.headStep parse errors limits deadline lastLen) := by
  apply logic.inspect (fun _ _ => rfl)
  intro _
  split
  · exact logic.pure _
  · exact logic.throw malformed
  · split
    · exact logic.throw tooLarge
    · apply logic.bind (logic.readMore _ tooLarge _ _)
      intro _
      split
      · exact logic.pure _
      · exact logic.pure _

theorem readRequestBody (config : Config) (sink : BodySink) (request : Request)
    (contentLength : Option ℕ) :
    property (Http.readRequestBody config sink request contentLength) := by
  simp only [Http.readRequestBody]
  split
  · apply logic.bind (logic.readChunkedBodyStream _ _ _ _)
    intro _
    exact logic.pure _
  · split
    · apply logic.bind (logic.readFixedBodyStream _ _ _ _)
      intro _
      exact logic.pure _
    · exact logic.pure _

theorem skipInterimBody (config : Config) (response : Response) (contentLength : Option ℕ) :
    property (Http.skipInterimBody config response contentLength) := by
  simp only [Http.skipInterimBody]
  split
  · apply logic.bind (logic.readChunkedBodyStream _ _ _ _)
    intro _
    exact logic.pure ()
  · split
    · exact logic.readFixedBodyStream _ _ _ _
    · exact logic.pure ()

end ReaderLogic

/-- A fact about the stream that `recv_some` preserves is preserved by every reader. -/
theorem readerLogic_of_recv {invariant : Conn → Prop}
    (onStream : ∀ {conn conn' : Conn}, conn'.stream = conn.stream → invariant conn →
      invariant conn')
    (recv : ∀ capacity deadline, Preserves invariant (recvSome capacity deadline)) :
    ReaderLogic fun {_} task => Preserves invariant task where
  pure := preserves_pure
  throw := fun _ => preserves_throw _
  bind := preserves_bind
  inspect := fun _ each => preserves_get_bind each
  change := by
    intro update blind
    apply preserves_modify
    intro conn holds
    have whole : update conn = { update conn with stream := conn.stream } := blind conn conn.stream
    apply onStream _ holds
    rw [whole]
  loop := by
    intro α β _ fuel _ turn entry
    apply preserves_get_bind
    intro conn
    exact preserves_loop turn (fuel conn) entry
  recv := recv

theorem isHttpError_of_responseOfHead {head : ResponseHead} {error : Exn}
    (failed : responseOfHead head = .error error) : error.isHttpError = true := by
  simp only [responseOfHead] at failed
  split at failed
  · cases failed
    rfl
  · split at failed
    · cases failed
      rfl
    · split at failed
      · cases failed
        rfl
      · cases failed

/-- A body that extends to the end of the stream closes the stream, which is one more rule. -/
structure ResponseLogic (property : ∀ {α : Type}, Task Conn α → Prop) : Prop
    extends ReaderLogic property where
  untilClose : ∀ (limits : Limits) (sink : BodySink) (deadline : Deadline),
    property (readUntilCloseBodyStream limits sink deadline)

namespace ResponseLogic

variable {property : ∀ {α : Type}, Task Conn α → Prop} (logic : ResponseLogic property)
include logic

section

variable (config : Config) (requestMethod : Bytes)
include config requestMethod

theorem readFinalBody (sink : BodySink) (response : Response) (contentLength : Option ℕ) :
    property (Http.readFinalBody config requestMethod sink response contentLength) := by
  simp only [Http.readFinalBody]
  split
  · split
    · apply logic.bind (logic.readChunkedBodyStream _ _ _ _)
      intro _
      exact logic.pure _
    · split
      · apply logic.bind (logic.readFixedBodyStream _ _ _ _)
        intro _
        exact logic.pure _
      · split
        · apply logic.bind (logic.untilClose _ _ _)
          intro _
          exact logic.pure _
        · exact logic.pure _
  · exact logic.pure _

theorem finishResponse (sink : BodySink) (skipInformational : Bool) (length : ℕ)
    (head : ResponseHead) :
    property (Http.finishResponse config requestMethod sink skipInformational length head) := by
  simp only [Http.finishResponse]
  split
  next error refused => exact logic.throw (isHttpError_of_responseOfHead refused)
  next response contentLength _ =>
    apply logic.bind (logic.change fun _ _ => rfl)
    intro _
    split
    · apply logic.bind (logic.skipInterimBody config response contentLength)
      intro _
      split
      · exact logic.pure _
      · exact logic.pure _
    · apply logic.bind (logic.readFinalBody config requestMethod sink response contentLength)
      intro _
      exact logic.pure _

theorem readResponseStreamImpl (sink : BodySink) (skipInformational : Bool) :
    property (Http.readResponseStreamImpl config requestMethod sink skipInformational) := by
  apply logic.loop
  · intro _ _ _
    omega
  · intro _
    apply logic.bind (logic.headStep _ rfl rfl _ _ _)
    intro verdict
    cases verdict with
    | complete length head =>
        exact logic.finishResponse config requestMethod sink skipInformational length head
    | more _ => exact logic.pure _
    | eof => exact logic.throw rfl

theorem collectResponse (skipInformational : Bool) :
    property (Http.collectResponse config requestMethod skipInformational) := by
  apply logic.bind (logic.change fun _ _ => rfl)
  intro _
  apply logic.bind (logic.readResponseStreamImpl config requestMethod .collect skipInformational)
  intro _
  apply logic.inspect (fun _ _ => rfl)
  intro _
  exact logic.pure _

theorem readResponse : property (Http.readResponse config requestMethod) := by
  apply logic.inspect (fun _ _ => rfl)
  intro _
  split
  · apply logic.bind (logic.change fun _ _ => rfl)
    intro _
    exact logic.pure _
  · exact logic.collectResponse config requestMethod true

end

theorem awaitContinue (config : Config) (method : Bytes) :
    property (Http.awaitContinue config method) := by
  apply logic.bind (logic.collectResponse config method false)
  intro _
  split
  · apply logic.bind (logic.change fun _ _ => rfl)
    intro _
    exact logic.pure _
  · exact logic.pure _

end ResponseLogic

end Corouv.Http
