import Corouv.Http.HeadCorrect
import Corouv.Http.Quiet

/-!
# Head loops on an open stream

`read_request_stream` and `read_response_stream_impl` wait for a head in the same way.
On a stream that has not ended, either the head is found, or the loop fails or waits
without having written anything; and it waits only while the buffer has room for more.
-/

namespace Corouv.Http

open Library Io

variable {head α : Type}

def headTurn (parse : Bytes → ℕ → Parsed head) (errors : HeadErrors) (limits : Limits)
    (deadline : Deadline) (finish : ℕ → head → Task Conn (Turn ℕ α))
    (ending : Task Conn (Turn ℕ α)) (lastLen : ℕ) : Task Conn (Turn ℕ α) := do
  match ← headStep parse errors limits deadline lastLen with
  | .complete length head => finish length head
  | .more lastLen => pure (.again lastLen)
  | .eof => ending

section

variable {parse : Bytes → ℕ → Parsed head} {errors : HeadErrors} {limits : Limits}
  {deadline : Deadline} {lastLen : ℕ} {conn : Conn} {unread : Bytes}

/-- The rule for a head loop: what holds after the head has been found, and also if the
loop comes to an end without it, holds of the loop. -/
theorem headLoop_of_open {post : EStateM.Result Exn Conn α → Prop}
    {finish : ℕ → head → Task Conn (Turn ℕ α)} (ending : Task Conn (Turn ℕ α)) {fuel : ℕ}
    (stable : PrefixStable parse) (areHttp : errors.AreHttp) (holds : conn.Holds unread false)
    (size_le : conn.buffer.size ≤ limits.maxHeaderBytes) (enough : conn.incoming < fuel)
    (finds : ∀ length found state,
      parse (unread.take limits.maxHeaderBytes) 0 = .complete length found →
      conn.After state unread false conn.body → length ≤ state.buffer.size →
        state.buffer.size ≤ limits.maxHeaderBytes →
          Turn.Meets (fun _ _ => False) post ((finish length found).run state))
    (stops : NoHead parse (unread.take limits.maxHeaderBytes) → ∀ error state,
      state.Sent conn.stream.written conn.stream.departures →
        (error = .suspended → unread.length < limits.maxHeaderBytes) → post (.error error state)) :
    post ((loop .exhausted (headTurn parse errors limits deadline finish ending) fuel 0).run
      conn) := by
  apply loop_total (fun lastLen state => conn.After state unread false conn.body ∧
      state.buffer.size ≤ limits.maxHeaderBytes ∧ NoHead parse (state.buffer.view.take lastLen))
    (fun _ state => state.incoming) post _ fuel 0 conn _ enough
  · rintro lastLen state ⟨after, size_le, noneYet⟩
    have outcome := headStep_of_holds stable areHttp limits deadline after.holds size_le noneYet
    have quiet := (readerLogic_preserves conn.stream.written conn.stream.departures).headStep
      parse areHttp.malformed areHttp.tooLarge limits deadline lastLen state
      ⟨after.written_eq, after.departures_eq⟩
    simp only [headTurn, EStateM.run_bind]
    generalize (headStep parse errors limits deadline lastLen).run state = result at outcome quiet
    cases outcome with
    | @complete length found _ whole held =>
        apply (finds length found state whole after held size_le).mono
        intro _ _ impossible
        exact impossible.elim
    | more after' size' fewer none _ =>
        exact ⟨⟨after.trans (after.body_eq ▸ after'), size', none⟩, fewer⟩
    | eof _ final => cases final
    | @refused error http none state' _ =>
        apply stops none error state' quiet
        rintro rfl
        cases http
    | waiting none _ room => exact stops none _ _ quiet fun _ => room
  · refine ⟨holds.after, size_le, ?_⟩
    exact stable.noHead_nil

end

end Corouv.Http
