import Corouv.Http.ReaderLogic
import Corouv.Http.RequestCorrect

/-!
# Reading responses

`Grammar.response` reads a response from the whole input, with the interim
responses before it.  A response without `Content-Length` on a connection that is
not kept alive extends to the end of the stream; the rest is then `none`, and
reading it closes the connection.
-/

namespace Corouv.Http

open Library Io
open EStateM (run_bind run_get run_pure run_modify)

namespace Grammar

/-- The input behind the body of an interim response. -/
def interimRest (limits : Limits) (response : Response) (contentLength : Option ℕ)
    (input : Bytes) : Option Bytes :=
  if response.chunked then (chunkedBody limits false input).map fun read => read.2.2
  else
    match contentLength with
    | some size => (fixedBody limits size input).map fun read => read.2
    | none => some input

/-- The body of a final response: the response with its trailers, the content and
the rest. -/
def finalBody (limits : Limits) (requestMethod : Bytes) (response : Response)
    (contentLength : Option ℕ) (input : Bytes) : Option (Response × Bytes × Option Bytes) :=
  if responseHasBody response.status requestMethod then
    if response.chunked then
      (chunkedBody limits true input).map fun read =>
        ({ response with trailers := read.2.1 }, read.1, some read.2.2)
    else
      match contentLength with
      | some size =>
          (fixedBody limits size input).map fun read => (response, read.1, some read.2)
      | none =>
          if response.keepAlive then some (response, [], some input)
          else if input.length ≤ limits.maxBodyBytes then some (response, input, none)
          else none
  else some (response, [], some input)

def responseWithin (parser : HeadParser) (limits : Limits) (requestMethod : Bytes)
    (skipInformational : Bool) : ℕ → Bytes → Option (Response × Bytes × Option Bytes)
  | 0, _ => none
  | fuel + 1, input =>
      match parser.response limits.maxHeaderCount (input.take limits.maxHeaderBytes) 0 with
      | .complete length head =>
          match responseOfHead head with
          | .error _ => none
          | .ok (response, contentLength) =>
              if isInformational response.status then
                (interimRest limits response contentLength (input.drop length)).bind fun rest =>
                  if skipInformational then
                    responseWithin parser limits requestMethod skipInformational fuel rest
                  else some (response, [], some rest)
              else finalBody limits requestMethod response contentLength (input.drop length)
      | _ => none

/-- The response, its content and the rest of the input. -/
def response (parser : HeadParser) (limits : Limits) (requestMethod : Bytes)
    (skipInformational : Bool) (input : Bytes) : Option (Response × Bytes × Option Bytes) :=
  responseWithin parser limits requestMethod skipInformational (input.length + 1) input

/-- The inputs at which reading a response comes to a body whose length its head
does not tell. -/
def unsizedInputsWithin (parser : HeadParser) (limits : Limits) (skipInformational : Bool) :
    ℕ → Bytes → List Bytes
  | 0, _ => []
  | fuel + 1, input =>
      match parser.response limits.maxHeaderCount (input.take limits.maxHeaderBytes) 0 with
      | .complete length head =>
          match responseOfHead head with
          | .error _ => []
          | .ok (response, contentLength) =>
              (if response.chunked ∨ contentLength = none then [input.drop length] else []) ++
                if isInformational response.status ∧ skipInformational then
                  match interimRest limits response contentLength (input.drop length) with
                  | some rest => unsizedInputsWithin parser limits skipInformational fuel rest
                  | none => []
                else []
      | _ => []

def unsizedInputs (parser : HeadParser) (limits : Limits) (skipInformational : Bool)
    (input : Bytes) : List Bytes :=
  unsizedInputsWithin parser limits skipInformational (input.length + 1) input

variable {limits : Limits} {parser : HeadParser} {input : Bytes} {response : Response}
  {contentLength : Option ℕ} {head : ResponseHead} {length : ℕ}

theorem length_rest_of_interimRest {rest : Bytes}
    (read : interimRest limits response contentLength input = some rest) :
    rest.length ≤ input.length := by
  simp only [interimRest] at read
  split at read
  · rcases Option.map_eq_some_iff.mp read with ⟨⟨_, _, _⟩, body, same⟩
    cases same
    exact length_rest_of_chunkedBody body
  · split at read
    · rcases Option.map_eq_some_iff.mp read with ⟨⟨_, _⟩, body, same⟩
      cases same
      rcases fixedBody_eq_some body with ⟨-, -, -, rfl⟩
      simp
    · cases read
      exact le_rfl

section

variable (stable : PrefixStable (parser.response limits.maxHeaderCount))
include stable

theorem length_rest_of_interim {rest : Bytes}
    (found : parser.response limits.maxHeaderCount (input.take limits.maxHeaderBytes) 0 =
      .complete length head)
    (read : interimRest limits response contentLength (input.drop length) = some rest) :
    rest.length < input.length := by
  have bounds := stable.bounds found
  have shorter := length_rest_of_interimRest read
  simp only [List.length_take] at bounds
  simp only [List.length_drop] at shorter
  omega

theorem responseWithin_congr (requestMethod : Bytes) (skipInformational : Bool) :
    ∀ (fuel fuel' : ℕ) (input : Bytes), input.length < fuel → input.length < fuel' →
      responseWithin parser limits requestMethod skipInformational fuel input =
        responseWithin parser limits requestMethod skipInformational fuel' input := by
  apply fuel_congr (responseWithin parser limits requestMethod skipInformational) List.length
  intro _ _ _ ih
  simp only [responseWithin]
  split
  next length head found =>
    split
    · rfl
    · split
      · apply Option.bind_congr
        intro rest read
        rw [ih rest (length_rest_of_interim stable found read)]
      · rfl
  · rfl

theorem response_of_head (requestMethod : Bytes) (skipInformational : Bool)
    (found : parser.response limits.maxHeaderCount (input.take limits.maxHeaderBytes) 0 =
      .complete length head) (announced : responseOfHead head = .ok (response, contentLength)) :
    Grammar.response parser limits requestMethod skipInformational input =
      if isInformational response.status then
        (interimRest limits response contentLength (input.drop length)).bind fun rest =>
          if skipInformational then
            Grammar.response parser limits requestMethod skipInformational rest
          else some (response, [], some rest)
      else finalBody limits requestMethod response contentLength (input.drop length) := by
  rw [Grammar.response, responseWithin, found]
  simp only [announced]
  split
  · apply Option.bind_congr
    intro rest read
    have shorter := length_rest_of_interim stable found read
    rw [responseWithin_congr stable requestMethod skipInformational input.length
      (rest.length + 1) rest (by omega) (by omega), Grammar.response]
  · rfl

end

theorem response_of_noHead (requestMethod : Bytes) (skipInformational : Bool)
    (none : NoHead (parser.response limits.maxHeaderCount) (input.take limits.maxHeaderBytes)) :
    Grammar.response parser limits requestMethod skipInformational input = Option.none := by
  rw [Grammar.response, responseWithin]
  split
  next length head found => exact absurd found (none length head)
  · rfl

theorem response_of_badHead {error : Exn} (requestMethod : Bytes) (skipInformational : Bool)
    (found : parser.response limits.maxHeaderCount (input.take limits.maxHeaderBytes) 0 =
      .complete length head) (refused : responseOfHead head = .error error) :
    Grammar.response parser limits requestMethod skipInformational input = none := by
  rw [Grammar.response, responseWithin, found]
  simp only [refused]

theorem unsizedInputsWithin_congr (stable : PrefixStable (parser.response limits.maxHeaderCount))
    (skipInformational : Bool) :
    ∀ (fuel fuel' : ℕ) (input : Bytes), input.length < fuel → input.length < fuel' →
      unsizedInputsWithin parser limits skipInformational fuel input =
        unsizedInputsWithin parser limits skipInformational fuel' input := by
  apply fuel_congr (unsizedInputsWithin parser limits skipInformational) List.length
  intro _ _ _ ih
  simp only [unsizedInputsWithin]
  split
  next length head found =>
    split
    · rfl
    · congr 1
      split
      · split
        next rest read => exact ih rest (length_rest_of_interim stable found read)
        · rfl
      · rfl
  · rfl

theorem unsizedInputs_of_noHead (skipInformational : Bool)
    (none : NoHead (parser.response limits.maxHeaderCount) (input.take limits.maxHeaderBytes)) :
    unsizedInputs parser limits skipInformational input = [] := by
  rw [unsizedInputs, unsizedInputsWithin]
  split
  next length head found => exact absurd found (none length head)
  · rfl

theorem unsizedInputs_of_head (stable : PrefixStable (parser.response limits.maxHeaderCount))
    (skipInformational : Bool)
    (found : parser.response limits.maxHeaderCount (input.take limits.maxHeaderBytes) 0 =
      .complete length head) (announced : responseOfHead head = .ok (response, contentLength)) :
    unsizedInputs parser limits skipInformational input =
      (if response.chunked ∨ contentLength = none then [input.drop length] else []) ++
        if isInformational response.status ∧ skipInformational then
          match interimRest limits response contentLength (input.drop length) with
          | some rest => unsizedInputs parser limits skipInformational rest
          | none => []
        else [] := by
  rw [unsizedInputs, unsizedInputsWithin, found]
  simp only [announced]
  congr 1
  split
  · split
    next rest read =>
      have shorter := length_rest_of_interim stable found read
      exact unsizedInputsWithin_congr stable skipInformational input.length
        (rest.length + 1) rest (by omega) (by omega)
    · rfl
  · rfl

end Grammar

theorem responseErrors_areHttp : responseErrors.AreHttp :=
  ⟨rfl, rfl⟩

/-- No sum wraps around while the given bodies are read. -/
def Sane (limits : Limits) (bodies : List Bytes) : Prop :=
  ∀ body ∈ bodies, limits.Small ∧ ∀ size ∈ Grammar.chunkSizes limits body, size < 2 ^ 63

/-- The effect of reading a response with the given content: what is left, or the
connection closed. -/
structure Conn.Received (before after : Conn) (limits : Limits) (ended : Bool) (content : Bytes)
    (rest : Option Bytes) : Prop where
  left : ∀ unread, rest = some unread → after.Ready limits unread ended
  closed : rest = none → after.stream.isOpen = false
  body_eq : after.body = before.body ++ content
  prefetched_eq : after.prefetchedResponse = before.prefetchedResponse

/-- A body that goes on to the end of the stream is there when the stream has ended; so is the
certainty that there is no response. -/
abbrev ResponseSpec (conn : Conn) (limits : Limits) (ended : Bool) (bodies : List Bytes)
    (expected : Option (Response × Bytes × Option Bytes)) :
    EStateM.Result Exn Conn Response → Prop :=
  ReadSpec expected (ended = true ∧ Sane limits bodies) fun read result =>
    (read.2.2 = none → ended = true) → Returns result read.1 fun conn' =>
      conn.Received conn' limits ended read.2.1 read.2.2

variable {ended : Bool} {conn state : Conn} {limits : Limits} {unread input : Bytes}
  {config : Config} {expected : Option (Response × Bytes × Option Bytes)}

variable {bodies : List Bytes} {before after : Conn} {result : EStateM.Result Exn Conn Response}

theorem Conn.After.received {content : Bytes} (writable : before.Writable)
    (done : before.After after unread ended (BodySink.collect.absorb before.body content))
    (size_le : after.buffer.size ≤ limits.maxHeaderBytes) :
    before.Received after limits ended content (some unread) := by
  refine ⟨?_, by simp, done.body_eq, done.prefetched_eq⟩
  intro _ same
  cases same
  exact ⟨done.holds, writable.of_after done, size_le⟩

theorem Conn.Ready.received (ready : conn.Ready limits unread ended) :
    conn.Received conn limits ended [] (some unread) := by
  refine ⟨?_, by simp, by simp, rfl⟩
  intro _ same
  cases same
  exact ready

/-- The body of a final response is read as the grammar reads it, by method and framing. -/
theorem readFinalBody_of_ready (requestMethod : Bytes) (response : Response)
    (contentLength : Option ℕ) (ready : conn.Ready config.limits input ended) :
    ResponseSpec conn config.limits ended
      (if response.chunked ∨ contentLength = none then [input] else [])
      (Grammar.finalBody config.limits requestMethod response contentLength input)
      ((readFinalBody config requestMethod .collect response contentLength).run conn) := by
  rcases ready with ⟨holds, writable, size_le⟩
  by_cases bodied : responseHasBody response.status requestMethod = true
  · simp only [readFinalBody, Grammar.finalBody, bodied, if_true]
    by_cases chunked : response.chunked = true
    · simp only [chunked, if_true, true_or]
      apply (readChunkedBodyStream_of_holds config.limits BodySink.additive_collect
        config.responseBodyDeadline true holds).map
      · rintro ⟨final, sane⟩
        rcases sane input (by simp) with ⟨small, sizes⟩
        exact ⟨⟨final, size_le⟩, small, sizes⟩
      · rintro _ ⟨conn', ran, after, _⟩ _
        rw [run_bind, ran]
        exact ⟨conn', rfl, after.received writable (by omega)⟩
    · simp only [chunked, Bool.false_eq_true, if_false, false_or]
      cases contentLength with
      | some size =>
          apply (readFixedBodyStream_of_holds config.limits size BodySink.additive_collect
            config.responseBodyDeadline holds).map And.left
          rintro _ ⟨conn', ran, after, _⟩ _
          rw [run_bind, ran]
          exact ⟨conn', rfl, after.received writable (by omega)⟩
      | none =>
          by_cases kept : response.keepAlive = true
          · simp only [kept, Bool.not_true, Bool.false_eq_true, if_false, if_true]
            exact .of_some fun _ => ⟨conn, rfl, Conn.Ready.received ⟨holds, writable, size_le⟩⟩
          · simp only [kept, Bool.not_false, Bool.false_eq_true, if_false, if_true]
            by_cases fits : input.length ≤ config.limits.maxBodyBytes
            · rw [if_pos fits]
              refine .of_some fun ending => ?_
              rw [ending rfl] at holds
              rcases (readUntilCloseBodyStream_of_holds config.limits BodySink.additive_collect
                config.responseBodyDeadline holds (.inl fits)).accepts fits with
                ⟨conn', ran, closed, body_eq, prefetched_eq⟩
              rw [run_bind, ran]
              exact ⟨conn', rfl, by simp, fun _ => closed, body_eq, prefetched_eq⟩
            · rw [if_neg fits]
              apply ReadSpec.of_none
              rintro ⟨rfl, sane⟩
              exact ((readUntilCloseBodyStream_of_holds config.limits BodySink.additive_collect
                config.responseBodyDeadline holds (.inr (sane input (by simp)).1)).rejects
                (Nat.lt_of_not_le fits)).bind _
  · simp only [readFinalBody, Grammar.finalBody, bodied, Bool.false_eq_true, if_false]
    exact .of_some fun _ => ⟨conn, rfl, Conn.Ready.received ⟨holds, writable, size_le⟩⟩

/-- The effect of dropping the body of an interim response. -/
structure Conn.Skipped (before after : Conn) (limits : Limits) (rest : Bytes) (ended : Bool) :
    Prop where
  ready : after.Ready limits rest ended
  body_eq : after.body = before.body
  prefetched_eq : after.prefetchedResponse = before.prefetchedResponse
  incoming_le : after.incoming ≤ before.incoming

abbrev InterimSpec (conn : Conn) (limits : Limits) (ended : Bool) (bodies : List Bytes)
    (expected : Option Bytes) : EStateM.Result Exn Conn Unit → Prop :=
  ReadSpec expected (ended = true ∧ Sane limits bodies) fun rest result =>
    Returns result () fun conn' => conn.Skipped conn' limits rest ended

theorem Conn.After.skipped {body : Bytes} (writable : before.Writable)
    (done : before.After after unread ended body) (same : body = before.body)
    (size_le : after.buffer.size ≤ limits.maxHeaderBytes) :
    before.Skipped after limits unread ended :=
  ⟨⟨done.holds, writable.of_after done, size_le⟩, done.body_eq.trans same, done.prefetched_eq,
    done.incoming_le⟩

theorem skipInterimBody_of_ready (response : Response) (contentLength : Option ℕ)
    (ready : conn.Ready config.limits input ended) :
    InterimSpec conn config.limits ended
      (if response.chunked ∨ contentLength = none then [input] else [])
      (Grammar.interimRest config.limits response contentLength input)
      ((skipInterimBody config response contentLength).run conn) := by
  rcases ready with ⟨holds, writable, size_le⟩
  by_cases chunked : response.chunked = true
  · simp only [skipInterimBody, Grammar.interimRest, chunked, if_true, true_or]
    apply (readChunkedBodyStream_of_holds config.limits BodySink.additive_ignore
      config.responseBodyDeadline false holds).map
    · rintro ⟨final, sane⟩
      rcases sane input (by simp) with ⟨small, sizes⟩
      exact ⟨⟨final, size_le⟩, small, sizes⟩
    · rintro _ ⟨conn', ran, after, _⟩
      rw [run_bind, ran]
      exact ⟨conn', rfl, after.skipped writable rfl (by omega)⟩
  · simp only [skipInterimBody, Grammar.interimRest, chunked, Bool.false_eq_true, if_false]
    cases contentLength with
    | some size =>
        have spec := readFixedBodyStream_of_holds config.limits size BodySink.additive_ignore
          config.responseBodyDeadline holds
        constructor
        · intro _ read
          rcases Option.map_eq_some_iff.mp read with ⟨_, body, rfl⟩
          rcases spec.accepts body with ⟨conn', ran, after, _⟩
          exact ⟨conn', ran, after.skipped writable rfl (by omega)⟩
        · intro rejected certain
          exact spec.rejects (Option.map_eq_none_iff.mp rejected) certain.1
    | none => exact .of_some ⟨conn, rfl, ⟨holds, writable, size_le⟩, rfl, rfl, le_rfl⟩

/-- The head loop of a response; interim responses may have been skipped. -/
structure ResponseProgress (config : Config) (requestMethod : Bytes) (skipInformational : Bool)
    (conn : Conn) (input : Bytes) (ended : Bool) (rank lastLen : ℕ) (state : Conn) : Prop where
  progress : ∃ unread, rank = unread.length + state.incoming ∧
    conn.Skipped state config.limits unread ended ∧
    Grammar.response config.parser config.limits requestMethod skipInformational input =
      Grammar.response config.parser config.limits requestMethod skipInformational unread ∧
    ∀ body ∈ Grammar.unsizedInputs config.parser config.limits skipInformational unread,
      body ∈ Grammar.unsizedInputs config.parser config.limits skipInformational input
  none : NoHead (config.parser.response config.limits.maxHeaderCount)
    (state.buffer.view.take lastLen)

theorem Conn.Skipped.trans {first second third : Conn} {unread' : Bytes}
    (one : first.Skipped second limits unread ended)
    (two : second.Skipped third limits unread' ended) : first.Skipped third limits unread' ended :=
  ⟨two.ready, two.body_eq.trans one.body_eq, two.prefetched_eq.trans one.prefetched_eq,
    two.incoming_le.trans one.incoming_le⟩

theorem Sane.mono {bodies' : List Bytes} (sane : Sane limits bodies)
    (subset : ∀ body ∈ bodies', body ∈ bodies) : Sane limits bodies' :=
  fun body mem => sane body (subset body mem)

theorem Conn.Ready.consume {length : ℕ} (ready : conn.Ready limits unread ended)
    (held : length ≤ conn.buffer.size) :
    conn.Skipped (conn.consume length) limits (unread.drop length) ended := by
  have after := ready.holds.consume held
  have shrunk := BufferCursor.size_consume held
  have size_le := ready.size_le
  apply after.skipped ready.writable rfl
  simp only [Conn.consume]
  omega

theorem ResponseSpec.refuse (rejected : expected = none) (refuses : Refuses result) :
    ResponseSpec conn limits ended bodies expected result :=
  ⟨by simp [rejected], fun _ _ => refuses⟩

theorem ResponseSpec.of_skipped {bodies' : List Bytes}
    (skipped : conn.Skipped state limits unread ended) (here : ∀ body ∈ bodies', body ∈ bodies)
    (spec : ResponseSpec state limits ended bodies' expected result) :
    ResponseSpec conn limits ended bodies expected result := by
  refine ⟨?_, fun rejected certain => spec.rejects rejected ⟨certain.1, certain.2.mono here⟩⟩
  intro _ accepted ending
  rcases spec.accepts accepted ending with ⟨conn', ran, left, closed, body_eq, prefetched_eq⟩
  exact ⟨conn', ran, left, closed, by rw [body_eq, skipped.body_eq],
    prefetched_eq.trans skipped.prefetched_eq⟩

section

variable {requestMethod : Bytes} {skipInformational : Bool}
  (stable : PrefixStable (config.parser.response config.limits.maxHeaderCount))
include stable

section Loop

variable (settled : (Grammar.response config.parser config.limits requestMethod skipInformational
    input).isSome ∨ (ended = true ∧ Sane config.limits
      (Grammar.unsizedInputs config.parser config.limits skipInformational input)))
include settled

/-- Behind a head: the response is returned, or the loop goes on behind an interim one. -/
theorem finishResponse_meets {length : ℕ} {head : ResponseHead}
    (skipped : conn.Skipped state config.limits unread ended)
    (same : Grammar.response config.parser config.limits requestMethod skipInformational input =
      Grammar.response config.parser config.limits requestMethod skipInformational unread)
    (met : ∀ body ∈ Grammar.unsizedInputs config.parser config.limits skipInformational unread,
      body ∈ Grammar.unsizedInputs config.parser config.limits skipInformational input)
    (found : config.parser.response config.limits.maxHeaderCount
      (unread.take config.limits.maxHeaderBytes) 0 = .complete length head)
    (held : length ≤ state.buffer.size) :
    Turn.Meets (fun lastLen' state' => ∃ lower < unread.length + state.incoming,
        ResponseProgress config requestMethod skipInformational conn input ended lower lastLen'
          state')
      (ResponseSpec conn config.limits ended
        (Grammar.unsizedInputs config.parser config.limits skipInformational input)
        (Grammar.response config.parser config.limits requestMethod skipInformational input))
      ((finishResponse config requestMethod .collect skipInformational length head).run state) := by
  cases announced : responseOfHead head with
  | error error =>
      simp only [finishResponse, announced]
      apply ResponseSpec.refuse
      · rw [same]
        exact Grammar.response_of_badHead requestMethod skipInformational found announced
      · exact ⟨error, state, rfl, isHttpError_of_responseOfHead announced⟩
  | ok framed =>
      rcases framed with ⟨response, contentLength⟩
      have reading := Grammar.response_of_head stable requestMethod skipInformational found
        announced
      have bodies := Grammar.unsizedInputs_of_head stable skipInformational found announced
      have consumed := skipped.ready.consume held
      have chained := skipped.trans consumed
      have here : ∀ body ∈ (if response.chunked ∨ contentLength = none then
          [unread.drop length] else []),
          body ∈ Grammar.unsizedInputs config.parser config.limits skipInformational input := by
        intro _ mem
        apply met
        rw [bodies]
        exact List.mem_append_left _ mem
      simp only [finishResponse, announced, run_bind, run_modify]
      by_cases interim : isInformational response.status = true
      · simp only [interim, if_true] at reading bodies ⊢
        have spec := skipInterimBody_of_ready response contentLength consumed.ready
        cases behind : Grammar.interimRest config.limits response contentLength
            (unread.drop length) with
        | none =>
            rw [behind, Option.bind_none] at reading
            simp only [same.trans reading, Option.isSome_none, Bool.false_eq_true, false_or]
              at settled
            rcases spec.rejects behind ⟨settled.1, settled.2.mono here⟩ with
              ⟨error, state', ran, http⟩
            simp only [run_bind, ran, Turn.Meets]
            exact ResponseSpec.refuse (same.trans reading) ⟨error, state', rfl, http⟩
        | some rest =>
            rcases spec.accepts behind with ⟨state', ran, skipped'⟩
            have through := chained.trans skipped'
            have shorter := Grammar.length_rest_of_interim stable found behind
            have fewer := (consumed.trans skipped').incoming_le
            simp only [behind, Option.bind_some, true_and] at reading bodies
            simp only [run_bind, ran]
            cases skipInformational with
            | true =>
                simp only [if_true, run_pure, Turn.Meets] at reading bodies ⊢
                refine ⟨rest.length + state'.incoming, by omega, ⟨rest, rfl, through,
                  same.trans reading, ?_⟩, ?_⟩
                · intro _ mem
                  apply met
                  rw [bodies]
                  exact List.mem_append_right _ mem
                · exact stable.noHead_nil
            | false =>
                simp only [Bool.false_eq_true, if_false, run_pure, Turn.Meets] at reading ⊢
                rw [same, reading]
                apply ResponseSpec.of_skipped through fun _ => id
                exact .of_some fun _ => ⟨state', rfl, through.ready.received⟩
      · simp only [interim, Bool.false_eq_true, if_false] at reading ⊢
        have spec := readFinalBody_of_ready requestMethod response contentLength consumed.ready
        rw [← reading, ← same] at spec
        have whole := spec.of_skipped chained here
        simp only [run_bind]
        cases ran : (readFinalBody config requestMethod .collect response contentLength).run
            (state.consume length) with
        | error _ _ =>
            rw [ran] at whole
            exact whole
        | ok _ _ =>
            rw [ran] at whole
            exact whole

/-- One round of the response loop; `rank` falls with what is read. -/
theorem readResponseTurn_meets {rank lastLen : ℕ}
    (progress : ResponseProgress config requestMethod skipInformational conn input ended rank
      lastLen state) :
    Turn.Meets (fun lastLen' state' => ∃ lower < rank,
        ResponseProgress config requestMethod skipInformational conn input ended lower lastLen'
          state')
      (ResponseSpec conn config.limits ended
        (Grammar.unsizedInputs config.parser config.limits skipInformational input)
        (Grammar.response config.parser config.limits requestMethod skipInformational input))
      ((readResponseTurn config requestMethod .collect skipInformational lastLen).run state) := by
  rcases progress with ⟨⟨unread, rfl, skipped, same, met⟩, noneYet⟩
  have outcome := headStep_of_holds stable responseErrors_areHttp config.limits
    ⟨config.timeouts.readHeaders, 504, "response header read timeout"⟩ skipped.ready.holds
    skipped.ready.size_le noneYet
  simp only [readResponseTurn, run_bind]
  generalize (headStep (config.parser.response config.limits.maxHeaderCount) responseErrors
    config.limits ⟨config.timeouts.readHeaders, 504, "response header read timeout"⟩
    lastLen).run state = result at outcome
  have rejected : NoHead (config.parser.response config.limits.maxHeaderCount)
      (unread.take config.limits.maxHeaderBytes) →
      Grammar.response config.parser config.limits requestMethod skipInformational input = none :=
    fun none => same.trans (Grammar.response_of_noHead requestMethod skipInformational none)
  cases outcome with
  | complete _ whole held => exact finishResponse_meets stable settled skipped same met whole held
  | @more state' after size' _ none _ =>
      have further := after.skipped skipped.ready.writable rfl size'
      exact ⟨unread.length + state'.incoming, by omega,
        ⟨unread, rfl, skipped.trans further, same, met⟩, none⟩
  | eof _ _ _ none _ =>
      exact ResponseSpec.refuse (rejected none) ⟨_, _, rfl, rfl⟩
  | refused http none state' _ =>
      exact ResponseSpec.refuse (rejected none) ⟨_, state', rfl, http⟩
  | waiting none stays _ =>
      simp [rejected none, stays] at settled

end Loop

variable (requestMethod skipInformational) (ready : conn.Ready config.limits input ended)
include ready

theorem readResponseStreamImpl_of_ready :
    ResponseSpec conn config.limits ended
      (Grammar.unsizedInputs config.parser config.limits skipInformational input)
      (Grammar.response config.parser config.limits requestMethod skipInformational input)
      ((readResponseStreamImpl config requestMethod .collect skipInformational).run conn) := by
  apply ReadSpec.of_settled
  intro settled
  simp only [readResponseStreamImpl, run_bind, run_get]
  apply loop_ranked (ResponseProgress config requestMethod skipInformational conn input ended)
  · intro _ _ _ progress
    exact readResponseTurn_meets stable settled progress
  · refine ⟨⟨input, rfl, ⟨ready, rfl, rfl, le_rfl⟩, rfl, fun body mem => mem⟩, ?_⟩
    exact stable.noHead_nil
  · have bound := ready.holds.length_le_backlog
    have incoming := conn.incoming_lt_fuel
    omega

/-- A response is returned with the body that was collected for it. -/
theorem collectResponse_of_ready :
    ReadSpec (Grammar.response config.parser config.limits requestMethod skipInformational input)
      (ended = true ∧ Sane config.limits
        (Grammar.unsizedInputs config.parser config.limits skipInformational input))
      (fun read result => (read.2.2 = none → ended = true) →
        Returns result { read.1 with body := read.2.1 } fun conn' =>
          ({ conn with body := [] } : Conn).Received conn' config.limits ended read.2.1 read.2.2)
      ((collectResponse config requestMethod skipInformational).run conn) := by
  have start : ({ conn with body := [] } : Conn).Ready config.limits input ended :=
    ready.congr rfl rfl
  have spec := readResponseStreamImpl_of_ready requestMethod skipInformational stable start
  constructor
  · intro _ accepted ending
    rcases spec.accepts accepted ending with ⟨conn', ran, received⟩
    refine ⟨conn', ?_, received⟩
    simp only [collectResponse, run_bind, run_modify, ran, run_get,
      run_pure, received.body_eq, List.nil_append]
  · intro rejected certain
    exact (spec.rejects rejected certain).bind _

end

theorem readResponse_run_none (requestMethod : Bytes) (none : conn.prefetchedResponse = none) :
    (readResponse config requestMethod).run conn =
      (collectResponse config requestMethod true).run conn := by
  simp only [readResponse, run_bind, run_get, none]

end Corouv.Http
