import Corouv.Http.ChunkRoom
import Corouv.Http.ReferenceRequest
import Corouv.Http.Unnoticed

/-!
# Raising a limit

A request that `read_request` returns under some limits should be returned under larger ones.
All checks but one only let more pass: the cap that the chunk loop puts on its buffer is
computed from sums that wrap around, so that the largest limits stop chunked bodies that small
ones let pass.  `StreamRoom` is what the larger limits have to leave for the second reader to
return the request too, however the network cuts the stream.
-/

namespace Corouv.Http

open Library Io
open EStateM (run_bind run_get run_pure run_modify)

namespace Grammar

/-- The chunks of a body, if it is chunked. -/
def contentChunks (request : Request) (input : Bytes) : List Chunk :=
  if request.chunked then chunks input else []

def headChunks (head : RequestHead) (input : Bytes) : List Chunk :=
  match requestOfHead head with
  | .ok (request, _) => contentChunks request input
  | .error _ => []

/-- The chunks of the request at the front of the input. -/
def requestChunks (parser : HeadParser) (maxHeaderCount : ℕ) (input : Bytes) : List Chunk :=
  match parser.request maxHeaderCount input 0 with
  | .complete length head => headChunks head (input.drop length)
  | _ => []

/-- Once the parser has found the head, the bytes behind it are in the buffer.  Of the other
chunks each is below the cap. -/
def StreamRoom (parser : HeadParser) (limits : Limits) (input : Bytes) : Prop :=
  ∀ count length head,
    parser.request limits.maxHeaderCount (input.take count) 0 = .complete length head →
      Room limits (count - length) 0 (requestChunks parser limits.maxHeaderCount input)

/-- The body behind a head, read without the cap. -/
def uncappedContent (limits : Limits) (request : Request) (contentLength : Option ℕ)
    (input : Bytes) : Option (Request × Bytes × Bytes) :=
  if request.chunked then
    (uncappedFrom limits true 0 input).map fun read =>
      ({ request with trailers := read.2.1 }, read.1, read.2.2)
  else
    match contentLength with
    | some size => (fixedBody limits size input).map fun read => (request, read.1, read.2)
    | none => some (request, [], input)

def uncappedBody (limits : Limits) (head : RequestHead) (input : Bytes) :
    Option (Request × Bytes × Bytes) :=
  match requestOfHead head with
  | .error _ => none
  | .ok (request, contentLength) =>
      if parseExpect request.headers = .unsupported then none
      else uncappedContent limits request contentLength input

/-- The request at the front of the input, read without the cap. -/
def uncappedRequest (parser : HeadParser) (limits : Limits) (input : Bytes) :
    Option (Request × Bytes) :=
  match parser.request limits.maxHeaderCount (input.take limits.maxHeaderBytes) 0 with
  | .complete length head =>
      (uncappedBody limits head (input.drop length)).map fun read =>
        ({ read.1 with body := read.2.1 }, read.2.2)
  | _ => none

variable {parser : HeadParser} {maxHeaderCount length : ℕ} {input : Bytes} {head : RequestHead}

section Raised

variable {limits limits' : Limits} (longer : limits.maxHeaderBytes ≤ limits'.maxHeaderBytes)
  (larger : limits.maxBodyBytes ≤ limits'.maxBodyBytes)
  (count : limits'.maxHeaderCount = limits.maxHeaderCount)
include longer larger count

variable {input : Bytes}

theorem uncappedContent_mono {request : Request} {contentLength : Option ℕ}
    {read : Request × Bytes × Bytes}
    (found : uncappedContent limits request contentLength input = some read) :
    uncappedContent limits' request contentLength input = some read := by
  simp only [uncappedContent] at found ⊢
  by_cases chunked : request.chunked = true
  · rw [if_pos chunked] at found ⊢
    rcases Option.map_eq_some_iff.mp found with ⟨parts, body, same⟩
    exact Option.map_eq_some_iff.mpr
      ⟨parts, uncappedWithin_mono true longer larger count _ body, same⟩
  · rw [if_neg chunked] at found ⊢
    cases contentLength with
    | none => exact found
    | some _ =>
        rcases Option.map_eq_some_iff.mp found with ⟨⟨_, _⟩, body, same⟩
        rcases fixedBody_eq_some body with ⟨fits, long, rfl, rfl⟩
        apply Option.map_eq_some_iff.mpr
        exact ⟨_, if_pos ⟨fits.trans larger, long⟩, same⟩

theorem uncappedRequest_mono {parser : HeadParser} {read : Request × Bytes}
    (stable : PrefixStable (parser.request limits.maxHeaderCount))
    (found : uncappedRequest parser limits input = some read) :
    uncappedRequest parser limits' input = some read := by
  rw [uncappedRequest] at found ⊢
  split at found
  next length head complete =>
    rcases Option.map_eq_some_iff.mp found with ⟨parts, body, same⟩
    rw [count, stable.take_mono longer complete]
    apply Option.map_eq_some_iff.mpr
    refine ⟨parts, ?_, same⟩
    rw [uncappedBody] at body ⊢
    split at body
    · cases body
    · split at body
      · cases body
      next supported =>
        rw [if_neg supported]
        exact uncappedContent_mono longer larger count body
  · cases found

end Raised

end Grammar

variable {conn : Conn} {config : Config} {input : Bytes} {request : Request} {ended : Bool}
  {length : ℕ}

variable {conn' : Conn} {announced : Request} {contentLength : Option ℕ} {content rest : Bytes}
  {head : RequestHead}

theorem readRequestBody_eq_ok (holds : conn.Holds input true)
    (narrow : conn.buffer.size ≤ config.limits.maxHeaderBytes)
    (moderate : Moderate (Grammar.contentChunks announced input))
    (ran : (readRequestBody config .collect announced contentLength).run conn = .ok request conn') :
    ∃ content rest, Grammar.uncappedContent config.limits announced contentLength input =
        some (request, content, rest) ∧ conn.After conn' rest true (conn.body ++ content) ∧
      conn'.buffer.size ≤ config.limits.maxHeaderBytes ∧
      (conn.Trickles → Grammar.Room config.limits conn.buffer.size 0
        (Grammar.contentChunks announced input)) := by
  simp only [readRequestBody, Grammar.uncappedContent, Grammar.contentChunks] at ran moderate ⊢
  by_cases chunked : announced.chunked = true
  · rw [if_pos chunked] at ran moderate ⊢
    rcases run_bind_eq_ok ran with ⟨_, _, body, same⟩
    cases same
    rcases readChunkedBodyStream_eq_ok BodySink.additive_collect holds narrow moderate body with
      ⟨content, rest, read, after, narrow', room⟩
    rw [read, if_pos chunked]
    exact ⟨content, rest, rfl, after, narrow', room⟩
  · rw [if_neg chunked] at ran ⊢
    rw [if_neg chunked]
    cases contentLength with
    | none =>
        cases ran
        refine ⟨[], input, rfl, ?_, narrow, fun _ => trivial⟩
        rw [List.append_nil]
        exact holds.after
    | some size =>
        rcases run_bind_eq_ok ran with ⟨_, _, body, same⟩
        cases same
        have spec := readFixedBodyStream_of_holds config.limits size BodySink.additive_collect
          config.requestBodyDeadline holds
        cases read : Grammar.fixedBody config.limits size input with
        | none =>
            rcases spec.rejects read rfl with ⟨_, _, failed, -⟩
            rw [body] at failed
            cases failed
        | some parts =>
            rcases spec.accepts read with ⟨_, done, after, fewer⟩
            rw [body] at done
            cases done
            refine ⟨parts.1, parts.2, ?_, after, fewer.trans narrow, fun _ => trivial⟩
            simp [read]

theorem readRequestBody_of_room (ready : conn.Ready config.limits input ended)
    (moderate : Moderate (Grammar.contentChunks announced input))
    (read : Grammar.uncappedContent config.limits announced contentLength input =
      some (request, content, rest))
    (room : Grammar.Room config.limits conn.buffer.size 0 (Grammar.contentChunks announced input)) :
    Returns ((readRequestBody config .collect announced contentLength).run conn) request
      fun conn' => conn'.Ready config.limits rest ended ∧ conn'.body = conn.body ++ content := by
  rcases ready with ⟨holds, writable, _⟩
  simp only [readRequestBody, Grammar.uncappedContent, Grammar.contentChunks]
    at read moderate room ⊢
  by_cases chunked : announced.chunked = true
  · rw [if_pos chunked] at read moderate room ⊢
    rcases Option.map_eq_some_iff.mp read with ⟨⟨content', _, rest'⟩, body, same⟩
    cases same
    rcases readChunkedBodyStream_of_room config.requestBodyDeadline BodySink.additive_collect holds
      moderate body room with ⟨conn', ran, after, _⟩
    rw [run_bind, ran]
    exact ⟨conn', rfl, ⟨after.holds, writable.of_after after, by omega⟩, after.body_eq⟩
  · rw [if_neg chunked] at read ⊢
    cases contentLength with
    | none =>
        cases read
        rw [List.append_nil]
        exact ⟨conn, rfl, ⟨holds, writable, by omega⟩, rfl⟩
    | some size =>
        rcases Option.map_eq_some_iff.mp read with ⟨⟨content', rest'⟩, body, same⟩
        cases same
        rcases (readFixedBodyStream_of_holds config.limits size BodySink.additive_collect
          config.requestBodyDeadline holds).accepts body with ⟨conn', ran, after, _⟩
        simp only [run_bind, ran]
        exact ⟨conn', rfl, ⟨after.holds, writable.of_after after, by omega⟩, after.body_eq⟩

theorem finishRequest_eq_ok (ready : conn.Ready config.limits input true)
    (held : length ≤ conn.buffer.size)
    (moderate : Moderate (Grammar.headChunks head (input.drop length)))
    (ran : (finishRequest config .collect length head).run conn = .ok request conn') :
    ∃ content rest, Grammar.uncappedBody config.limits head (input.drop length) =
        some (request, content, rest) ∧ conn'.body = conn.body ++ content ∧
      conn'.Ready config.limits rest true ∧
      (conn.Trickles → Grammar.Room config.limits (conn.buffer.size - length) 0
        (Grammar.headChunks head (input.drop length))) := by
  simp only [finishRequest, Grammar.uncappedBody, Grammar.headChunks] at ran moderate ⊢
  cases framed : requestOfHead head with
  | error _ =>
      rw [framed] at ran
      cases ran
  | ok pair =>
      rcases pair with ⟨announced, contentLength⟩
      simp only [framed] at ran moderate ⊢
      rw [run_bind, run_modify] at ran
      dsimp only at ran
      split at ran
      · cases ran
      next supported =>
        rcases ready.bodyStart held announced contentLength with
          ⟨_, sent, ready', body, size, arrivals⟩
        rw [run_bind, sent] at ran
        rcases readRequestBody_eq_ok ready'.holds ready'.size_le moderate ran with
          ⟨content, rest, read, after, narrow, room⟩
        rw [if_neg supported, ← size]
        refine ⟨content, rest, read, by rw [after.body_eq, body],
          ⟨after.holds, ready'.writable.of_after after, narrow⟩, ?_⟩
        intro trickles
        apply room
        rw [Conn.Trickles, arrivals]
        exact trickles

theorem finishRequest_of_room (ready : conn.Ready config.limits input ended)
    (held : length ≤ conn.buffer.size)
    (moderate : Moderate (Grammar.headChunks head (input.drop length)))
    (read : Grammar.uncappedBody config.limits head (input.drop length) =
      some (request, content, rest))
    (room : Grammar.Room config.limits (conn.buffer.size - length) 0
      (Grammar.headChunks head (input.drop length))) :
    Returns ((finishRequest config .collect length head).run conn) request fun conn' =>
      conn'.Ready config.limits rest ended ∧ conn'.body = conn.body ++ content := by
  simp only [finishRequest, Grammar.uncappedBody, Grammar.headChunks] at read moderate room ⊢
  cases framed : requestOfHead head with
  | error _ =>
      rw [framed] at read
      cases read
  | ok pair =>
      rcases pair with ⟨announced, contentLength⟩
      simp only [framed] at read moderate room ⊢
      split at read
      · cases read
      next supported =>
        rcases ready.bodyStart held announced contentLength with ⟨_, sent, ready', body, size, -⟩
        rw [← size] at room
        rcases readRequestBody_of_room ready' moderate read room with ⟨conn', ran, left, filled⟩
        simp only [run_bind, run_modify, if_neg supported, sent, ran]
        exact ⟨conn', rfl, left, by rw [filled, body]⟩

variable {input : Bytes} {config : Config} {conn : Conn} {length : ℕ} {head : RequestHead}

theorem Grammar.requestChunks_of_complete {parser : HeadParser} {maxHeaderCount : ℕ}
    (complete : parser.request maxHeaderCount input 0 = .complete length head) :
    requestChunks parser maxHeaderCount input = headChunks head (input.drop length) := by
  rw [requestChunks, complete]

section Request

variable (config : Config) {arrivals : List Arrival} {input : Bytes} {request : Request}
  (stable : PrefixStable (config.parser.request config.limits.maxHeaderCount))
  (moderate : Moderate
    (Grammar.requestChunks config.parser config.limits.maxHeaderCount input))
include stable moderate

/-- What the reader accepts, the grammar without the buffer cap accepts. -/
theorem readRequest_eq_ok {conn' : Conn} (clean : contents arrivals = some (input, true))
    (ran : (readRequest config).run (Conn.fresh arrivals) = .ok (some request) conn') :
    ∃ rest, Grammar.uncappedRequest config.parser config.limits input = some (request, rest) ∧
      conn'.Ready config.limits rest true ∧
      ((Conn.fresh arrivals).Trickles →
        Grammar.StreamRoom config.parser config.limits input) := by
  have outcome := readRequestStream_outcome .collect stable (Conn.ready_fresh config.limits clean)
  rw [readRequest, run_bind, run_modify] at ran
  rcases run_bind_eq_ok ran with ⟨received, _, streamed, same⟩
  replace streamed : (readRequestStream config .collect).run (Conn.fresh arrivals) = _ := streamed
  generalize (readRequestStream config .collect).run (Conn.fresh arrivals) = result
    at outcome streamed
  cases outcome with
  | @found lastLen _ _ state here noneYet lazily =>
      rcases run_bind_eq_ok streamed with ⟨_, _, finished, last⟩
      cases last
      cases same
      have whole := stable.of_take here.complete
      rw [Grammar.requestChunks_of_complete whole] at moderate
      rcases finishRequest_eq_ok here.ready here.held moderate finished with
        ⟨_, rest, read, filled, left, room⟩
      refine ⟨rest, ?_, left, ?_⟩
      · rw [Grammar.uncappedRequest, here.whole stable]
        dsimp only
        rw [read, filled, here.body_eq]
        rfl
      · intro trickles count length' head' complete
        rcases lazily trickles with ⟨trickles', _⟩
        have empty : (Conn.fresh arrivals).buffer.size = 0 := rfl
        have enough : state.buffer.size ≤ count := by
          by_contra fewer
          apply noneYet length' head'
          rw [here.ready.holds.view_eq_take, List.take_take]
          exact stable.take_mono (by omega) complete
        have again := stable.of_take complete
        rw [whole] at again
        cases again
        rw [Grammar.requestChunks_of_complete whole]
        exact Grammar.Room.mono (by omega) (room trickles')
  | nothing =>
      cases streamed
      cases same
  | refused | waiting => cases streamed

/-- With room in the buffer the reader accepts what the uncapped grammar accepts. -/
theorem readRequest_of_room {ended : Bool} {rest : Bytes}
    (clean : contents arrivals = some (input, ended))
    (read : Grammar.uncappedRequest config.parser config.limits input = some (request, rest))
    (room : Grammar.StreamRoom config.parser config.limits input) :
    Returns ((readRequest config).run (Conn.fresh arrivals)) (some request) fun conn' =>
      conn'.Ready config.limits rest ended := by
  have outcome := readRequestStream_outcome .collect stable (Conn.ready_fresh config.limits clean)
  have start : ({ Conn.fresh arrivals with body := [] } : Conn) = Conn.fresh arrivals := rfl
  simp only [readRequest, run_bind, run_modify, start]
  generalize (readRequestStream config .collect).run (Conn.fresh arrivals) = result at outcome
  rw [Grammar.uncappedRequest] at read
  split at read
  next length head complete =>
    rcases Option.map_eq_some_iff.mp read with ⟨⟨_, _, _⟩, body, same⟩
    cases same
    cases outcome with
    | found here _ _ =>
        cases complete.symm.trans (here.whole stable)
        have whole := stable.of_take here.complete
        have behind := room _ _ _ here.complete
        rw [Grammar.requestChunks_of_complete whole] at moderate behind
        rcases finishRequest_of_room here.ready here.held moderate body behind with
          ⟨conn', ran, left, filled⟩
        rw [run_bind, ran]
        refine ⟨conn', ?_, left⟩
        simp [filled, here.body_eq, Conn.fresh]
    | nothing none | refused none | waiting none => exact absurd complete (none _ _)
  · cases read

end Request

theorem readRequest_of_ending {config : Config} {arrivals : List Arrival} {conn' : Conn}
    {received : Option Request}
    (ran : (readRequest config).run (Conn.fresh arrivals) = .ok received conn') :
    (readRequest config).run (Conn.fresh (arrivals ++ [.eof])) =
      .ok received (conn'.change (extend [.eof])) := by
  have follows := (unnoticed_extend [.eof]).readRequest config (Conn.fresh arrivals)
  rw [ran] at follows
  exact follows

/-- A request that is returned under some limits is returned under larger ones, however the
stream is cut in the two runs, exactly if the larger limits leave room for its chunks. -/
theorem raised_limits_iff (parser : HeadParser) (limits limits' : Limits)
    (timeouts timeouts' : IoTimeouts) {arrivals : List Arrival} {input : Bytes} {ended : Bool}
    {request : Request} {conn' : Conn}
    (stable : PrefixStable (parser.request limits.maxHeaderCount))
    (count : limits'.maxHeaderCount = limits.maxHeaderCount)
    (longer : limits.maxHeaderBytes ≤ limits'.maxHeaderBytes)
    (larger : limits.maxBodyBytes ≤ limits'.maxBodyBytes)
    (sizes : ∀ chunk ∈ Grammar.requestChunks parser limits.maxHeaderCount input,
      chunk.size < 2 ^ 63)
    (clean : contents arrivals = some (input, ended))
    (returned : (readRequest ⟨parser, limits, timeouts⟩).run (Conn.fresh arrivals) =
      .ok (some request) conn') :
    (∀ arrivals', contents arrivals' = some (input, ended) →
      ∃ conn'', (readRequest ⟨parser, limits', timeouts'⟩).run (Conn.fresh arrivals') =
        .ok (some request) conn'') ↔
      Grammar.StreamRoom parser limits' input := by
  have stable' : PrefixStable (parser.request limits'.maxHeaderCount) := by
    rw [count]
    exact stable
  have before : Moderate (Grammar.requestChunks parser limits.maxHeaderCount input) := by
    intro chunk member
    have small := sizes chunk member
    omega
  have moderate : Moderate (Grammar.requestChunks parser limits'.maxHeaderCount input) := by
    rw [count]
    exact before
  -- both readers are looked at on the stream that ends
  have ending : ∀ {config : Config} {arrivals : List Arrival} {conn' : Conn},
      contents arrivals = some (input, ended) →
      (readRequest config).run (Conn.fresh arrivals) = .ok (some request) conn' →
      ∃ conn'', contents (arrivals ++ [.eof]) = some (input, true) ∧
        (readRequest config).run (Conn.fresh (arrivals ++ [.eof])) = .ok (some request) conn'' := by
    intro _ _ _ clean ran
    refine ⟨_, ?_, readRequest_of_ending ran⟩
    cases ended with
    | true => exact contents_append _ clean
    | false =>
        rw [contents_append_of_open _ clean]
        simp [contents]
  rcases ending clean returned with ⟨_, clean', returned'⟩
  rcases readRequest_eq_ok ⟨parser, limits, timeouts⟩ stable before clean' returned' with
    ⟨_, read, -⟩
  have raised := Grammar.uncappedRequest_mono longer larger count stable read
  constructor
  · intro always
    rcases always _ (contents_trickle input ended) with ⟨conn₁, ran⟩
    rcases ending (contents_trickle input ended) ran with ⟨_, clean₂, ran₂⟩
    rcases readRequest_eq_ok ⟨parser, limits', timeouts'⟩ stable' moderate clean₂ ran₂ with
      ⟨-, -, -, room⟩
    apply room
    intro piece member
    rcases List.mem_append.mp member with single | final
    · exact Conn.trickles_of_trickle
        (rfl : (Conn.fresh (trickle input ended)).stream.arrivals = _) piece single
    · simp at final
  · intro room _ clean'
    rcases readRequest_of_room ⟨parser, limits', timeouts'⟩ stable' moderate clean' raised room with
      ⟨conn₁, ran, -⟩
    exact ⟨conn₁, ran⟩

/-- A chunked request with a body of one byte. -/
def smallUpload : Bytes :=
  ascii "POST / HTTP/1.1\r\nTransfer-Encoding: chunked\r\n\r\n1\r\na\r\n0\r\n\r\n"

def generousLimits : Limits := { maxBodyBytes := 2 ^ 40 }

def unlimited : Limits := { maxBodyBytes := 2 ^ 64 - 1 }

theorem raised_limits_iff_generous :
    ∃ request : Request, request.body = ascii "a" ∧
      ∀ arrivals, contents arrivals = some (smallUpload, true) →
        ∃ conn', (readRequest ⟨Reference.duplexParser, generousLimits, {}⟩).run
          (Conn.fresh arrivals) = .ok (some request) conn' := by
  have read : ((readRequest duplexConfig).run' (Conn.fresh [.data smallUpload, .eof])).map
      (Option.map Request.body) = some (some (ascii "a")) := by
    decide +kernel
  rcases Option.map_eq_some_iff.mp read with ⟨_, returned, found⟩
  rcases Option.map_eq_some_iff.mp found with ⟨request, rfl, body⟩
  delta EStateM.run' at returned
  split at returned
  next ran =>
    cases returned
    have chunks : Grammar.requestChunks Reference.duplexParser 100 smallUpload = [⟨3, 1⟩] := by
      decide +kernel
    have sizes : ∀ chunk ∈ Grammar.requestChunks Reference.duplexParser 100 smallUpload,
        chunk.size < 2 ^ 63 := by
      decide +kernel
    have clean : contents [.data smallUpload, .eof] = some (smallUpload, true) := by
      decide +kernel
    have raised := raised_limits_iff Reference.duplexParser {} generousLimits {} {}
      (Reference.prefixStable_request 100) rfl le_rfl (by decide) sizes clean ran
    refine ⟨_, ?_, raised.mpr ?_⟩
    · exact body
    · intro count length _ _
      have room : Grammar.Room generousLimits (count - length) 0 [⟨3, 1⟩] :=
        ⟨.inr (by decide), trivial⟩
      exact room
  · cases returned

/-- The largest limit for the body: `max_body_bytes - total + 2` wraps to one, and the chunk, of
which nothing has been read yet, is refused. -/
theorem unlimited_refuses :
    PrefixStable (Reference.duplexParser.request 100) ∧
      (∀ chunk ∈ Grammar.requestChunks Reference.duplexParser 100 smallUpload,
        chunk.size < 2 ^ 63) ∧
      contents [.data (smallUpload.take 50), .data (smallUpload.drop 50), .eof] =
        some (smallUpload, true) ∧
      ((readRequest ⟨Reference.duplexParser, {}, {}⟩).run
        (Conn.fresh [.data (smallUpload.take 50), .data (smallUpload.drop 50), .eof])
          matches .ok (some _) _) ∧
      ((readRequest ⟨Reference.duplexParser, unlimited, {}⟩).run
        (Conn.fresh [.data (smallUpload.take 50), .data (smallUpload.drop 50), .eof])
          matches .error (.http 413 "HTTP body too large") _) := by
  refine ⟨Reference.prefixStable_request 100, ?_, ?_, ?_, ?_⟩
  · decide +kernel
  · decide +kernel
  · decide +kernel
  · decide +kernel

end Corouv.Http
