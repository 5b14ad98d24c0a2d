import Corouv.Http.ReferenceParser

/-!
# Writer and reader agree on where a response ends

`write_response` and `read_response` decide separately whether a response with a
`Content-Length` has a body on the wire.  They agree except for an interim response
with a body: the writer announces its length and leaves it out, and the reader skips
that many bytes of the next response.
-/

namespace Corouv.Http

open Library Io

/-- The bytes `write_response` puts on the wire. -/
def responseBytes (config : Config) (response : Response) (requestMethod : Bytes) : Bytes :=
  (endState ((writeResponse config response requestMethod).run {})).stream.written

/-- `second` is a whole response and nothing else, to be received as `received`. -/
def WholeResponse (config : Config) (requestMethod second : Bytes) (ended : Bool)
    (received : Response) : Prop :=
  ∃ response content rest,
    Grammar.response config.parser config.limits requestMethod true second =
        some (response, content, rest) ∧
      (rest = some [] ∨ (rest = none ∧ ended = true)) ∧
      received = { response with body := content }

/-- The connection holds the bytes and no response has been read ahead. -/
def Conn.Awaits (conn : Conn) (limits : Limits) (unread : Bytes) (ended : Bool) : Prop :=
  conn.Ready limits unread ended ∧ conn.prefetchedResponse = none

/-- Nothing is left of the input, or the connection has been closed at its end. -/
def Conn.Exhausted (conn : Conn) (limits : Limits) (ended : Bool) : Prop :=
  conn.Ready limits [] ended ∨ (ended = true ∧ conn.stream.isOpen = false)

/-- The body a reader is to get. -/
def Response.deliveredBody (response : Response) (requestMethod : Bytes) : Bytes :=
  if responseHasBody response.status requestMethod then response.body else []

/-- Reading what was written takes exactly the bytes of the message, whatever
complete response follows: an interim response is skipped, and any other is returned
with its body and followed by the second response. -/
structure Framed (config : Config) (response : Response) (requestMethod : Bytes) : Prop where
  interim : isInformational response.status = true →
    ∀ second ended received conn, WholeResponse config requestMethod second ended received →
      conn.Awaits config.limits (responseBytes config response requestMethod ++ second) ended →
        Returns ((readResponse config requestMethod).run conn) received fun conn' =>
          conn'.Exhausted config.limits ended
  final : isInformational response.status = false →
    ∀ second ended conn,
      conn.Awaits config.limits (responseBytes config response requestMethod ++ second) ended →
        ∃ first, first.status = response.status ∧
          first.body = response.deliveredBody requestMethod ∧
          Returns ((readResponse config requestMethod).run conn) first fun conn' =>
            conn'.Awaits config.limits second ended ∧
              ∀ nextMethod received, WholeResponse config nextMethod second ended received →
                Returns ((readResponse config nextMethod).run conn') received fun conn'' =>
                  conn''.Exhausted config.limits ended

variable {config : Config} {response : Response} {limits : Limits}

/-- A sized response on the wire is its head and the body that its method and status allow. -/
theorem responseBytes_eq (requestMethod : Bytes) (wellFormed : response.WellFormed)
    (fixed : response.chunked = false) :
    responseBytes config response requestMethod =
      response.sentHead ++ response.deliveredBody requestMethod := by
  have fresh : ({} : Conn).Writable := ⟨rfl, rfl⟩
  have supported : ¬(response.versionMinor < 0 ∨ response.versionMinor > 1) := by
    rcases wellFormed.version with _ | _
    · omega
    · omega
  have head : responseHeadBytes response (prepareOutgoingHeaders response.headers
      response.keepAlive false response.body.length) = response.sentHead := rfl
  simp only [responseBytes, writeResponse, fixed, Bool.false_eq_true, if_false, if_neg supported,
    EStateM.run_bind, fresh.sendAll_run, head, Response.deliveredBody]
  by_cases bodied : responseHasBody response.status requestMethod = true
  · by_cases empty : response.body = []
    · simp only [bodied, empty, ne_eq, not_true_eq_false, and_false, if_false, if_true,
        List.append_nil]
      rfl
    · simp only [bodied, empty, ne_eq, not_false_eq_true, and_true, if_true,
        fresh.sendAll_run_withWritten]
      rfl
  · simp only [bodied, Bool.false_eq_true, false_and, if_false, List.append_nil]
    rfl

variable {parser : HeadParser} {requestMethod second : Bytes} {ended : Bool} {received : Response}

theorem ResponseContract.found (contract : ResponseContract parser limits)
    (wellFormed : response.WellFormed) (fits : response.FitsLimits limits) (rest : Bytes) :
    parser.response limits.maxHeaderCount ((response.sentHead ++ rest).take limits.maxHeaderBytes)
      0 = .complete response.sentHead.length response.parsedHead :=
  contract.stable.take_append (contract.parsesBack response wellFormed fits.count) fits.head rest

theorem Response.FitsLimits.body_lt (fits : response.FitsLimits limits) :
    response.body.length < 2 ^ 64 :=
  fits.body.trans_lt limits.maxBodyBytes_lt

theorem Grammar.response_sentHead {sent : Response} (contract : ResponseContract parser limits)
    (wellFormed : sent.WellFormed) (fits : sent.FitsLimits limits) (requestMethod rest : Bytes) :
    Grammar.response parser limits requestMethod true (sent.sentHead ++ rest) =
      if isInformational sent.status then
        (fixedBody limits sent.body.length rest).bind fun read =>
          Grammar.response parser limits requestMethod true read.2
      else finalBody limits requestMethod sent.announced (some sent.body.length) rest := by
  have announced := responseOfHead_parsedHead fits.body_lt
  have reading := Grammar.response_of_head contract.stable requestMethod true
    (contract.found wellFormed fits rest) announced
  simp only [List.drop_left, if_true] at reading
  rw [reading]
  simp only [interimRest, Response.announced, Bool.false_eq_true, if_false]
  split
  · cases fixedBody limits sent.body.length rest with
    | none | some read => rfl
  · rfl

theorem readResponse_of_wholeResponse {input : Bytes} {conn : Conn}
    (stable : PrefixStable (config.parser.response config.limits.maxHeaderCount))
    (whole : WholeResponse config requestMethod second ended received)
    (skips : Grammar.response config.parser config.limits requestMethod true input =
      Grammar.response config.parser config.limits requestMethod true second)
    (awaits : conn.Awaits config.limits input ended) :
    Returns ((readResponse config requestMethod).run conn) received fun conn' =>
      conn'.Exhausted config.limits ended := by
  have spec := collectResponse_of_ready requestMethod true stable awaits.1
  rcases whole with ⟨_, _, rest, read, ending, rfl⟩
  have closing : rest = none → ended = true := by
    rintro rfl
    simpa using ending
  rcases spec.accepts (skips.trans read) closing with ⟨conn', ran, taken⟩
  refine ⟨conn', (readResponse_run_none requestMethod awaits.2).trans ran, ?_⟩
  rcases ending with rfl | ⟨rfl, final⟩
  · exact .inl (taken.left [] rfl)
  · exact .inr ⟨final, taken.closed rfl⟩

section Agreement

variable {config : Config} {response : Response} {requestMethod : Bytes}

variable (contract : ResponseContract config.parser config.limits)
  (wellFormed : response.WellFormed) (fixed : response.chunked = false)
  (fits : response.FitsLimits config.limits)
include contract wellFormed fixed fits

theorem Framed.of_final (final : isInformational response.status = false) :
    Framed config response requestMethod := by
  refine ⟨fun interim => absurd (interim.symm.trans final) (by simp), ?_⟩
  intro _ second ended _ awaits
  rw [responseBytes_eq requestMethod wellFormed fixed, List.append_assoc] at awaits
  have read : Grammar.response config.parser config.limits requestMethod true
      (response.sentHead ++ (response.deliveredBody requestMethod ++ second)) =
        some (response.announced, response.deliveredBody requestMethod, some second) := by
    rw [Grammar.response_sentHead contract wellFormed fits]
    simp only [final, Bool.false_eq_true, if_false, Grammar.finalBody, Response.announced,
      Response.deliveredBody]
    by_cases bodied : responseHasBody response.status requestMethod = true
    · simp [bodied, Grammar.fixedBody_append second fits.body]
    · simp [bodied]
  have spec := collectResponse_of_ready requestMethod true contract.stable awaits.1
  rcases spec.accepts read (by simp) with ⟨conn', ran, taken⟩
  have next : conn'.Awaits config.limits second ended :=
    ⟨taken.left second rfl, taken.prefetched_eq.trans awaits.2⟩
  refine ⟨_, ?_, rfl, conn', (readResponse_run_none requestMethod awaits.2).trans ran, next, ?_⟩
  · rfl
  · intro _ _ whole
    exact readResponse_of_wholeResponse contract.stable whole rfl next

theorem Framed.of_empty (interim : isInformational response.status = true)
    (empty : response.body = []) : Framed config response requestMethod := by
  refine ⟨?_, fun final => absurd (interim.symm.trans final) (by simp)⟩
  intro _ _ _ _ _ whole awaits
  rw [responseBytes_eq requestMethod wellFormed fixed, List.append_assoc] at awaits
  apply readResponse_of_wholeResponse contract.stable whole _ awaits
  have none : response.deliveredBody requestMethod = [] := by
    simp [Response.deliveredBody, empty]
  rw [Grammar.response_sentHead contract wellFormed fits, none, empty]
  simp [interim, Grammar.fixedBody]

end Agreement

/-- A short response to be misread. -/
def probe : Response :=
  { status := 204, reason := ascii "k", keepAlive := false }

theorem probe_wellFormed : probe.WellFormed := by
  refine ⟨by decide, .inr rfl, by decide +kernel, by decide +kernel, ?_⟩
  intro _ mem
  cases mem

theorem probe_version_at_start (count : ℕ) (positive : 0 < count) :
    ¬ascii "HTTP/1." <+: probe.sentHead.drop count := by
  intro starts
  have bound := starts.length_le
  have size : probe.sentHead.length = 56 := by decide +kernel
  have name : (ascii "HTTP/1.").length = 7 := rfl
  simp only [List.length_drop, size, name] at bound
  have checked : ∀ count < 56, 0 < count → ¬ascii "HTTP/1." <+: probe.sentHead.drop count := by
    decide +kernel
  exact checked count (by omega) positive starts

theorem Response.sentHeaders_eq (response : Response) : ∃ older : Headers,
    response.sentHeaders = older ++
      [⟨ascii "Connection", if response.keepAlive then ascii "keep-alive" else ascii "close"⟩,
        ⟨ascii "Content-Length", Numeral.digits 10 response.body.length⟩] := by
  have different : iequals (ascii "Connection") (ascii "Content-Length") = false := by decide
  refine ⟨eraseHeader (eraseHeader (eraseHeader (eraseHeader (eraseHeader response.headers
    (ascii "Connection")) (ascii "Content-Length")) (ascii "Transfer-Encoding"))
      (ascii "Connection")) (ascii "Content-Length"), ?_⟩
  simp only [Response.sentHeaders, prepareOutgoingHeaders, Bool.false_eq_true, if_false, setHeader]
  simp [eraseHeader, different]

theorem ascii_ite_ne_nil {condition : Prop} [Decidable condition] {text other : String}
    (first : ascii text ≠ []) (second : ascii other ≠ []) :
    ascii (if condition then text else other) ≠ [] := by
  split
  · exact first
  · exact second

theorem sentReason_ne_nil (response : Response) : response.sentReason ≠ [] := by
  simp only [Response.sentReason]
  split
  · simp only [reasonPhrase]
    repeat apply ascii_ite_ne_nil (by decide)
    decide
  next given => exact given

variable {limits : Limits}

theorem probe_fits {response : Response} (wellFormed : response.WellFormed)
    (fits : response.FitsLimits limits) : probe.FitsLimits limits := by
  rcases response.sentHeaders_eq with ⟨older, fields⟩
  have minor := List.length_pos_iff.mpr (Numeral.digits_ne_nil 10 response.versionMinor.natAbs)
  have length := List.length_pos_iff.mpr (Numeral.digits_ne_nil 10 response.body.length)
  have reason := List.length_pos_iff.mpr (sentReason_ne_nil response)
  have status : 2 < (Numeral.digits 10 response.status.natAbs).length := by
    have enough := Numeral.lt_pow_length_digits (by norm_num : 2 ≤ 10) (by norm_num)
      response.status.natAbs
    apply (Nat.pow_lt_pow_iff_right (by norm_num : 1 < 10)).mp
    have lower := wellFormed.status.1
    omega
  refine ⟨?_, ?_, Nat.zero_le _⟩
  · apply le_trans _ fits.head
    have size : probe.sentHead.length = 56 := by decide +kernel
    have connection : 5 ≤
        (if response.keepAlive then ascii "keep-alive" else ascii "close").length := by
      cases response.keepAlive with
      | true | false => decide
    have nonneg : 0 ≤ response.versionMinor := by
      rcases wellFormed.version with _ | _
      · omega
      · omega
    have head : response.sentHead.length = 7 + (Numeral.digits 10
        response.versionMinor.natAbs).length + 1 + (Numeral.digits 10
        response.status.natAbs).length + 1 + response.sentReason.length + 2 +
        (serializeHeaders response.sentHeaders).length + 2 := by
      rw [Response.sentHead, responseHeadBytes, intToString_of_nonneg nonneg,
        intToString_of_nonneg (by have lower := wellFormed.status.1; omega)]
      simp only [List.length_append]
      rfl
    have lines : (serializeHeaders response.sentHeaders).length =
        (serializeHeaders older).length + (10 + 2 +
          (if response.keepAlive then ascii "keep-alive" else ascii "close").length + 2) +
          (14 + 2 + (Numeral.digits 10 response.body.length).length + 2) := by
      rw [fields]
      simp only [serializeHeaders, List.flatMap_append, List.flatMap_cons, List.flatMap_nil,
        List.length_append, List.append_nil, Nat.add_assoc]
      rfl
    omega
  · have count := fits.count
    have two : probe.sentHeaders.length = 2 := by decide +kernel
    simp only [fields, List.length_append, List.length_cons, List.length_nil] at count
    omega

theorem noHead_probe {parser : HeadParser} (contract : ResponseContract parser limits) {count : ℕ}
    (positive : 0 < count) :
    NoHead (parser.response limits.maxHeaderCount)
      ((probe.sentHead.drop count).take limits.maxHeaderBytes) := by
  intro _ _ complete
  apply probe_version_at_start count positive
  exact (contract.version complete).trans (List.take_prefix _ _)

theorem wholeResponse_probe {config : Config} (requestMethod : Bytes) (ended : Bool)
    (contract : ResponseContract config.parser config.limits)
    (fits : probe.FitsLimits config.limits) :
    WholeResponse config requestMethod probe.sentHead ended probe.announced := by
  refine ⟨probe.announced, [], some [], ?_, .inl rfl, rfl⟩
  have read := Grammar.response_sentHead contract probe_wellFormed fits requestMethod []
  rw [List.append_nil] at read
  rw [read, if_neg (by decide), Grammar.finalBody, if_neg]
  simp [responseHasBody, Response.announced, probe]

theorem responseHasBody_of_interim {status : ℤ} (requestMethod : Bytes)
    (interim : isInformational status = true) : responseHasBody status requestMethod = false := by
  simp only [isInformational, decide_eq_true_eq] at interim
  simp only [responseHasBody]
  split
  · rfl
  · exact if_pos ⟨interim.1, interim.2.1⟩

section Agreement

variable {config : Config} {response : Response} {requestMethod : Bytes}

/-- The reader loses its place behind an interim response with a body. -/
theorem readResponse_refuses_probe (requestMethod : Bytes)
    (contract : ResponseContract config.parser config.limits) (wellFormed : response.WellFormed)
    (fits : response.FitsLimits config.limits)
    (interim : isInformational response.status = true) (nonempty : response.body ≠ [])
    {conn : Conn} (awaits : conn.Awaits config.limits (response.sentHead ++ probe.sentHead) true) :
    Refuses ((readResponse config requestMethod).run conn) := by
  have positive := List.length_pos_iff.mpr nonempty
  have noHead := noHead_probe contract positive
  have rejected : Grammar.response config.parser config.limits requestMethod true
      (response.sentHead ++ probe.sentHead) = none := by
    rw [Grammar.response_sentHead contract wellFormed fits, if_pos interim]
    apply Option.bind_eq_none_iff.mpr
    intro _ skipped
    rcases Grammar.fixedBody_eq_some skipped with ⟨-, -, -, behind⟩
    rw [behind]
    exact Grammar.response_of_noHead requestMethod true noHead
  have announced := responseOfHead_parsedHead fits.body_lt
  have bodies := Grammar.unsizedInputs_of_head contract.stable true
    (contract.found wellFormed fits probe.sentHead) announced
  have sized : Grammar.unsizedInputs config.parser config.limits true
      (response.sentHead ++ probe.sentHead) = [] := by
    rw [bodies, List.drop_left]
    simp only [Response.announced, Bool.false_eq_true, reduceCtorEq, or_self, if_false,
      interim, true_and, if_true, List.nil_append, Grammar.interimRest]
    split
    next rest skipped =>
      rcases Option.map_eq_some_iff.mp skipped with ⟨_, body, rfl⟩
      rcases Grammar.fixedBody_eq_some body with ⟨-, -, -, behind⟩
      rw [behind]
      exact Grammar.unsizedInputs_of_noHead true noHead
    · rfl
  have spec := collectResponse_of_ready requestMethod true contract.stable awaits.1
  rw [readResponse_run_none requestMethod awaits.2]
  exact spec.rejects rejected ⟨rfl, by simp [sized, Sane]⟩

/-- An informational response that is framed has no body. -/
theorem Framed.body_eq_nil (contract : ResponseContract config.parser config.limits)
    (wellFormed : response.WellFormed) (fixed : response.chunked = false)
    (fits : response.FitsLimits config.limits) (interim : isInformational response.status = true)
    (framed : Framed config response requestMethod) : response.body = [] := by
  by_contra nonempty
  have whole := wholeResponse_probe requestMethod true contract (probe_fits wellFormed fits)
  have bytes : responseBytes config response requestMethod = response.sentHead := by
    rw [responseBytes_eq requestMethod wellFormed fixed, Response.deliveredBody,
      responseHasBody_of_interim requestMethod interim]
    simp
  have awaits : (Conn.fresh [.data (response.sentHead ++ probe.sentHead), .eof]).Awaits
      config.limits (response.sentHead ++ probe.sentHead) true :=
    ⟨Conn.ready_fresh config.limits (by simp [contents]), rfl⟩
  have returns := framed.interim interim _ true _ _ whole (by rw [bytes]; exact awaits)
  rcases returns with ⟨_, ran, -⟩
  rcases readResponse_refuses_probe requestMethod contract wellFormed fits interim nonempty awaits
    with ⟨_, _, failed, -⟩
  rw [ran] at failed
  cases failed

end Agreement

/-- Writer and reader agree about a response unless it is an interim response with a
body. -/
theorem framed_iff (config : Config) (response : Response) (requestMethod : Bytes)
    (contract : ResponseContract config.parser config.limits) (wellFormed : response.WellFormed)
    (fixed : response.chunked = false) (fits : response.FitsLimits config.limits) :
    Framed config response requestMethod ↔
      ¬(isInformational response.status = true ∧ response.body ≠ []) := by
  constructor
  · rintro framed ⟨interim, nonempty⟩
    exact nonempty (framed.body_eq_nil contract wellFormed fixed fits interim)
  · intro agree
    cases interim : isInformational response.status with
    | false => exact Framed.of_final contract wellFormed fixed fits interim
    | true =>
        apply Framed.of_empty contract wellFormed fixed fits interim
        by_contra nonempty
        exact agree ⟨interim, nonempty⟩

def referenceConfig : Config :=
  { parser := Reference.parser }

/-- Early hints with a one-byte body, and the answer to a `HEAD` request. -/
theorem framed_iff_reference :
    ¬Framed referenceConfig { status := 103, body := ascii "x" } (ascii "GET") ∧
      Framed referenceConfig { status := 200, body := ascii "x" } (ascii "HEAD") := by
  constructor
  · apply (not_congr (framed_iff referenceConfig _ _ (Reference.contract _) _ rfl _)).mpr
    · decide
    · exact ⟨by decide, .inr rfl, by decide +kernel, by decide +kernel, by simp⟩
    · exact ⟨by decide +kernel, by decide +kernel, by decide⟩
  · apply (framed_iff referenceConfig _ _ (Reference.contract _) _ rfl _).mpr
    · decide
    · exact ⟨by decide, .inr rfl, by decide +kernel, by decide +kernel, by simp⟩
    · exact ⟨by decide +kernel, by decide +kernel, by decide⟩

/-- An interim response with a one-byte body, followed by a `204`: the reader takes
the first byte of the second head for the body and finds no response behind it. -/
theorem interim_body_misread :
    WholeResponse referenceConfig (ascii "GET") (responseBytes referenceConfig probe (ascii "GET"))
        true probe.announced ∧
      ((readResponse referenceConfig (ascii "GET")).run (Conn.fresh
        [.data (responseBytes referenceConfig { status := 103, body := ascii "x" } (ascii "GET")),
          .data (responseBytes referenceConfig probe (ascii "GET")), .eof]) matches
        .error (.http 502 _) _) := by
  refine ⟨⟨probe.announced, [], some [], ?_, .inl rfl, rfl⟩, ?_⟩
  · decide +kernel
  · decide +kernel

end Corouv.Http
