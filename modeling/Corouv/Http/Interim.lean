import Corouv.Http.ExchangeCorrect

/-!
# Interim responses

Callers of `read_response` and `read_response_stream` are to get the first response that
is not an interim one.  The reader skips interim responses; the writer of a request that
expects `100 Continue` does not.  If another interim response comes first, it is kept as
the response to the request.
-/

namespace Corouv.Http

open Library Io
open EStateM (run_bind run_get run_pure run_modify)

namespace Exchange

def runAll (config : Config) (defaultHost : Bytes) : List Exchange → Task Conn (List Response)
  | [] => pure []
  | exchange :: later => do
      let response ← exchange.run config defaultHost
      let responses ← runAll config defaultHost later
      pure (response :: responses)

end Exchange

/-- What the peer sends, message by message: for each exchange any number of interim
responses and then the response to it, of which the last may extend to the end of the
stream.  `responses` are those that are not interim ones, as they are to be returned. -/
inductive Answered (config : Config) : List Exchange → Bytes → Bool → List Response → Prop
  | nothing {input : Bytes} {ended : Bool} : Answered config [] input ended []
  | interim {exchange : Exchange} {later : List Exchange} {input content rest : Bytes}
      {ended : Bool} {first : Response} {responses : List Response}
      (read : Grammar.response config.parser config.limits exchange.request.method false input =
        some (first, content, some rest))
      (interim : isInformational first.status = true)
      (others : Answered config (exchange :: later) rest ended responses) :
      Answered config (exchange :: later) input ended responses
  | delimited {exchange : Exchange} {later : List Exchange} {input content rest : Bytes}
      {ended : Bool} {first : Response} {responses : List Response}
      (read : Grammar.response config.parser config.limits exchange.request.method false input =
        some (first, content, some rest))
      (final : isInformational first.status = false)
      (others : Answered config later rest ended responses) :
      Answered config (exchange :: later) input ended
        (exchange.reader.returned first content :: responses)
  | untilClose {exchange : Exchange} {input content : Bytes} {first : Response}
      (read : Grammar.response config.parser config.limits exchange.request.method false input =
        some (first, content, none)) :
      Answered config [exchange] input true [exchange.reader.returned first content]

/-- Every exchange is answered so, each with what the peer sends from then on. -/
def ContinuesOnlyAll (config : Config) (defaultHost : Bytes) : List Exchange → Bytes → Prop
  | [], _ => True
  | exchange :: later, input =>
      exchange.writer.ContinuesOnly config exchange.request defaultHost input ∧
      ∀ first content rest,
        Grammar.response config.parser config.limits exchange.request.method true input =
          some (first, content, some rest) → ContinuesOnlyAll config defaultHost later rest

section Reading

variable {config : Config} {requestMethod input content : Bytes} {ended : Bool} {conn : Conn}
  {first : Response} {rest : Option Bytes}

variable (stable : PrefixStable (config.parser.response config.limits.maxHeaderCount))
include stable

variable {defaultHost : Bytes} {exchange : Exchange}

section

variable (supported : ¬(exchange.request.versionMinor < 0 ∨ exchange.request.versionMinor > 1))
include supported

/-- Otherwise the interim response is what the exchange returns. -/
theorem Exchange.run_of_not_continuesOnly (awaits : conn.Awaits config.limits input ended)
    (other : ¬exchange.writer.ContinuesOnly config exchange.request defaultHost input) :
    ∃ response conn', (exchange.run config defaultHost).run conn = .ok response conn' ∧
      isInformational response.status = true := by
  simp only [RequestWriter.ContinuesOnly, not_forall] at other
  rcases other with ⟨waits, first, _, _, head, interim, other⟩
  have message := Grammar.firstMessage stable exchange.request.method input
  rw [head] at message
  cases message with
  | final final _ =>
      rw [interim] at final
      cases final
  | interim _ _ _ =>
      rcases Exchange.run_of_waits stable supported waits awaits head (by simp) with
        ⟨_, left, kept, -⟩
      rcases read_of_kept config exchange.request.method exchange.reader first [] left with
        ⟨after, ran, -⟩
      refine ⟨exchange.reader.returned first [], after, (kept other).trans ran, ?_⟩
      cases exchange.reader with
      | whole | stream => exact interim

end

variable {later : List Exchange}

/-- The response to the first exchange, and what follows it. -/
theorem Answered.uncons {responses : List Response}
    (answered : Answered config (exchange :: later) input ended responses) :
    ∃ first content rest others,
      Grammar.response config.parser config.limits exchange.request.method true input =
        some (first, content, rest) ∧ isInformational first.status = false ∧
      responses = exchange.reader.returned first content :: others ∧
      ((∃ unread, rest = some unread ∧ Answered config later unread ended others) ∨
        (rest = none ∧ ended = true ∧ later = [] ∧ others = [])) := by
  generalize same : exchange :: later = exchanges at answered
  induction answered with
  | nothing => cases same
  | @interim _ _ input _ _ _ _ _ read interim _ ih =>
      cases same
      have message := Grammar.firstMessage stable exchange.request.method input
      rw [read] at message
      cases message with
      | final final _ =>
          rw [interim] at final
          cases final
      | interim _ skipped _ =>
          rw [skipped]
          exact ih rfl
  | @delimited _ _ input content rest _ first responses read final others _ =>
      cases same
      have message := Grammar.firstMessage stable exchange.request.method input
      rw [read] at message
      cases message with
      | final _ same =>
          exact ⟨first, content, some rest, responses, same, final, rfl, .inl ⟨rest, rfl, others⟩⟩
      | interim interim _ _ =>
          rw [interim] at final
          cases final
  | @untilClose _ input content first read =>
      cases same
      have message := Grammar.firstMessage stable exchange.request.method input
      rw [read] at message
      cases message with
      | final final same =>
          exact ⟨first, content, none, [], same, final, rfl, .inr ⟨rfl, rfl, rfl, rfl⟩⟩

omit stable in
theorem ResponseReader.returned_status (reader : ResponseReader) (first : Response)
    (content : Bytes) : (reader.returned first content).status = first.status := by
  cases reader with
  | whole | stream => rfl

theorem Answered.isFinal : ∀ {exchanges : List Exchange} {input : Bytes}
    {responses : List Response}, Answered config exchanges input ended responses →
      ∀ response ∈ responses, isInformational response.status = false := by
  intro exchanges
  induction exchanges with
  | nil =>
      intro _ _ answered
      cases answered
      simp
  | cons exchange _ ih =>
      intro _ _ answered
      rcases answered.uncons stable with ⟨first, content, _, _, -, final, rfl, behind⟩
      have head : isInformational (exchange.reader.returned first content).status = false := by
        rw [ResponseReader.returned_status]
        exact final
      rcases behind with ⟨_, -, answered⟩ | ⟨-, -, -, rfl⟩
      · exact List.forall_mem_cons.mpr ⟨head, ih answered⟩
      · exact List.forall_mem_cons.mpr ⟨head, by simp⟩

omit stable in
theorem Exchange.runAll_cons_eq_ok_iff {after : Conn} {response : Response}
    {others : List Response} :
    (Exchange.runAll config defaultHost (exchange :: later)).run conn =
        .ok (response :: others) after ↔
      ∃ conn', (exchange.run config defaultHost).run conn = .ok response conn' ∧
        (Exchange.runAll config defaultHost later).run conn' = .ok others after := by
  constructor
  · intro ran
    rcases run_bind_eq_ok ran with ⟨_, conn', first, rest⟩
    rcases run_bind_eq_ok rest with ⟨_, _, second, same⟩
    cases same
    exact ⟨conn', first, second⟩
  · rintro ⟨_, first, second⟩
    simp only [runAll, run_bind, first, second, run_pure]

/-- A run of exchanges returns the final responses exactly if no interim one but `100` is in the
way. -/
theorem Exchange.runAll_eq_ok_iff :
    ∀ {exchanges : List Exchange} {conn : Conn} {input : Bytes} {responses : List Response},
      (∀ exchange ∈ exchanges,
        ¬(exchange.request.versionMinor < 0 ∨ exchange.request.versionMinor > 1)) →
      conn.Awaits config.limits input ended →
      Answered config exchanges input ended responses →
      ((∃ conn', (Exchange.runAll config defaultHost exchanges).run conn = .ok responses conn') ↔
        ContinuesOnlyAll config defaultHost exchanges input) := by
  intro exchanges
  induction exchanges with
  | nil =>
      intro conn input _ supported awaits answered
      cases answered
      exact ⟨fun _ => trivial, fun _ => ⟨conn, rfl⟩⟩
  | cons exchange later ih =>
      intro _ input _ supported awaits answered
      rcases List.forall_mem_cons.mp supported with ⟨supportedFirst, supportedLater⟩
      rcases answered.uncons stable with ⟨first, content, rest, others, read, final, rfl, behind⟩
      have ending : rest = none → ended = true := by
        rintro rfl
        rcases behind with ⟨unread, same, -⟩ | ⟨-, ends, -⟩
        · cases same
        · exact ends
      simp only [Exchange.runAll_cons_eq_ok_iff, ContinuesOnlyAll]
      by_cases continues : exchange.writer.ContinuesOnly config exchange.request defaultHost input
      · rcases exchange.run_of_continuesOnly stable supportedFirst awaits read ending continues with
          ⟨conn', ran, left⟩
        -- the others run from the state in which this exchange leaves the connection
        have others_iff : (∃ after, (Exchange.runAll config defaultHost later).run conn' =
            .ok others after) ↔ ∀ unread, rest = some unread →
              ContinuesOnlyAll config defaultHost later unread := by
          rcases behind with ⟨unread, rfl, answered⟩ | ⟨rfl, -, rfl, rfl⟩
          · rw [ih supportedLater ⟨left.2 unread rfl, left.1⟩ answered]
            simp
          · exact ⟨fun _ => by simp, fun _ => ⟨conn', rfl⟩⟩
        constructor
        · rintro ⟨after, _, same, ranLater⟩
          rw [ran] at same
          cases same
          refine ⟨continues, ?_⟩
          intro _ _ unread read'
          rw [read] at read'
          cases read'
          exact others_iff.mp ⟨after, ranLater⟩ unread rfl
        · rintro ⟨-, continuesLater⟩
          have ranLater : ∃ after, (Exchange.runAll config defaultHost later).run conn' =
              .ok others after := by
            apply others_iff.mpr
            rintro unread rfl
            exact continuesLater first content unread read
          rcases ranLater with ⟨after, ranLater⟩
          exact ⟨after, conn', ran, ranLater⟩
      · constructor
        · rintro ⟨_, _, ran, -⟩
          rcases exchange.run_of_not_continuesOnly stable supportedFirst awaits continues with
            ⟨_, _, ran', interim⟩
          rw [ran] at ran'
          cases ran'
          rw [ResponseReader.returned_status, final] at interim
          cases interim
        · rintro ⟨continues', -⟩
          exact absurd continues' continues

end Reading

/-- Requests are written and responses are read in turn, and the peer sends a response to
each with any number of interim responses before it.  The callers get these responses, of
which none is an interim one, if and only if no interim response but `100 Continue` comes
first while the body of a request is held back. -/
theorem final_responses_iff {config : Config} {exchanges : List Exchange} {input : Bytes}
    {ended : Bool} {conn : Conn} {responses : List Response} (defaultHost : Bytes)
    (stable : PrefixStable (config.parser.response config.limits.maxHeaderCount))
    (supported : ∀ exchange ∈ exchanges,
      ¬(exchange.request.versionMinor < 0 ∨ exchange.request.versionMinor > 1))
    (awaits : conn.Awaits config.limits input ended)
    (answered : Answered config exchanges input ended responses) :
    ((∃ conn', (Exchange.runAll config defaultHost exchanges).run conn = .ok responses conn') ↔
      ContinuesOnlyAll config defaultHost exchanges input) ∧
    ∀ response ∈ responses,
      response.status < 100 ∨ response.status > 199 ∨ response.status = 101 := by
  refine ⟨Exchange.runAll_eq_ok_iff stable supported awaits answered, ?_⟩
  intro response mem
  have final := answered.isFinal stable response mem
  simp only [isInformational, decide_eq_false_iff_not] at final
  omega

/-- A request whose body is held back. -/
def upload : Exchange :=
  ⟨{ method := ascii "POST", headers := [⟨ascii "Expect", ascii "100-continue"⟩],
     body := ascii "x" }, .whole, .whole⟩

def download : Exchange :=
  ⟨{}, .whole, .stream⟩

def earlyHintsBytes : Bytes := ascii "HTTP/1.1 103 Early Hints\r\n\r\n"

def earlyHints : Response :=
  { status := 103, reason := ascii "Early Hints" }

def okBytes (text : String) : Bytes :=
  ascii "HTTP/1.1 200 OK\r\nContent-Length: 1\r\n\r\n" ++ ascii text

def okResponse (body : Bytes) : Response :=
  { reason := ascii "OK", headers := [⟨ascii "Content-Length", ascii "1"⟩], body := body }

/-- `100 Continue` and other interim responses before the first response, one more before
the second. -/
def interleavedBytes : Bytes :=
  continueBytes ++ (earlyHintsBytes ++ (okBytes "A" ++ (earlyHintsBytes ++ okBytes "B")))

theorem final_responses_iff_interleaved :
    Answered referenceConfig [upload, download] interleavedBytes false
        [okResponse (ascii "A"), okResponse []] ∧
      ∃ conn', (Exchange.runAll referenceConfig [] [upload, download]).run
        (Conn.fresh [.data interleavedBytes]) =
          .ok [okResponse (ascii "A"), okResponse []] conn' := by
  have hundred : Grammar.response referenceConfig.parser referenceConfig.limits
      upload.request.method false interleavedBytes =
        some ({ status := 100, reason := ascii "Continue" }, [],
          some (earlyHintsBytes ++ (okBytes "A" ++ (earlyHintsBytes ++ okBytes "B")))) := by
    decide +kernel
  have hints : Grammar.response referenceConfig.parser referenceConfig.limits
      upload.request.method false
        (earlyHintsBytes ++ (okBytes "A" ++ (earlyHintsBytes ++ okBytes "B"))) =
        some (earlyHints, [], some (okBytes "A" ++ (earlyHintsBytes ++ okBytes "B"))) := by
    decide +kernel
  have first : Grammar.response referenceConfig.parser referenceConfig.limits
      upload.request.method false (okBytes "A" ++ (earlyHintsBytes ++ okBytes "B")) =
        some (okResponse [], ascii "A", some (earlyHintsBytes ++ okBytes "B")) := by
    decide +kernel
  have hints' : Grammar.response referenceConfig.parser referenceConfig.limits
      download.request.method false (earlyHintsBytes ++ okBytes "B") =
        some (earlyHints, [], some (okBytes "B")) := by
    decide +kernel
  have second : Grammar.response referenceConfig.parser referenceConfig.limits
      download.request.method false (okBytes "B") = some (okResponse [], ascii "B", some []) := by
    decide +kernel
  have answered : Answered referenceConfig [upload, download] interleavedBytes false
      [okResponse (ascii "A"), okResponse []] :=
    .interim hundred rfl (.interim hints rfl (.delimited first rfl
      (.interim hints' rfl (.delimited second rfl .nothing))))
  have awaits : (Conn.fresh [.data interleavedBytes]).Awaits referenceConfig.limits
      interleavedBytes false := ⟨Conn.ready_fresh _ rfl, rfl⟩
  refine ⟨answered, ((final_responses_iff [] (Reference.contract referenceConfig.limits).stable
    (by decide) awaits answered).1).mpr ⟨?_, ?_⟩⟩
  · intro _ _ _ _ read _
    rw [hundred] at read
    cases read
    rfl
  · intro _ _ _ _
    refine ⟨?_, fun _ _ _ _ => trivial⟩
    intro waits
    exact absurd waits (by decide)

/-- The head of a request is answered with `103 Early Hints`, which its caller gets for the
response. -/
theorem early_hints_returned :
    Answered referenceConfig [upload] (earlyHintsBytes ++ okBytes "A") false
        [okResponse (ascii "A")] ∧
      ((Exchange.runAll referenceConfig [] [upload]).run (Conn.fresh
        [.data (earlyHintsBytes ++ okBytes "A")]) matches .ok [{ status := 103, .. }] _) := by
  have hints : Grammar.response referenceConfig.parser referenceConfig.limits
      upload.request.method false (earlyHintsBytes ++ okBytes "A") =
        some (earlyHints, [], some (okBytes "A")) := by
    decide +kernel
  have final : Grammar.response referenceConfig.parser referenceConfig.limits
      upload.request.method false (okBytes "A") = some (okResponse [], ascii "A", some []) := by
    decide +kernel
  refine ⟨.interim hints rfl (.delimited final rfl .nothing), ?_⟩
  decide +kernel

end Corouv.Http
