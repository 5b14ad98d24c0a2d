import Corouv.Http.Client
import Corouv.Http.Framing
import Corouv.Http.SentRequest

/-!
# One exchange on a ready connection

A request is written and its response is read.  A request that expects `100 Continue` is
written in two parts with a response read in between; if that is already the final response,
it is kept and the body is not sent.
-/

namespace Corouv.Http

open Library Io
open EStateM (run_bind run_get run_pure run_modify)

theorem responseOfHead_body {head : ResponseHead} {response : Response} {contentLength : Option ℕ}
    (announced : responseOfHead head = .ok (response, contentLength)) : response.body = [] := by
  simp only [responseOfHead] at announced
  split at announced
  · cases announced
  · split at announced
    · cases announced
    · split at announced
      · cases announced
      · cases announced
        rfl

namespace Grammar

variable {limits : Limits} {requestMethod content : Bytes} {first : Response} {rest : Option Bytes}

theorem finalBody_eq_some {response : Response} {contentLength : Option ℕ} {input : Bytes}
    (read : finalBody limits requestMethod response contentLength input =
      some (first, content, rest)) :
    first.status = response.status ∧ first.body = response.body ∧
      (rest = none → first.keepAlive = false) := by
  simp only [finalBody] at read
  split at read
  · split at read
    · rcases Option.map_eq_some_iff.mp read with ⟨_, -, same⟩
      cases same
      exact ⟨rfl, rfl, by simp⟩
    · split at read
      · rcases Option.map_eq_some_iff.mp read with ⟨_, -, same⟩
        cases same
        exact ⟨rfl, rfl, by simp⟩
      · split at read
        · cases read
          exact ⟨rfl, rfl, by simp⟩
        next closing =>
          split at read
          · cases read
            exact ⟨rfl, rfl, fun _ => by simpa using closing⟩
          · cases read
  · cases read
    exact ⟨rfl, rfl, by simp⟩

/-- The content is not yet in the response, and one that extends to the end of the stream does
not leave the connection alive. -/
theorem responseWithin_eq_some {parser : HeadParser} {skipInformational : Bool} :
    ∀ (fuel : ℕ) (input : Bytes),
      responseWithin parser limits requestMethod skipInformational fuel input =
        some (first, content, rest) →
      first.body = [] ∧ (rest = none → first.keepAlive = false) := by
  intro fuel
  induction fuel with
  | zero =>
      intro _ read
      cases read
  | succ _ ih =>
      intro _ read
      simp only [responseWithin] at read
      split at read
      · split at read
        · cases read
        next response contentLength announced =>
          have empty := responseOfHead_body announced
          split at read
          · rcases Option.bind_eq_some_iff.mp read with ⟨unread, -, later⟩
            split at later
            · exact ih unread later
            · cases later
              exact ⟨empty, by simp⟩
          · rcases finalBody_eq_some read with ⟨-, body, closing⟩
            exact ⟨body.trans empty, closing⟩
      · cases read

section Skipping

variable {parser : HeadParser} {limits : Limits} {input : Bytes}
  (stable : PrefixStable (parser.response limits.maxHeaderCount)) (requestMethod : Bytes)
include stable

/-- The first message of the input, whatever it is, tells what reading the response
comes to. -/
inductive FirstMessage (parser : HeadParser) (limits : Limits) (requestMethod input : Bytes) :
    Option (Response × Bytes × Option Bytes) → Prop
  | rejected (refused : response parser limits requestMethod true input = none) :
      FirstMessage parser limits requestMethod input none
  | final {first : Response} {content : Bytes} {rest : Option Bytes}
      (final : isInformational first.status = false)
      (same : response parser limits requestMethod true input = some (first, content, rest)) :
      FirstMessage parser limits requestMethod input (some (first, content, rest))
  | interim {first : Response} {rest : Bytes} (interim : isInformational first.status = true)
      (skipped : response parser limits requestMethod true input =
        response parser limits requestMethod true rest)
      (bodies : ∀ body ∈ unsizedInputs parser limits true rest,
        body ∈ unsizedInputs parser limits true input) :
      FirstMessage parser limits requestMethod input (some (first, [], some rest))

theorem firstMessage (input : Bytes) : FirstMessage parser limits requestMethod input
    (response parser limits requestMethod false input) := by
  by_cases none : NoHead (parser.response limits.maxHeaderCount) (input.take limits.maxHeaderBytes)
  · rw [response_of_noHead requestMethod false none]
    exact .rejected (response_of_noHead requestMethod true none)
  · simp only [NoHead, not_forall, not_not] at none
    rcases none with ⟨length, head, found⟩
    cases announced : responseOfHead head with
    | error _ =>
        rw [response_of_badHead requestMethod false found announced]
        exact .rejected (response_of_badHead requestMethod true found announced)
    | ok framed =>
        rcases framed with ⟨announcedResponse, contentLength⟩
        have skipping := response_of_head stable requestMethod true found announced
        rw [response_of_head stable requestMethod false found announced]
        by_cases interim : isInformational announcedResponse.status = true
        · simp only [interim, if_true, Bool.false_eq_true, if_false] at skipping ⊢
          cases behind : interimRest limits announcedResponse contentLength (input.drop length) with
          | none =>
              rw [behind] at skipping
              exact .rejected skipping
          | some _ =>
              rw [behind] at skipping
              apply FirstMessage.interim interim skipping
              intro body mem
              rw [unsizedInputs_of_head stable true found announced]
              apply List.mem_append_right
              simpa [interim, behind] using mem
        · simp only [interim, Bool.false_eq_true, if_false] at skipping ⊢
          cases body : finalBody limits requestMethod announcedResponse contentLength
              (input.drop length) with
          | none =>
              rw [body] at skipping
              exact .rejected skipping
          | some read =>
              rcases read with ⟨_, _, _⟩
              rw [body] at skipping
              have status := (finalBody_eq_some body).1
              exact .final (by rw [status]; simpa using interim) skipping

theorem unsizedInputs_subset (input : Bytes) : ∀ body ∈ unsizedInputs parser limits false input,
    body ∈ unsizedInputs parser limits true input := by
  by_cases none : NoHead (parser.response limits.maxHeaderCount) (input.take limits.maxHeaderBytes)
  · rw [unsizedInputs_of_noHead false none]
    simp
  · simp only [NoHead, not_forall, not_not] at none
    rcases none with ⟨_, head, found⟩
    cases announced : responseOfHead head with
    | error _ =>
        have nothing : unsizedInputs parser limits false input = [] := by
          simp [unsizedInputs, unsizedInputsWithin, found, announced]
        simp [nothing]
    | ok framed =>
        rw [unsizedInputs_of_head stable false found announced,
          unsizedInputs_of_head stable true found announced]
        intro _ mem
        simp only [Bool.false_eq_true, and_false, if_false, List.append_nil] at mem
        exact List.mem_append_left _ mem

end Skipping

end Grammar

/-- The two functions that read a response; the second hands the body to a callback. -/
inductive ResponseReader where
  | whole
  | stream

namespace ResponseReader

def read (config : Config) (requestMethod : Bytes) : ResponseReader → Task Conn Response
  | .whole => readResponse config requestMethod
  | .stream => readResponseStream config requestMethod .collect

/-- What is returned for a response with the given content. -/
def returned (response : Response) (content : Bytes) : ResponseReader → Response
  | .whole => { response with body := content }
  | .stream => { response with body := [] }

end ResponseReader

/-- One request with its response, on a connection. -/
structure Exchange where
  request : Request
  writer : RequestWriter
  reader : ResponseReader

namespace Exchange

def run (config : Config) (defaultHost : Bytes) (exchange : Exchange) : Task Conn Response := do
  exchange.writer.write config exchange.request defaultHost
  exchange.reader.read config exchange.request.method

end Exchange

/-- The server does not answer a head whose body is held back with an interim response other
than `100 Continue`. -/
def RequestWriter.ContinuesOnly (config : Config) (request : Request) (hostHeader input : Bytes)
    (writer : RequestWriter) : Prop :=
  writer.waits request hostHeader = true → ∀ first content rest,
    Grammar.response config.parser config.limits request.method false input =
      some (first, content, rest) → isInformational first.status = true → first.status = 100

/-- No response is kept, and what follows the one that was read is still there. -/
def Conn.Leaves (conn : Conn) (limits : Limits) (ended : Bool) (rest : Option Bytes) : Prop :=
  conn.prefetchedResponse = none ∧ ∀ unread, rest = some unread → conn.Ready limits unread ended

section Reading

variable {config : Config} {requestMethod input content : Bytes} {ended : Bool} {conn : Conn}
  {first : Response} {rest : Option Bytes}

theorem Conn.Awaits.withWritten (awaits : conn.Awaits config.limits input ended) (data : Bytes) :
    (conn.withWritten [] data).Awaits config.limits input ended :=
  ⟨awaits.1.withWritten data, awaits.2⟩

theorem Conn.Received.leaves {before after : Conn} {limits : Limits}
    (received : before.Received after limits ended content rest)
    (none : before.prefetchedResponse = none) : after.Leaves limits ended rest :=
  ⟨received.prefetched_eq.trans none, received.left⟩

variable (stable : PrefixStable (config.parser.response config.limits.maxHeaderCount))
include stable

theorem read_of_awaits (reader : ResponseReader) (awaits : conn.Awaits config.limits input ended)
    (read : Grammar.response config.parser config.limits requestMethod true input =
      some (first, content, rest)) (ending : rest = none → ended = true) :
    Returns ((reader.read config requestMethod).run conn) (reader.returned first content)
      fun conn' => conn'.Leaves config.limits ended rest := by
  cases reader with
  | whole =>
      have spec := collectResponse_of_ready requestMethod true stable awaits.1
      rcases spec.accepts read ending with ⟨conn', ran, received⟩
      exact ⟨conn', (readResponse_run_none requestMethod awaits.2).trans ran,
        received.leaves awaits.2⟩
  | stream =>
      have spec := readResponseStreamImpl_of_ready requestMethod true stable awaits.1
      rcases spec.accepts read ending with ⟨conn', ran, received⟩
      have bare : ({ first with body := [] } : Response) = first := by
        rw [← (Grammar.responseWithin_eq_some _ _ read).1]
      refine ⟨conn', ?_, received.leaves awaits.2⟩
      simp only [ResponseReader.read, readResponseStream, run_bind, run_get,
        awaits.2, ResponseReader.returned, bare]
      exact ran

theorem awaitContinue_of_message (ready : conn.Ready config.limits input ended)
    (read : Grammar.response config.parser config.limits requestMethod false input =
      some (first, content, rest)) (ending : rest = none → ended = true) :
    ∃ conn' : Conn, conn'.prefetchedResponse = conn.prefetchedResponse ∧
      (∀ unread, rest = some unread → conn'.Ready config.limits unread ended) ∧
      (awaitContinue config requestMethod).run conn =
        if first.status = 100 then .ok true conn'
        else
          .ok false { conn' with prefetchedResponse := some { first with body := content } } := by
  have spec := collectResponse_of_ready requestMethod false stable ready
  rcases spec.accepts read ending with ⟨conn', ran, received⟩
  refine ⟨conn', received.prefetched_eq, received.left, ?_⟩
  rw [awaitContinue, run_bind, ran]
  by_cases hundred : first.status = 100
  · simp only [hundred, ne_eq, not_true_eq_false, if_false, if_true]
    rfl
  · simp only [hundred, ne_eq, not_false_eq_true, if_true, if_false]
    rfl

theorem readResponse_of_rejected {requestMethod : Bytes}
    (awaits : conn.Awaits config.limits input true)
    (rejected : Grammar.response config.parser config.limits requestMethod true input = none)
    (sane : Sane config.limits (Grammar.unsizedInputs config.parser config.limits true input)) :
    Refuses ((readResponse config requestMethod).run conn) := by
  have spec := collectResponse_of_ready requestMethod true stable awaits.1
  rw [readResponse_run_none requestMethod awaits.2]
  exact spec.rejects rejected ⟨rfl, sane⟩

omit stable in
theorem read_of_kept (config : Config) (requestMethod : Bytes) (reader : ResponseReader)
    (first : Response) (content : Bytes) (left : conn.Leaves config.limits ended rest) :
    Returns ((reader.read config requestMethod).run
        { conn with prefetchedResponse := some { first with body := content } })
      (reader.returned first content) fun conn' => conn'.Leaves config.limits ended rest := by
  cases reader with
  | whole =>
      refine ⟨{ conn with prefetchedResponse := none }, rfl, rfl, ?_⟩
      intro unread same
      exact (left.2 unread same).congr rfl rfl
  | stream =>
      by_cases empty : content = []
      · refine ⟨{ conn with prefetchedResponse := none }, ?_, rfl, ?_⟩
        · subst content
          rfl
        · intro unread same
          exact (left.2 unread same).congr rfl rfl
      · refine ⟨{ conn with prefetchedResponse := none }.onChunk .collect none content, ?_, rfl, ?_⟩
        · simp only [ResponseReader.read, readResponseStream, ResponseReader.returned,
            run_bind, run_get, run_modify, ne_eq, empty, not_false_eq_true, if_true, run_pure]
        · intro unread same
          exact (left.2 unread same).congr rfl rfl

variable {defaultHost : Bytes} {exchange : Exchange}

section

variable (supported : ¬(exchange.request.versionMinor < 0 ∨ exchange.request.versionMinor > 1))
include supported

/-- A final response in place of `100 Continue` is kept for the read that follows. -/
theorem Exchange.run_of_waits (waits : exchange.writer.waits exchange.request defaultHost = true)
    (awaits : conn.Awaits config.limits input ended)
    (read : Grammar.response config.parser config.limits exchange.request.method false input =
      some (first, content, rest)) (ending : rest = none → ended = true) :
    ∃ conn' : Conn, conn'.Leaves config.limits ended rest ∧
      (first.status ≠ 100 → (exchange.run config defaultHost).run conn =
        (exchange.reader.read config exchange.request.method).run
          { conn' with prefetchedResponse := some { first with body := content } }) ∧
      (first.status = 100 → conn'.Writable → (exchange.run config defaultHost).run conn =
        (exchange.reader.read config exchange.request.method).run
          (conn'.withWritten [] (exchange.writer.content exchange.request))) := by
  have written := exchange.writer.write_run config exchange.request defaultHost
    awaits.1.writable supported
  rw [if_pos waits] at written
  have sent := awaits.withWritten (exchange.writer.head exchange.request defaultHost)
  rcases awaitContinue_of_message stable sent.1 read ending with ⟨conn', kept, left, answered⟩
  refine ⟨conn', ⟨kept.trans sent.2, left⟩, ?_, ?_⟩
  · intro other
    rw [if_neg other] at answered
    simp only [run, run_bind, written, answered]
    rfl
  · intro hundred writable
    rw [if_pos hundred] at answered
    simp only [run, run_bind, written, answered, exchange.writer.finish_run _ _ writable]

omit stable in
theorem Exchange.run_of_not_waits
    (proceeds : ¬exchange.writer.waits exchange.request defaultHost = true)
    (awaits : conn.Awaits config.limits input ended) :
    ∃ conn' : Conn, conn'.Awaits config.limits input ended ∧
      (exchange.run config defaultHost).run conn =
        (exchange.reader.read config exchange.request.method).run conn' := by
  have written := exchange.writer.write_run config exchange.request defaultHost
    awaits.1.writable supported
  rw [if_neg proceeds] at written
  have sent := awaits.withWritten (exchange.writer.head exchange.request defaultHost)
  refine ⟨_, sent.withWritten (exchange.writer.content exchange.request), ?_⟩
  simp only [run, run_bind, written]

/-- An exchange returns the final response where all interim ones are `100 Continue`. -/
theorem Exchange.run_of_continuesOnly (awaits : conn.Awaits config.limits input ended)
    (read : Grammar.response config.parser config.limits exchange.request.method true input =
      some (first, content, rest)) (ending : rest = none → ended = true)
    (continues : exchange.writer.ContinuesOnly config exchange.request defaultHost input) :
    Returns ((exchange.run config defaultHost).run conn) (exchange.reader.returned first content)
      fun conn' => conn'.Leaves config.limits ended rest := by
  by_cases waits : exchange.writer.waits exchange.request defaultHost = true
  · have message := Grammar.firstMessage stable exchange.request.method input
    cases head : Grammar.response config.parser config.limits exchange.request.method false
        input with
    | none =>
        rw [head] at message
        cases message with
        | rejected refused =>
            rw [refused] at read
            cases read
    | some _ =>
        rw [head] at message
        cases message with
        | @final _ _ behind final same =>
            rw [read] at same
            cases same
            rcases Exchange.run_of_waits stable supported waits awaits head ending with
              ⟨conn', left, kept, -⟩
            have other : first.status ≠ 100 := by
              intro hundred
              rw [hundred] at final
              cases final
            rw [kept other]
            exact read_of_kept config _ exchange.reader first content left
        | @interim _ behind interim skipped _ =>
            rcases Exchange.run_of_waits stable supported waits awaits head (by simp) with
              ⟨conn', left, -, continued⟩
            have ready := left.2 behind rfl
            have behindAwaits : conn'.Awaits config.limits behind ended := ⟨ready, left.1⟩
            rw [continued (continues waits _ _ _ head interim) ready.writable]
            rw [skipped] at read
            exact read_of_awaits stable exchange.reader
              (Conn.Awaits.withWritten behindAwaits _) read ending
  · rcases Exchange.run_of_not_waits supported waits awaits with ⟨_, sent, ran⟩
    rw [ran]
    exact read_of_awaits stable exchange.reader sent read ending

end

end Reading

section Calls

variable {config : Config} {request : Request} {hostHeader input : Bytes} {ended : Bool}
  {conn : Conn}

theorem exchange_of_unsupported (config : Config) (hostHeader : Bytes)
    (unsupported : request.versionMinor < 0 ∨ request.versionMinor > 1) (conn : Conn) :
    (exchange config request hostHeader).run conn = .error unsupportedVersion conn := by
  have refused := RequestWriter.whole.write_unsupported config request hostHeader unsupported
  rw [RequestWriter.write] at refused
  rw [exchange, refused]
  rfl

variable (stable : PrefixStable (config.parser.response config.limits.maxHeaderCount))
  (supported : ¬(request.versionMinor < 0 ∨ request.versionMinor > 1))
  (continues : RequestWriter.whole.ContinuesOnly config request hostHeader input)
include stable supported continues

/-- The call returns the response that was sent for it, and nothing is left of that response
on a connection that stays. -/
theorem exchange_of_whole {received : Response} (awaits : conn.Awaits config.limits input ended)
    (whole : WholeResponse config request.method input ended received) :
    Returns ((exchange config request hostHeader).run conn) received fun conn' =>
      conn'.prefetchedResponse = none ∧
        (received.keepAlive = true → conn'.Ready config.limits [] ended) := by
  rcases whole with ⟨_, _, rest, read, ending, rfl⟩
  have atEnd : rest = none → ended = true := by
    rintro rfl
    simpa using ending
  rcases (Exchange.mk request .whole .whole).run_of_continuesOnly stable supported
    awaits read atEnd continues with ⟨conn', ran, none, left⟩
  refine ⟨conn', ran, none, ?_⟩
  intro persistent
  rcases ending with rfl | ⟨rfl, -⟩
  · exact left [] rfl
  · cases persistent.symm.trans ((Grammar.responseWithin_eq_some _ _ read).2 rfl)

/-- No exchange returns on input that the grammar rejects. -/
theorem exchange_of_rejected (awaits : conn.Awaits config.limits input true)
    (rejected : Grammar.response config.parser config.limits request.method true input = none)
    (sane : Sane config.limits (Grammar.unsizedInputs config.parser config.limits true input))
    (response : Response) (conn' : Conn) :
    (exchange config request hostHeader).run conn ≠ .ok response conn' := by
  intro ran
  by_cases waits : RequestWriter.whole.waits request hostHeader = true
  · have message := Grammar.firstMessage stable request.method input
    cases head : Grammar.response config.parser config.limits request.method false input with
    | none =>
        have sane' := sane.mono (Grammar.unsizedInputs_subset stable input)
        rcases (collectResponse_of_ready request.method false stable
          (awaits.1.withWritten (RequestWriter.whole.head request hostHeader))).rejects head
          ⟨rfl, sane'⟩ with ⟨_, _, failed, -⟩
        have written := RequestWriter.whole.write_run config request hostHeader awaits.1.writable
          supported
        rw [if_pos waits, awaitContinue, run_bind, run_bind, failed] at written
        rw [exchange, run_bind, ← RequestWriter.write, written] at ran
        cases ran
    | some _ =>
        rw [head] at message
        cases message with
        | final _ same => cases rejected.symm.trans same
        | @interim _ behind interim skipped bodies =>
            rcases (Exchange.mk request .whole .whole).run_of_waits stable supported
              waits awaits head (by simp) with ⟨_, left, -, continued⟩
            have ready := left.2 behind rfl
            rcases readResponse_of_rejected stable (Conn.Awaits.withWritten ⟨ready, left.1⟩
              (RequestWriter.whole.content request)) (skipped.symm.trans rejected)
              (sane.mono bodies) with ⟨_, _, failed, -⟩
            cases ran.symm.trans ((continued (continues waits _ _ _ head interim)
              ready.writable).trans failed)
  · rcases (Exchange.mk request .whole .whole).run_of_not_waits supported waits
      awaits with ⟨_, sent, ran'⟩
    rcases readResponse_of_rejected stable sent rejected sane with ⟨_, _, failed, -⟩
    cases ran.symm.trans (ran'.trans failed)

end Calls

end Corouv.Http
