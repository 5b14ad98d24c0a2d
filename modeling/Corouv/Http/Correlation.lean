import Corouv.Http.ExchangeCorrect
import Corouv.Http.Unnoticed
import Corouv.Library.Transition

/-!
# Calls on a reused connection

`Client::request` and `web::Client::fetch` keep the connection after a call has thrown,
wherever in the response the reader then stands.  A caller who gives such a connection
up gets, for every request, the response the server sent for it; one who does not may
get the response to an earlier request.
-/

namespace Corouv.Http

open Library Io

/-- The bytes that arrive, however long the pauses, and whether the server then closes. -/
def Network.sent (network : Network) : Bytes × Bool :=
  (contents (network.arrivals.filter Arrival.isClean)).getD ([], false)

/-- `response` is what the server sent during the call. -/
def Network.Answers (config : Config) (requestMethod : Bytes) (network : Network)
    (response : Response) : Prop :=
  WholeResponse config requestMethod network.sent.1 network.sent.2 response

/-- The head of a request that expects `100 Continue` is answered with that or with the
final response. -/
def Network.ContinuesOnly (config : Config) (request : Request) (network : Network) : Prop :=
  expectsContinue request.headers = true → ∀ first content rest,
    Grammar.response config.parser config.limits request.method false network.sent.1 =
      some (first, content, rest) → isInformational first.status = true → first.status = 100

/-- The server sends one response, or something that no response begins with. -/
structure Network.Speaks (config : Config) (request : Request) (network : Network) : Prop where
  answer : (∃ response, network.Answers config request.method response) ∨
    (Grammar.response config.parser config.limits request.method true network.sent.1 = none ∧
      Sane config.limits (Grammar.unsizedInputs config.parser config.limits true network.sent.1))
  continues : network.ContinuesOnly config request

def Request.isSupported (request : Request) : Bool :=
  !decide (request.versionMinor < 0 ∨ request.versionMinor > 1)

/-- The call meets with no timeout and no failure, and a request that is sent is answered
with one response. -/
structure Network.Clean (config : Config) (request : Request) (network : Network) : Prop where
  departures_eq : network.departures = []
  arrivals : contents network.arrivals = some network.sent
  answer : request.isSupported = true → ∃ response, network.Answers config request.method response
  unsent : request.isSupported = false → network.arrivals = []
  continues : network.ContinuesOnly config request

structure Call where
  method : Bytes
  network : Network
  outcome : Except Exn Response

/-- A `web::Client` in use: whether a call on its present connection has thrown, and all
calls so far. -/
structure Session where
  web : WebClient := {}
  failed : Bool := false
  calls : List Call := []

inductive ClientEvent where
  | connect (url : Bytes) (connected : Except Exn Unit)
  | request (request : Request) (network : Network)
  | fetch (url : Bytes) (request : Request) (network : Network)
  | close

/-- `fetch` uses the connection that is there. -/
def WebClient.reuses (web : WebClient) (url : Bytes) : Bool :=
  match parseUrl url with
  | .ok parsed => web.matchesOrigin parsed && web.isConnected
  | .error _ => false

namespace Session

/-- A call that has come to an end; one that still waits is no step. -/
def record (session : Session) (failed : Bool) (method : Bytes) (network : Network) :
    EStateM.Result Exn WebClient Response → Option Session
  | .ok response web => some ⟨web, failed, session.calls ++ [⟨method, network, .ok response⟩]⟩
  | .error .suspended _ => none
  | .error .exhausted _ => none
  | .error error web => some ⟨web, true, session.calls ++ [⟨method, network, .error error⟩]⟩

def step (options : ClientOptions) (session : Session) : ClientEvent → Option Session
  | .connect url connected =>
      some { session with
        web := endState ((WebClient.connect url connected).run session.web), failed := false }
  | .request request network =>
      session.record session.failed request.method network
        ((WebClient.request options request).run (session.web.supply network))
  | .fetch url request network =>
      session.record (session.failed && session.web.reuses url) request.method network
        ((WebClient.fetch options url request network).run session.web)
  | .close => some { session with web := {}, failed := false }

/-- Every response that was returned is the one the server sent during that call. -/
def Correlated (config : Config) (session : Session) : Prop :=
  ∀ call ∈ session.calls, ∀ response, call.outcome = .ok response →
    call.network.Answers config call.method response

end Session

/-- A property of the connection that the next call would use. -/
def Client.Keeps (meets : Conn → Prop) (client : Client) : Prop :=
  ∀ conn, client.connection = some conn → conn.stream.isOpen = true → meets conn

def WebClient.Keeps (meets : Conn → Prop) (web : WebClient) : Prop :=
  ∀ client, web.impl = some client → client.Keeps meets

/-- No response has been read ahead and nothing the server sent is left unread, in the
buffer or on the way. -/
def Conn.AtBoundary (limits : Limits) (conn : Conn) : Prop :=
  conn.prefetchedResponse = none ∧ ∃ ended, (conn.change calm).Ready limits [] ended

/-- The client is disconnected or between two messages. -/
def Session.AtBoundary (config : Config) (session : Session) : Prop :=
  session.web.Keeps (Conn.AtBoundary config.limits)

/-- No connection is used again after a call on it has thrown. -/
def Session.Careful (config : Config) (session : Session) : ClientEvent → Prop
  | .request request network => (session.web.isConnected = true → session.failed = false) ∧
      network.Speaks config request
  | .fetch url request network => (session.web.reuses url = true → session.failed = false) ∧
      network.Speaks config request
  | _ => True

/-- No call meets with a failure, and none is made on a connection that the server has
closed. -/
def Session.Undisturbed (config : Config) (session : Session) : ClientEvent → Prop
  | .request request network => session.web.Keeps (fun conn => .eof ∉ conn.stream.arrivals) ∧
      network.Clean config request
  | .fetch url request network =>
      (session.web.reuses url = true → session.web.Keeps fun conn => .eof ∉ conn.stream.arrivals) ∧
        network.Clean config request
  | _ => True

section Lifting

variable {options : ClientOptions} {request : Request} {network : Network}
  {before after thrown : Conn → Prop} {returned : Response → Prop}

/-- A request as the clients pass it on: with another target or another `keep_alive`. -/
structure Request.Passed (request outgoing : Request) : Prop where
  method : outgoing.method = request.method
  headers : outgoing.headers = request.headers
  version : outgoing.versionMinor = request.versionMinor

/-- What the calls that `Client::request` makes with `request` do on a connection. -/
structure ExchangeSpec (options : ClientOptions) (request : Request) (network : Network)
    (before after thrown : Conn → Prop) (returned : Response → Prop) : Prop where
  fresh : before {}
  run : ∀ outgoing hostHeader conn, request.Passed outgoing → before conn →
    conn.stream.isOpen = true →
    match (exchange options.config outgoing hostHeader).run (conn.supply network) with
    | .ok response conn' => returned response ∧ (response.keepAlive = true → after conn')
    | .error _ conn' => thrown conn'

/-- What such a call then does on a client. -/
inductive CallSpec {σ : Type} (returned : Response → Prop) (after thrown : σ → Prop) :
    EStateM.Result Exn σ Response → Prop
  | ok {response : Response} {state : σ} (expected : returned response) (kept : after state) :
      CallSpec returned after thrown (.ok response state)
  | error {error : Exn} {state : σ} (kept : thrown state) :
      CallSpec returned after thrown (.error error state)

variable {meets : Conn → Prop}

theorem Client.keeps_some {scheme : Scheme} {host : Bytes} {port : ℕ} {conn : Conn} :
    (Client.mk scheme host port (some conn)).Keeps meets ↔
      (conn.stream.isOpen = true → meets conn) := by
  simp [Client.Keeps]

theorem Client.keeps_none (meets : Conn → Prop) (scheme : Scheme) (host : Bytes) (port : ℕ) :
    (Client.mk scheme host port none).Keeps meets := by
  simp [Client.Keeps]

theorem WebClient.keeps_some {client : Client} {scheme : Option Scheme} {host : Bytes} {port : ℕ} :
    (WebClient.mk (some client) scheme host port).Keeps meets ↔ client.Keeps meets := by
  simp [WebClient.Keeps]

theorem WebClient.keeps_none (meets : Conn → Prop) (scheme : Option Scheme) (host : Bytes)
    (port : ℕ) : (WebClient.mk none scheme host port).Keeps meets := by
  simp [WebClient.Keeps]

theorem Client.request_run_open {conn : Conn} (options : ClientOptions) (request : Request)
    (scheme : Scheme) (host : Bytes) (port : ℕ) (isOpen : conn.stream.isOpen = true) :
    (Client.request options request).run ⟨scheme, host, port, some conn⟩ =
      match (exchange options.config
          { request with keepAlive := request.keepAlive && options.keepAlive }
          (formatHostHeader scheme host port)).run conn with
      | .error error conn' => .error error ⟨scheme, host, port, some conn'⟩
      | .ok response conn' =>
          if request.keepAlive && options.keepAlive && response.keepAlive then
            .ok response ⟨scheme, host, port, some conn'⟩
          else .ok response ⟨scheme, host, port, none⟩ := by
  simp only [EStateM.run, Client.request, isOpen, if_true]
  rfl

theorem WebClient.request_run (options : ClientOptions) (request : Request) (client : Client)
    (scheme : Option Scheme) (host : Bytes) (port : ℕ) :
    (WebClient.request options request).run ⟨some client, scheme, host, port⟩ =
      match (Client.request options request).run client with
      | .ok response client' => .ok response ⟨some client', scheme, host, port⟩
      | .error error client' => .error error ⟨some client', scheme, host, port⟩ :=
  rfl

theorem WebClient.connect_run (url : Bytes) (connected : Except Exn Unit) (web : WebClient) :
    (∃ client : Client, client.connection = some {} ∧
        (WebClient.connect url connected).run web =
          .ok () ⟨some client, some client.scheme, client.host, client.port⟩) ∨
      ∃ error scheme host port,
        (WebClient.connect url connected).run web = .error error ⟨none, scheme, host, port⟩ := by
  simp only [WebClient.connect, EStateM.run_bind]
  cases parseUrl url with
  | error error => exact .inr ⟨_, _, _, _, rfl⟩
  | ok parsed =>
      cases connected with
      | error _ => exact .inr ⟨_, _, _, _, rfl⟩
      | ok _ => exact .inl ⟨⟨parsed.scheme, parsed.host, parsed.port, some {}⟩, rfl, rfl⟩

theorem WebClient.keeps_connect (fresh : meets {}) (url : Bytes) (connected : Except Exn Unit)
    (web : WebClient) : (endState ((WebClient.connect url connected).run web)).Keeps meets := by
  rcases WebClient.connect_run url connected web with ⟨_, connection, ran⟩ | ⟨_, _, _, _, ran⟩
  · rw [ran]
    refine WebClient.keeps_some.mpr ?_
    intro _ found _
    cases connection.symm.trans found
    exact fresh
  · rw [ran]
    exact WebClient.keeps_none _ _ _ _

/-- The request that `fetch` makes. -/
def Request.retargeted (request : Request) (parsed : Url) : Request :=
  if request.target = [] ∨ request.target = ascii "/" then
    { request with target := parsed.target }
  else request

theorem WebClient.fetch_run {url : Bytes} {parsed : Url} (options : ClientOptions)
    (request : Request) (network : Network) (web : WebClient) (valid : parseUrl url = .ok parsed) :
    (WebClient.fetch options url request network).run web =
      match (if web.reuses url then EStateM.Result.ok () web
        else (WebClient.connect url network.connected).run web) with
      | .ok () web' =>
          (WebClient.request options (request.retargeted parsed)).run (web'.supply network)
      | .error error web' => .error error web' := by
  simp only [WebClient.fetch, valid, WebClient.reuses, EStateM.run_bind, EStateM.run_get]
  by_cases same : (web.matchesOrigin parsed && web.isConnected) = true
  · have reused : ¬(!web.matchesOrigin parsed || !web.isConnected) = true := by
      simpa using same
    rw [if_neg reused, if_pos same]
    rfl
  · have new : (!web.matchesOrigin parsed || !web.isConnected) = true := by
      simpa [Bool.and_eq_true, imp_iff_not_or] using same
    rw [if_pos new, if_neg same, EStateM.run_bind]
    cases (WebClient.connect url network.connected).run web with
    | ok _ _ | error _ _ => rfl

variable (spec : ExchangeSpec options request network before after thrown returned)
  {outgoing : Request} (passed : request.Passed outgoing)
include spec passed

theorem ExchangeSpec.client {client : Client} (kept : client.Keeps before) :
    CallSpec returned (Client.Keeps after) (Client.Keeps thrown)
      ((Client.request options outgoing).run
        { client with connection := client.connection.map (Conn.supply network) }) := by
  rcases client with ⟨scheme, host, port, connection⟩
  cases connection with
  | none => exact .error (Client.keeps_none _ _ _ _)
  | some conn =>
      cases isOpen : conn.stream.isOpen with
      | false =>
          have closed : (conn.supply network).stream.isOpen = false := isOpen
          simp only [Option.map_some, EStateM.run, Client.request, closed, Bool.false_eq_true,
            if_false]
          apply CallSpec.error
          refine Client.keeps_some.mpr ?_
          intro isOpen'
          cases closed.symm.trans isOpen'
      | true =>
          have opened : (conn.supply network).stream.isOpen = true := isOpen
          have starts := Client.keeps_some.mp kept isOpen
          simp only [Option.map_some, Client.request_run_open options outgoing scheme host
            port opened]
          have run := spec.run
            { outgoing with keepAlive := outgoing.keepAlive && options.keepAlive }
            (formatHostHeader scheme host port) conn ⟨passed.1, passed.2, passed.3⟩ starts isOpen
          generalize (exchange _ _ _).run _ = result at run ⊢
          cases result with
          | error _ _ =>
              apply CallSpec.error
              exact Client.keeps_some.mpr fun _ => run
          | ok _ _ =>
              dsimp only
              split
              next persistent =>
                simp only [Bool.and_eq_true] at persistent
                apply CallSpec.ok run.1
                exact Client.keeps_some.mpr fun _ => run.2 persistent.2
              · exact .ok run.1 (Client.keeps_none _ _ _ _)

theorem ExchangeSpec.web {web : WebClient} (kept : web.Keeps before) :
    CallSpec returned (WebClient.Keeps after) (WebClient.Keeps thrown)
      ((WebClient.request options outgoing).run (web.supply network)) := by
  rcases web with ⟨impl, _, _, _⟩
  cases impl with
  | none => exact .error (WebClient.keeps_none _ _ _ _)
  | some _ =>
      have called := spec.client passed (WebClient.keeps_some.mp kept)
      simp only [WebClient.supply, Option.map_some, WebClient.request_run]
      generalize (Client.request options outgoing).run _ = result at called ⊢
      cases called with
      | ok expected kept' => exact .ok expected (WebClient.keeps_some.mpr kept')
      | error kept' => exact .error (WebClient.keeps_some.mpr kept')

omit passed in
/-- What holds of one exchange holds of `fetch`, on a reused or a new connection. -/
theorem ExchangeSpec.fetch {web : WebClient} (url : Bytes) (kept : web.Keeps thrown)
    (reused : web.reuses url = true → web.Keeps before) :
    CallSpec returned (WebClient.Keeps after) (WebClient.Keeps thrown)
      ((WebClient.fetch options url request network).run web) := by
  cases valid : parseUrl url with
  | error _ =>
      simp only [WebClient.fetch, valid]
      exact .error kept
  | ok parsed =>
      have passed : request.Passed (request.retargeted parsed) := by
        rw [Request.retargeted]
        split
        · exact ⟨rfl, rfl, rfl⟩
        · exact ⟨rfl, rfl, rfl⟩
      rw [WebClient.fetch_run options request network web valid]
      by_cases same : web.reuses url = true
      · rw [if_pos same]
        exact spec.web passed (reused same)
      · rw [if_neg same]
        have started := WebClient.keeps_connect spec.fresh url network.connected web
        rcases WebClient.connect_run url network.connected web with ⟨_, -, ran⟩ | ⟨_, _, _, _, ran⟩
        · rw [ran] at started ⊢
          exact spec.web passed started
        · rw [ran]
          exact .error (WebClient.keeps_none _ _ _ _)

end Lifting

theorem Network.contents_filter (network : Network) :
    contents (network.arrivals.filter Arrival.isClean) = some network.sent := by
  rcases exists_contents_filter_isClean network.arrivals with ⟨_, _, clean⟩
  rw [Network.sent, clean]
  rfl

theorem Unnoticed.exchange {alter : ByteStream → ByteStream} {unfinished : Exn → Prop}
    (unnoticed : Unnoticed alter unfinished) (config : Config) (request : Request)
    (hostHeader : Bytes) :
    Commutes (Conn.change alter) unfinished (Http.exchange config request hostHeader) := by
  apply commutes_bind (unnoticed.write config request hostHeader .whole)
  intro _
  exact unnoticed.responseLogic.readResponse config request.method

/-- A call that starts at a boundary has before it what the server sends during the call,
unless the server has closed the connection. -/
theorem Conn.AtBoundary.supply {limits : Limits} {conn : Conn} (boundary : conn.AtBoundary limits)
    (network : Network) :
    ((conn.supply network).change calm).Awaits limits network.sent.1 network.sent.2 ∨
      ((conn.supply network).change calm).Awaits limits [] true := by
  rcases boundary with ⟨none, ended, ready⟩
  rcases ready.holds.clean with ⟨_, clean, unread⟩
  rcases List.append_eq_nil_iff.mp unread with ⟨empty, rfl⟩
  have opened := ready.holds.isOpen
  have arrivals : ((conn.supply network).change calm).stream.arrivals =
      (settle conn.stream.arrivals).filter Arrival.isClean ++
        network.arrivals.filter Arrival.isClean := List.filter_append _ _
  have settled := contents_settle_of_nothing clean
  cases ended with
  | true =>
      refine .inr ⟨⟨⟨opened, [], ?_, unread⟩, ⟨opened, rfl⟩, ready.size_le⟩, none⟩
      rw [arrivals]
      exact contents_append _ settled
  | false =>
      refine .inl ⟨⟨⟨opened, network.sent.1, ?_, ?_⟩, ⟨opened, rfl⟩, ready.size_le⟩, none⟩
      · rw [arrivals, contents_append_of_open _ settled, network.contents_filter]
        rfl
      · show conn.buffer.view ++ _ = _
        have same : conn.buffer.view = [] := empty
        rw [same, List.nil_append]

theorem Network.ContinuesOnly.outgoing {config : Config} {request outgoing : Request}
    {network : Network} (continues : network.ContinuesOnly config request)
    (passed : request.Passed outgoing) (hostHeader : Bytes) :
    RequestWriter.whole.ContinuesOnly config outgoing hostHeader network.sent.1 := by
  intro waits
  have expects := expectsContinue_of_waitsForContinue waits
  rw [passed.headers] at expects
  rw [passed.method]
  exact continues expects

section Calls

variable {options : ClientOptions} {request : Request} {network : Network}
  (stable : PrefixStable (options.config.parser.response options.config.limits.maxHeaderCount))
include stable

variable {conn : Conn}

/-- A call that returns although the server has said nothing or nonsense does not exist,
not even if the server were to close the connection now. -/
theorem exchange_ne_ok_of_rejected {outgoing : Request} {hostHeader input : Bytes} {ended : Bool}
    (awaits : conn.Awaits options.config.limits input ended)
    (supported : ¬(outgoing.versionMinor < 0 ∨ outgoing.versionMinor > 1))
    (rejected : Grammar.response options.config.parser options.config.limits outgoing.method true
      input = none)
    (sane : Sane options.config.limits
      (Grammar.unsizedInputs options.config.parser options.config.limits true input))
    (continues : RequestWriter.whole.ContinuesOnly options.config outgoing hostHeader input)
    (response : Response) (conn' : Conn) :
    (exchange options.config outgoing hostHeader).run conn ≠ .ok response conn' := by
  intro ran
  cases ended with
  | true =>
      exact exchange_of_rejected stable supported continues awaits rejected sane response conn' ran
  | false =>
      have follows := (unnoticed_extend [.eof]).exchange options.config outgoing hostHeader conn
      rw [ran] at follows
      have closing : (conn.change (extend [.eof])).Awaits options.config.limits input true := by
        rcases awaits.1.holds.clean with ⟨data, clean, unread⟩
        refine ⟨⟨⟨awaits.1.holds.isOpen, data, ?_, unread⟩,
          ⟨awaits.1.writable.isOpen, awaits.1.writable.departures_eq⟩, awaits.1.size_le⟩, awaits.2⟩
        show contents (conn.stream.arrivals ++ [.eof]) = _
        rw [contents_append_of_open _ clean]
        simp [contents]
      exact exchange_of_rejected stable supported continues closing rejected sane response _ follows

/-- From a message boundary an exchange returns the answer to its own request. -/
theorem exchangeSpec_careful (speaks : network.Speaks options.config request) :
    ExchangeSpec options request network (Conn.AtBoundary options.config.limits)
      (Conn.AtBoundary options.config.limits) (fun _ => True)
      (network.Answers options.config request.method) where
  fresh := ⟨rfl, false, ⟨⟨rfl, [], rfl, rfl⟩, ⟨rfl, rfl⟩, Nat.zero_le _⟩⟩
  run := by
    intro outgoing hostHeader conn passed boundary _
    cases ran : (exchange options.config outgoing hostHeader).run (conn.supply network) with
    | error _ _ => trivial
    | ok _ _ =>
        have supported : ¬(outgoing.versionMinor < 0 ∨ outgoing.versionMinor > 1) := by
          intro unsupported
          rw [exchange_of_unsupported options.config hostHeader unsupported] at ran
          cases ran
        have calmly := unnoticed_calm.exchange options.config outgoing hostHeader
          (conn.supply network)
        rw [ran] at calmly
        have nothing := stable.noHead_nil
        rw [← passed.method]
        rcases boundary.supply network with awaits | awaits
        · have continues := speaks.continues.outgoing passed hostHeader
          rcases speaks.answer with ⟨_, whole⟩ | ⟨rejected, sane⟩
          · rw [← passed.method] at whole
            rcases exchange_of_whole stable supported continues awaits whole with
              ⟨_, returns, none, rests⟩
            cases calmly.symm.trans returns
            exact ⟨whole, fun persistent => ⟨none, _, rests persistent⟩⟩
          · rw [← passed.method] at rejected
            cases exchange_ne_ok_of_rejected stable awaits supported rejected sane continues _ _
              calmly
        · have empty : NoHead (options.config.parser.response options.config.limits.maxHeaderCount)
              (([] : Bytes).take options.config.limits.maxHeaderBytes) := by
            simpa using nothing
          have rejected := Grammar.response_of_noHead outgoing.method true empty
          have silent := Grammar.response_of_noHead outgoing.method false empty
          have bodies := Grammar.unsizedInputs_of_noHead true empty
          cases exchange_ne_ok_of_rejected stable awaits supported rejected (by simp [bodies, Sane])
            (by intro _ first content rest read; rw [silent] at read; cases read) _ _ calmly

/-- Nothing at all is on the connection, nor will anything go wrong on it. -/
def Conn.Idle (limits : Limits) (conn : Conn) : Prop :=
  ∃ ended, conn.Awaits limits [] ended

omit stable in
theorem Conn.Idle.atBoundary {limits : Limits} (idle : conn.Idle limits) :
    conn.AtBoundary limits := by
  rcases idle with ⟨ended, ready, none⟩
  rcases ready.holds.clean with ⟨data, clean, unread⟩
  exact ⟨none, ended, ⟨ready.holds.isOpen, data, contents_filter_of_contents clean, unread⟩,
    ⟨ready.holds.isOpen, rfl⟩, ready.size_le⟩

omit stable in
theorem Conn.Idle.supply {limits : Limits} (idle : conn.Idle limits)
    (lasting : .eof ∉ conn.stream.arrivals) (unharmed : network.departures = [])
    (clean : contents network.arrivals = some network.sent) :
    (conn.supply network).Awaits limits network.sent.1 network.sent.2 := by
  rcases idle with ⟨ended, ready, none⟩
  rcases ready.holds.clean with ⟨_, held, unread⟩
  rcases List.append_eq_nil_iff.mp unread with ⟨empty, rfl⟩
  cases ended with
  | true => exact absurd (eof_mem_of_contents held rfl) lasting
  | false =>
      refine ⟨⟨⟨ready.holds.isOpen, network.sent.1, ?_, ?_⟩, ⟨ready.holds.isOpen, unharmed⟩,
        ready.size_le⟩, none⟩
      · show contents (settle conn.stream.arrivals ++ network.arrivals) = _
        rw [settle_of_contents held, contents_append_of_open _ held, clean]
        rfl
      · show conn.buffer.view ++ _ = _
        rw [empty, List.nil_append]

theorem exchangeSpec_undisturbed (clean : network.Clean options.config request) :
    ExchangeSpec options request network
      (fun conn => conn.Idle options.config.limits ∧ .eof ∉ conn.stream.arrivals)
      (Conn.Idle options.config.limits) (Conn.Idle options.config.limits)
      (network.Answers options.config request.method) where
  fresh := ⟨⟨false, ⟨⟨rfl, [], rfl, rfl⟩, ⟨rfl, rfl⟩, Nat.zero_le _⟩, rfl⟩, List.not_mem_nil⟩
  run := by
    intro outgoing hostHeader conn passed start _
    have awaits := start.1.supply start.2 clean.departures_eq clean.arrivals
    by_cases unsupported : outgoing.versionMinor < 0 ∨ outgoing.versionMinor > 1
    · have unsent : request.isSupported = false := by
        simp [Request.isSupported, ← passed.version, unsupported]
      simp only [Network.sent, clean.unsent unsent] at awaits
      rw [exchange_of_unsupported options.config hostHeader unsupported]
      exact ⟨_, awaits⟩
    · have sent : request.isSupported = true := by
        simp [Request.isSupported, ← passed.version, unsupported]
      rcases clean.answer sent with ⟨_, whole⟩
      rw [← passed.method] at whole ⊢
      rcases exchange_of_whole stable unsupported (clean.continues.outgoing passed hostHeader)
        awaits whole with ⟨_, ran, none, rests⟩
      rw [ran]
      exact ⟨whole, fun persistent => ⟨_, rests persistent, none⟩⟩

end Calls

variable {meets : Conn → Prop} {web : WebClient}

theorem WebClient.Keeps.mono {meets' : Conn → Prop} (kept : web.Keeps meets)
    (implied : ∀ conn, meets conn → meets' conn) : web.Keeps meets' := by
  intro client used conn connected isOpen
  exact implied conn (kept client used conn connected isOpen)

theorem WebClient.Keeps.and {meets' : Conn → Prop} (first : web.Keeps meets)
    (second : web.Keeps meets') : web.Keeps fun conn => meets conn ∧ meets' conn := by
  intro client used conn connected isOpen
  exact ⟨first client used conn connected isOpen, second client used conn connected isOpen⟩

theorem WebClient.keeps_of_isConnected (kept : web.isConnected = true → web.Keeps meets) :
    web.Keeps meets := by
  intro client used conn connected isOpen
  have live : web.isConnected = true := by
    simp [WebClient.isConnected, Client.isConnected, used, connected, isOpen]
  exact kept live client used conn connected isOpen

theorem Session.record_eq_some {session session' : Session} {failed : Bool} {method : Bytes}
    {network : Network} {config : Config} {after thrown : WebClient → Prop}
    {result : EStateM.Result Exn WebClient Response} (correlated : session.Correlated config)
    (spec : CallSpec (network.Answers config method) after thrown result)
    (recorded : session.record failed method network result = some session') :
    session'.Correlated config ∧
      (after session'.web ∨ (session'.failed = true ∧ thrown session'.web)) := by
  have extended : ∀ call : Call, (∀ response, call.outcome = .ok response →
      call.network.Answers config call.method response) →
      ∀ call' ∈ session.calls ++ [call], ∀ response, call'.outcome = .ok response →
        call'.network.Answers config call'.method response := by
    intro _ new call' mem
    rcases List.mem_append.mp mem with earlier | last
    · exact correlated call' earlier
    · cases List.mem_singleton.mp last
      exact new
  cases spec with
  | ok expected kept =>
      cases recorded
      refine ⟨extended _ ?_, .inl kept⟩
      intro _ returned
      cases returned
      exact expected
  | @error error web kept =>
      have ended : session' = ⟨web, true, session.calls ++ [⟨method, network, .error error⟩]⟩ := by
        cases error with
        | suspended => cases recorded
        | exhausted => cases recorded
        | _ => exact (Option.some.inj recorded).symm
      subst ended
      refine ⟨extended _ ?_, .inr ⟨rfl, kept⟩⟩
      intro _ returned
      cases returned

section Runs

variable {options : ClientOptions} {session session' : Session} {event : ClientEvent}
  (stable : PrefixStable (options.config.parser.response options.config.limits.maxHeaderCount))
include stable

/-- A connection that is not used again after a failure stays between two messages. -/
theorem Session.careful_step
    (kept : session.Correlated options.config ∧
      (session.failed = false → session.AtBoundary options.config))
    (careful : session.Careful options.config event)
    (taken : session.step options event = some session') :
    session'.Correlated options.config ∧
      (session'.failed = false → session'.AtBoundary options.config) := by
  rcases kept with ⟨correlated, boundary⟩
  cases event with
  | close =>
      cases taken
      exact ⟨correlated, fun _ => WebClient.keeps_none _ _ _ _⟩
  | connect url connected =>
      cases taken
      refine ⟨correlated, fun _ => WebClient.keeps_connect ?_ url connected session.web⟩
      exact ⟨rfl, false, ⟨⟨rfl, [], rfl, rfl⟩, ⟨rfl, rfl⟩, Nat.zero_le _⟩⟩
  | request _ _ =>
      have start := WebClient.keeps_of_isConnected fun live => boundary (careful.1 live)
      have spec := (exchangeSpec_careful stable careful.2).web ⟨rfl, rfl, rfl⟩ start
      rcases Session.record_eq_some correlated spec taken with ⟨correlated', after | ⟨failed, -⟩⟩
      · exact ⟨correlated', fun _ => after⟩
      · exact ⟨correlated', fun sound => by cases failed.symm.trans sound⟩
  | fetch url _ _ =>
      have spec := (exchangeSpec_careful stable careful.2).fetch url
        (fun _ _ _ _ _ => trivial) (fun reused => boundary (careful.1 reused))
      rcases Session.record_eq_some correlated spec taken with ⟨correlated', after | ⟨failed, -⟩⟩
      · exact ⟨correlated', fun _ => after⟩
      · exact ⟨correlated', fun sound => by cases failed.symm.trans sound⟩

/-- Where no call meets with a failure, the connection is idle between the calls. -/
theorem Session.undisturbed_step
    (kept : session.Correlated options.config ∧
      session.web.Keeps (Conn.Idle options.config.limits))
    (undisturbed : session.Undisturbed options.config event)
    (taken : session.step options event = some session') :
    session'.Correlated options.config ∧
      session'.web.Keeps (Conn.Idle options.config.limits) := by
  rcases kept with ⟨correlated, idle⟩
  cases event with
  | close =>
      cases taken
      exact ⟨correlated, WebClient.keeps_none _ _ _ _⟩
  | connect url connected =>
      cases taken
      refine ⟨correlated, WebClient.keeps_connect ?_ url connected session.web⟩
      exact ⟨false, ⟨⟨rfl, [], rfl, rfl⟩, ⟨rfl, rfl⟩, Nat.zero_le _⟩, rfl⟩
  | request _ _ =>
      have spec := (exchangeSpec_undisturbed stable undisturbed.2).web ⟨rfl, rfl, rfl⟩
        (idle.and undisturbed.1)
      rcases Session.record_eq_some correlated spec taken with ⟨correlated', after | ⟨-, after⟩⟩
      · exact ⟨correlated', after⟩
      · exact ⟨correlated', after⟩
  | fetch url _ _ =>
      have spec := (exchangeSpec_undisturbed stable undisturbed.2).fetch url idle
        (fun reused => idle.and (undisturbed.1 reused))
      rcases Session.record_eq_some correlated spec taken with ⟨correlated', after | ⟨-, after⟩⟩
      · exact ⟨correlated', after⟩
      · exact ⟨correlated', after⟩

end Runs

/-- As long as no connection is used again after a call on it has thrown, every call that
returns a response returns the one sent for it; and as long as no call meets with a
failure, the client is moreover at a message boundary, or disconnected, after every call. -/
theorem client_correlated (options : ClientOptions) (session : Session)
    (stable : PrefixStable
      (options.config.parser.response options.config.limits.maxHeaderCount)) :
    (Reached (Session.step options) (Session.Careful options.config) {} session →
        session.Correlated options.config ∧
          (session.failed = false → session.AtBoundary options.config)) ∧
      (Reached (Session.step options) (Session.Undisturbed options.config) {} session →
        session.Correlated options.config ∧ session.AtBoundary options.config) := by
  have nothingYet : Session.Correlated options.config {} := by
    intro _ mem
    cases mem
  constructor
  · intro reached
    apply reached.invariant ⟨nothingYet, fun _ => WebClient.keeps_none _ _ _ _⟩
    intro _ _ _ kept careful taken
    exact Session.careful_step stable kept careful taken
  · intro reached
    have kept : session.Correlated options.config ∧
        session.web.Keeps (Conn.Idle options.config.limits) := by
      apply reached.invariant ⟨nothingYet, WebClient.keeps_none _ _ _ _⟩
      intro _ _ _ kept undisturbed taken
      exact Session.undisturbed_step stable kept undisturbed taken
    exact ⟨kept.1, kept.2.mono fun conn idle => idle.atBoundary⟩

/-- The response the server sends during the call. -/
def Network.answer (config : Config) (requestMethod : Bytes) (network : Network) :
    Option Response :=
  match Grammar.response config.parser config.limits requestMethod true network.sent.1 with
  | some (response, content, some []) => some { response with body := content }
  | some (response, content, none) =>
      if network.sent.2 then some { response with body := content } else none
  | _ => none

variable {config : Config}

theorem Network.answers_iff {requestMethod : Bytes} {network : Network} {response : Response} :
    network.Answers config requestMethod response ↔
      network.answer config requestMethod = some response := by
  simp only [Network.Answers, WholeResponse, Network.answer]
  constructor
  · rintro ⟨first, content, _, read, rfl | ⟨rfl, ended⟩, rfl⟩
    · rw [read]
    · rw [read]
      exact if_pos ended
  · intro answered
    split at answered
    next first content read =>
      exact ⟨first, content, _, read, .inl rfl, (Option.some.inj answered).symm⟩
    next first content read =>
      split at answered
      next ended =>
        exact ⟨first, content, _, read, .inr ⟨rfl, ended⟩, (Option.some.inj answered).symm⟩
      · cases answered
    · cases answered

/-- The server answers the request, which does not ask for `100 Continue`. -/
def Network.isAnswer (config : Config) (request : Request) (network : Network) : Bool :=
  (network.answer config request.method).isSome && !expectsContinue request.headers

theorem Network.speaks_of_isAnswer {request : Request} {network : Network}
    (answered : network.isAnswer config request = true) : network.Speaks config request := by
  simp only [Network.isAnswer, Bool.and_eq_true, Bool.not_eq_true'] at answered
  rcases Option.isSome_iff_exists.mp answered.1 with ⟨response, found⟩
  refine ⟨.inl ⟨response, Network.answers_iff.mpr found⟩, ?_⟩
  intro expects
  cases answered.2.symm.trans expects

def ClientEvent.isAnswered (config : Config) : ClientEvent → Bool
  | .request message network => network.isAnswer config message
  | .fetch _ message network => network.isAnswer config message
  | _ => true

def Session.isCareful (config : Config) (session : Session) (event : ClientEvent) : Bool :=
  event.isAnswered config && match event with
    | .request _ _ => !session.web.isConnected || !session.failed
    | .fetch url _ _ => !session.web.reuses url || !session.failed
    | _ => true

theorem Session.careful_of_isCareful {session : Session} {event : ClientEvent}
    (checked : session.isCareful config event = true) : session.Careful config event := by
  simp only [Session.isCareful, Bool.and_eq_true] at checked
  cases event with
  | close | connect url connected => trivial
  | request _ _ =>
      refine ⟨fun live => ?_, Network.speaks_of_isAnswer checked.1⟩
      simpa [live] using checked.2
  | fetch _ _ _ =>
      refine ⟨fun reused => ?_, Network.speaks_of_isAnswer checked.1⟩
      simpa [reused] using checked.2

/-- The server answers without a pause, on a connection that it has not closed. -/
def Session.isUndisturbed (config : Config) (session : Session) (event : ClientEvent) : Bool :=
  event.isAnswered config && match event with
    | .request message network | .fetch _ message network =>
        decide (network.departures = [] ∧ contents network.arrivals = some network.sent ∧
          message.isSupported = true) &&
        session.web.impl.all fun client => client.connection.all fun conn =>
          decide (.eof ∉ conn.stream.arrivals)
    | _ => true

theorem Session.undisturbed_of_isUndisturbed {session : Session} {event : ClientEvent}
    (checked : session.isUndisturbed config event = true) : session.Undisturbed config event := by
  have clean : ∀ {request : Request} {network : Network},
      network.isAnswer config request = true → network.departures = [] →
      contents network.arrivals = some network.sent → request.isSupported = true →
      network.Clean config request := by
    intro request _ answered unharmed arrivals supported
    have speaks := Network.speaks_of_isAnswer answered
    simp only [Network.isAnswer, Bool.and_eq_true] at answered
    rcases Option.isSome_iff_exists.mp answered.1 with ⟨response, found⟩
    refine ⟨unharmed, arrivals, fun _ => ⟨response, Network.answers_iff.mpr found⟩, ?_,
      speaks.continues⟩
    intro unsent
    cases unsent.symm.trans supported
  have lasting : (session.web.impl.all fun client => client.connection.all fun conn =>
      decide (.eof ∉ conn.stream.arrivals)) = true →
        session.web.Keeps fun conn => .eof ∉ conn.stream.arrivals := by
    intro whole _ used _ connected _
    simpa [used, connected] using whole
  simp only [Session.isUndisturbed, Bool.and_eq_true] at checked
  cases event with
  | close | connect url connected => trivial
  | request _ _ =>
      simp only [Bool.and_eq_true, decide_eq_true_eq] at checked
      rcases checked with ⟨answered, ⟨unharmed, arrivals, supported⟩, whole⟩
      exact ⟨lasting whole, clean answered unharmed arrivals supported⟩
  | fetch _ _ _ =>
      simp only [Bool.and_eq_true, decide_eq_true_eq] at checked
      rcases checked with ⟨answered, ⟨unharmed, arrivals, supported⟩, whole⟩
      exact ⟨fun _ => lasting whole, clean answered unharmed arrivals supported⟩

/-- A client that waits half a second for the head of a response. -/
def hastyOptions : ClientOptions :=
  { config := { referenceConfig with timeouts := { readHeaders := some 500 } } }

/-- The server answers with a text. -/
def textResponse (text : String) : Arrival :=
  .data (responseBytes referenceConfig { body := ascii text } (ascii "GET"))

def exampleUrl : Bytes := ascii "http://a/"

/-- The first call times out, and its caller closes the connection. -/
def reconnectingRun : List ClientEvent :=
  [.fetch exampleUrl {} { arrivals := [.stall, textResponse "A"] }, .close,
    .fetch exampleUrl {} { arrivals := [textResponse "B"] },
    .request {} { arrivals := [textResponse "C"] }]

/-- Two calls in a row to a server that answers at once. -/
def promptRun : List ClientEvent :=
  [.fetch exampleUrl {} { arrivals := [textResponse "A"] },
    .request {} { arrivals := [textResponse "B"] }]

theorem client_correlated_reconnecting :
    (∃ session, follow (Session.step hastyOptions)
        (fun session event => session.isCareful hastyOptions.config event) {} reconnectingRun =
          some session ∧ session.Correlated hastyOptions.config) ∧
      ∃ session, follow (Session.step hastyOptions)
        (fun session event => session.isUndisturbed hastyOptions.config event) {} promptRun =
          some session ∧ session.AtBoundary hastyOptions.config := by
  have stable := (Reference.contract hastyOptions.config.limits).stable
  constructor
  · have followed : (follow (Session.step hastyOptions)
        (fun session event => session.isCareful hastyOptions.config event) {}
          reconnectingRun).isSome = true := by
      decide +kernel
    rcases Option.isSome_iff_exists.mp followed with ⟨session, ran⟩
    refine ⟨session, ran, ((client_correlated hastyOptions session stable).1 ?_).1⟩
    apply (Reached.start.follow ran).mono
    intro _ _ checked
    exact Session.careful_of_isCareful checked
  · have followed : (follow (Session.step hastyOptions)
        (fun session event => session.isUndisturbed hastyOptions.config event) {}
          promptRun).isSome = true := by
      decide +kernel
    rcases Option.isSome_iff_exists.mp followed with ⟨session, ran⟩
    refine ⟨session, ran, ((client_correlated hastyOptions session stable).2 ?_).2⟩
    apply (Reached.start.follow ran).mono
    intro _ _ checked
    exact Session.undisturbed_of_isUndisturbed checked

/-- A client that takes three bytes of a body. -/
def frugalOptions : ClientOptions :=
  { config := { referenceConfig with limits := { maxBodyBytes := 3 } } }

/-- The body of the first response is too long, and looks like a response. -/
def carelessRun : List ClientEvent :=
  [.fetch exampleUrl {} { arrivals := [textResponse
      "HTTP/1.1 200 OK\r\nContent-Length: 1\r\n\r\nZ"] },
    .fetch exampleUrl {} { arrivals := [textResponse "B"] }]

/-- The server answers both calls.  The first one throws and leaves the body unread, and the
second returns a response that it finds in there. -/
theorem unread_body_misattributed :
    ∃ session, follow (Session.step frugalOptions)
        (fun _ event => event.isAnswered referenceConfig) {} carelessRun = some session ∧
      session.calls.map (fun call => (call.outcome.toOption.map Response.body,
          (call.network.answer frugalOptions.config call.method).map Response.body)) =
        [(none, none), (some (ascii "Z"), some (ascii "B"))] ∧
      ¬session.Correlated frugalOptions.config := by
  have followed : (follow (Session.step frugalOptions)
      (fun _ event => event.isAnswered referenceConfig) {} carelessRun).map (fun session =>
        session.calls.map (fun call => (call.outcome.toOption.map Response.body,
          (call.network.answer frugalOptions.config call.method).map Response.body))) =
        some [(none, none), (some (ascii "Z"), some (ascii "B"))] := by
    decide +kernel
  rcases Option.map_eq_some_iff.mp followed with ⟨session, ran, bodies⟩
  refine ⟨session, ran, bodies, ?_⟩
  intro correlated
  have second : (some (ascii "Z"), some (ascii "B")) ∈ session.calls.map (fun call =>
      (call.outcome.toOption.map Response.body,
        (call.network.answer frugalOptions.config call.method).map Response.body)) := by
    rw [bodies]
    simp
  rcases List.mem_map.mp second with ⟨call, mem, same⟩
  cases outcome : call.outcome with
  | error _ => simp [outcome, Except.toOption] at same
  | ok response =>
      have answers := Network.answers_iff.mp (correlated call mem response outcome)
      simp only [outcome, Except.toOption, answers, Option.map_some, Prod.mk.injEq,
        Option.some.injEq] at same
      have different : ascii "Z" ≠ ascii "B" := by decide
      exact different (same.1.symm.trans same.2)

end Corouv.Http
