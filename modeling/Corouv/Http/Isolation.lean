import Corouv.Http.RequestOutcome
import Corouv.Http.Server
import Corouv.Http.Unnoticed
import Corouv.Library.Transition

/-!
# One client and the others

`handle_client` catches `http::Error` around `read_request` and nothing else, and the
TLS handshake is not guarded at all.  Any other exception ends the task, and with it the
group is cancelled: the other clients are interrupted, and the next `spawn` ends the
accept loop.  Without such an exception the server goes on whatever its clients do.
-/

namespace Corouv.Http

open Library Io

/-- No client is cancelled, the next connection will be spawned and the accept loop
goes on. -/
structure Server.Isolated (server : Server) : Prop where
  notCanceled : server.group.canceled = false
  spawns : ∃ group, server.group.spawn = some group
  accepting : server.serving = .accepting

/-- Neither `close` nor a cancellation, and no failure of the listener itself. -/
def ServerEvent.isUndisturbed : ServerEvent → Bool
  | .close => false
  | .acceptFailed _ => false
  | .handled _ (.error .signal) => false
  | _ => true

/-- The data among the arrivals completes a request, with what is in the buffer; there is no
more in there than a head may have. -/
def Conn.HoldsRequest (config : Config) (conn : Conn) (arrived : List Arrival) : Prop :=
  conn.buffer.size ≤ config.limits.maxHeaderBytes ∧ ∃ data received rest,
    contents (arrived.filter Arrival.isClean) = some (data, false) ∧
      Grammar.request config.parser config.limits (conn.buffer.view ++ data) =
        .request received rest

/-- The connection fails, and what has arrived before holds no whole request. -/
def Conn.BreaksOff (config : Config) (conn : Conn) : Prop :=
  ∃ before failing later, conn.stream.arrivals = before ++ failing :: later ∧
    failing.isFailure = true ∧ Io.Clear before ∧ ¬conn.HoldsRequest config before

/-- The handshake succeeds, and a client that is resumed in `read_request` has not lost its
connection before the end of the request and can be sent the interim response if it has
asked for that. -/
def Server.Calm (config : Config) (server : Server) : ServerEvent → Prop
  | .handshake _ outcome => outcome = .ok ()
  | .resume index => ∀ client, server.clients[index]? = some client → client.phase = .reading →
      ¬client.conn.BreaksOff config ∧
        (client.conn.AwaitsContinue config → WritesNext client.conn.stream.departures)
  | _ => True

/-- The phases in which a task waits for its peer. -/
def Phase.awaitsPeer : Phase → Bool
  | .handshaking | .reading => true
  | _ => false

/-- The task does not end with an exception, and waits only on an open connection. -/
def Pass.Harmless : Pass → Prop
  | .waits => True
  | .goes phase conn => phase.awaitsPeer = true → conn.stream.isOpen = true
  | .ends outcome _ => outcome = none

theorem exists_first_failure {arrivals : List Arrival} (unclear : ¬Io.Clear arrivals) :
    ∃ before failing later, arrivals = before ++ failing :: later ∧ failing.isFailure = true ∧
      Io.Clear before := by
  induction arrivals with
  | nil => exact absurd (by simp [Io.Clear]) unclear
  | cons arrival behind ih =>
      cases failed : arrival.isFailure with
      | true => exact ⟨[], arrival, behind, rfl, failed, by simp [Io.Clear]⟩
      | false =>
          rcases ih fun clear => unclear (List.forall_mem_cons.mpr ⟨failed, clear⟩) with
            ⟨before, failing, later, rfl, fails, clear⟩
          exact ⟨arrival :: before, failing, later, rfl, fails,
            List.forall_mem_cons.mpr ⟨failed, clear⟩⟩

section

variable {config : Config} {conn : Conn}
  (stable : PrefixStable (config.parser.request config.limits.maxHeaderCount))
include stable

/-- Where a whole request has arrived, reading it does not wait. -/
theorem Conn.HoldsRequest.not_unfinished {arrived : List Arrival} {error : Exn} {conn' : Conn}
    (holds : conn.HoldsRequest config arrived) (isOpen : conn.stream.isOpen = true)
    (ran : (readRequest config).run (conn.withArrivals arrived) = .error error conn') :
    ¬error.IsUnfinished := by
  rcases holds with ⟨narrow, data, _, _, clean, read⟩
  have ready : ((conn.withArrivals arrived).change calm).Ready config.limits
      (conn.buffer.view ++ data) false :=
    ⟨⟨isOpen, data, clean, rfl⟩, ⟨isOpen, rfl⟩, narrow⟩
  have answer := readRequest_of_ready stable ready (by simp)
  rw [read] at answer
  rcases answer with ⟨_, returns, -⟩
  have calmly := unnoticed_calm.readRequest config (conn.withArrivals arrived)
  rw [ran] at calmly
  rcases calmly with finished | same
  · exact finished
  · cases same.symm.trans returns

theorem Conn.AwaitsContinue.of_before {before later : List Arrival}
    (split : conn.stream.arrivals = before ++ later)
    (awaits : (conn.withArrivals before).AwaitsContinue config) : conn.AwaitsContinue config := by
  rcases awaits with ⟨length, head, request, contentLength, complete, announced, asks⟩
  refine ⟨length, head, request, contentLength, ?_, announced, asks⟩
  have longer : conn.unread = (conn.withArrivals before).unread ++ allData later := by
    rw [Conn.unread, split, allData_append, ← List.append_assoc]
    rfl
  rw [longer]
  exact stable.append complete _

variable (isOpen : conn.stream.isOpen = true) (complete : ¬conn.BreaksOff config)
  (fine : conn.AwaitsContinue config → WritesNext conn.stream.departures)
include isOpen complete fine

theorem readRequest_orderly_of_calm : Orderly ((readRequest config).run conn) := by
  by_cases clear : Io.Clear conn.stream.arrivals
  · exact readRequest_orderly stable ⟨isOpen, clear, rfl⟩ fine
  · rcases exists_first_failure clear with ⟨before, failing, later, split, fails, clear⟩
    have early : (conn.withArrivals before).Clear conn.stream.departures := ⟨isOpen, clear, rfl⟩
    have orderly := readRequest_orderly stable early fun awaits =>
      fine (awaits.of_before stable split)
    have further := (unnoticed_extend (failing :: later)).readRequest config
      (conn.withArrivals before)
    have whole : (conn.withArrivals before).change (extend (failing :: later)) = conn := by
      simp only [Conn.change, extend, Conn.withArrivals]
      rw [← split]
    rw [whole] at further
    cases outcome : (readRequest config).run (conn.withArrivals before) with
    | ok request conn' =>
        rw [outcome] at further
        have same : (readRequest config).run conn = .ok request _ := further
        rw [same]
        trivial
    | error error conn' =>
        rw [outcome] at further orderly
        rcases further with unfinished | same
        · refine absurd ⟨before, failing, later, split, fails, clear, ?_⟩ complete
          intro holds
          exact holds.not_unfinished stable isOpen outcome unfinished
        · rw [same]
          exact orderly

theorem readPass_harmless : (readPass config conn).Harmless := by
  have orderly := readRequest_orderly_of_calm stable isOpen complete fine
  simp only [readPass]
  cases outcome : (readRequest config).run conn with
  | ok request _ =>
      cases request with
      | none => rfl
      | some _ => simp [Pass.Harmless, Phase.awaitsPeer]
  | error error _ =>
      rw [outcome] at orderly
      rcases orderly with http | rfl | rfl
      · cases error with
        | http _ _ => rfl
        | _ => simp [Exn.isHttpError] at http
      · trivial
      · trivial

end

/-- Whatever the handler does short of a cancellation, and whatever becomes of the
response, the task goes on or ends without an exception. -/
theorem answerPass_harmless (config : Config) (requestMethod : Bytes) (requestKeepAlive : Bool)
    (conn : Conn) {outcome : Except Exn Response} (handled : outcome ≠ .error .signal) :
    (answerPass config requestMethod requestKeepAlive conn outcome).Harmless := by
  have answered : ∃ response, handlerResponse outcome = .ok response := by
    cases outcome with
    | ok response => exact ⟨response, rfl⟩
    | error error =>
        cases error with
        | signal => exact absurd rfl handled
        | _ => exact ⟨_, rfl⟩
  rcases answered with ⟨response, answered⟩
  simp only [answerPass, answered]
  generalize (if requestKeepAlive = true then response
    else { response with keepAlive := false }) = sent
  split
  · rfl
  · split
    next kept =>
      intro _
      exact kept.2.2
    · rfl

structure Server.Sound (server : Server) : Prop where
  notCanceled : server.group.canceled = false
  accepting : server.serving = .accepting
  connected : ∀ client ∈ server.clients, client.phase.awaitsPeer = true →
    client.conn.stream.isOpen = true

namespace Server

variable {server server' : Server} {config : Config} {secure : Bool} {index : ℕ}
  (sound : server.Sound)
include sound

theorem Sound.isolated : server.Isolated := by
  refine ⟨sound.notCanceled, ?_, sound.accepting⟩
  simp [TaskGroup.spawn, sound.notCanceled]

theorem Sound.set {client : ClientTask}
    (connected : client.phase.awaitsPeer = true → client.conn.stream.isOpen = true) :
    ∀ other ∈ server.clients.set index client, other.phase.awaitsPeer = true →
      other.conn.stream.isOpen = true := by
  intro other mem
  rcases List.mem_or_eq_of_mem_set mem with older | rfl
  · exact sound.connected other older
  · exact connected

theorem Sound.settle {pass : Pass} (harmless : pass.Harmless) :
    (server.settle index pass).Sound := by
  cases pass with
  | waits => exact sound
  | goes _ _ => exact ⟨sound.notCanceled, sound.accepting, sound.set harmless⟩
  | ends _ _ =>
      cases harmless
      refine ⟨?_, sound.accepting, sound.set (by simp [Phase.awaitsPeer])⟩
      exact (server.group.canceled_finish_none).trans sound.notCanceled

theorem Sound.deliver {update : ByteStream → ByteStream}
    (delivered : server.deliver index update = some server')
    (same : ∀ stream, (update stream).isOpen = stream.isOpen) : server'.Sound := by
  rcases Option.bind_eq_some_iff.mp delivered with ⟨client, found, kept⟩
  have here := sound.connected client (List.mem_of_getElem? found)
  split at kept
  · cases kept
  · cases kept
    refine ⟨sound.notCanceled, sound.accepting, sound.set ?_⟩
    intro waits
    exact (same client.conn.stream).trans (here waits)

theorem Sound.accept (taken : server.step config secure .accept = some server') :
    server'.Sound := by
  simp only [step] at taken
  split at taken
  · rcases sound.isolated.spawns with ⟨_, spawned⟩
    rw [spawned] at taken
    cases taken
    refine ⟨TaskGroup.canceled_of_spawn spawned, sound.accepting, ?_⟩
    intro client mem waits
    rcases List.mem_append.mp mem with older | new
    · exact sound.connected client older waits
    · rw [List.mem_singleton.mp new]
  · cases taken

/-- A calm step does not cancel the group and does not stop the accept loop. -/
theorem Sound.step {event : ServerEvent}
    (stable : PrefixStable (config.parser.request config.limits.maxHeaderCount))
    (undisturbed : event.isUndisturbed = true)
    (calm : server.Calm config event) (taken : server.step config secure event = some server') :
    server'.Sound := by
  cases event with
  | accept => exact sound.accept taken
  | acceptFailed error | close => exact absurd undisturbed (by simp [ServerEvent.isUndisturbed])
  | arrive _ _ | depart _ _ =>
      simp only [Server.step] at taken
      exact sound.deliver taken fun _ => rfl
  | drain =>
      simp only [Server.step, sound.accepting] at taken
      cases taken
  | handshake _ outcome =>
      rcases Option.bind_eq_some_iff.mp taken with ⟨client, found, moved⟩
      have here := sound.connected client (List.mem_of_getElem? found)
      have succeeded : outcome = .ok () := calm
      subst succeeded
      split at moved
      next shaking _ =>
        cases moved
        apply sound.settle
        intro _
        exact here (by simp [shaking, Phase.awaitsPeer])
      next failed => cases failed
      · cases moved
  | resume _ =>
      rcases Option.bind_eq_some_iff.mp taken with ⟨client, found, moved⟩
      split at moved
      next reading =>
        cases moved
        rcases calm client found reading with ⟨complete, fine⟩
        have isOpen := sound.connected client (List.mem_of_getElem? found)
          (by simp [reading, Phase.awaitsPeer])
        exact sound.settle (readPass_harmless stable isOpen complete fine)
      · cases moved
  | interrupt _ =>
      rcases Option.bind_eq_some_iff.mp taken with ⟨client, -, moved⟩
      rw [if_neg (by simp [sound.notCanceled])] at moved
      cases moved
  | handled _ _ =>
      rcases Option.bind_eq_some_iff.mp taken with ⟨_, _, moved⟩
      split at moved
      · cases moved
        apply sound.settle
        apply answerPass_harmless
        rintro rfl
        simp [ServerEvent.isUndisturbed] at undisturbed
      · cases moved

end Server

/-- As long as no handshake fails and no connection breaks off inside a request, no
client of a server affects another, in any state of any run. -/
theorem server_isolated (config : Config) (secure : Bool) (server : Server)
    (stable : PrefixStable (config.parser.request config.limits.maxHeaderCount))
    (reached : Reached (Server.step config secure)
      (fun server event => event.isUndisturbed = true ∧ server.Calm config event) {} server) :
    server.Isolated := by
  apply Server.Sound.isolated
  apply reached.invariant
  · exact ⟨rfl, rfl, by simp⟩
  · rintro _ _ _ sound ⟨undisturbed, calm⟩ taken
    exact sound.step stable undisturbed calm taken

/-- A server that takes every head for malformed. -/
def strictConfig : Config :=
  { parser := ⟨fun _ _ _ => .malformed, fun _ _ _ => .malformed⟩ }

theorem prefixStable_strictConfig (maxHeaders : ℕ) :
    PrefixStable (strictConfig.parser.request maxHeaders) := by
  constructor <;> simp [strictConfig, NoHead]

/-- A resumption that is calm because nothing in store for the client is a failure. -/
def Server.isCalm (server : Server) : ServerEvent → Bool
  | .handshake _ (.error _) => false
  | .resume index => server.clients[index]?.all fun client =>
      client.conn.stream.arrivals.all (fun arrival => !arrival.isFailure) &&
        client.conn.stream.departures.all fun departure => !departure.isFailure
  | _ => true

theorem Server.calm_of_isCalm {server : Server} {event : ServerEvent} (config : Config)
    (calm : server.isCalm event = true) : server.Calm config event := by
  cases event with
  | handshake _ outcome =>
      cases outcome with
      | ok _ => rfl
      | error _ => simp [Server.isCalm] at calm
  | resume _ =>
      intro _ found _
      simp only [Server.isCalm, found, Option.all_some, Bool.and_eq_true, List.all_eq_true,
        Bool.not_eq_true'] at calm
      refine ⟨?_, fun _ departure mem => calm.2 departure (List.mem_of_mem_head? mem)⟩
      rintro ⟨_, failing, _, split, fails, -⟩
      cases (calm.1 failing (by simp [split])).symm.trans fails
  | _ => trivial

/-- Two clients, the first of which sends something that is no request, and a third
one afterwards. -/
def malformedRun : List ServerEvent :=
  [.accept, .accept, .arrive 0 (.data (ascii "?")), .resume 0, .resume 1, .accept]

theorem server_isolated_malformed :
    ∃ server, follow (Server.step strictConfig false)
        (fun server event => event.isUndisturbed ∧ server.isCalm event) {} malformedRun =
          some server ∧ server.Isolated := by
  have followed : (follow (Server.step strictConfig false)
      (fun server event => event.isUndisturbed ∧ server.isCalm event) {} malformedRun).isSome := by
    decide +kernel
  rcases Option.isSome_iff_exists.mp followed with ⟨server, ran⟩
  refine ⟨server, ran, server_isolated strictConfig false server (prefixStable_strictConfig _) ?_⟩
  apply (Reached.start.follow ran).mono
  intro _ _ passed
  exact ⟨passed.1, Server.calm_of_isCalm strictConfig passed.2⟩

/-- Three connections; the first is reset before it has sent a request. -/
def resetRun : List ServerEvent :=
  [.accept, .accept, .arrive 0 (.failure "uv_read: connection reset by peer"), .resume 0, .accept]

/-- The exception of the first client cancels the second and ends the accept loop at
the third. -/
theorem reset_ends_server :
    (follow (Server.step strictConfig false) (fun _ event => event.isUndisturbed) {} resetRun).map
        (fun server => (server.group.canceled, server.serving)) =
      some (true, .draining (some (.runtime "corouv::http::Server spawn failed"))) := by
  decide +kernel

end Corouv.Http
