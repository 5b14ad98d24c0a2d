import Corouv.Library.Transition
import Corouv.Http.Client

/-!
# Calls of `web::Client` that overlap

`connect` records the origin of its URL, waits for a new client to connect and only then puts
that client in place.  A `fetch` that finds its origin recorded and a connection open writes to
the client that is in place.  Here the calls of several coroutines interleave between these
points.  A request goes to the connection of the client it was issued on; what becomes of a
request whose client is destroyed while it is under way is not modelled.
-/

namespace Corouv.Http

open Library

structure Origin where
  scheme : Scheme
  host : Bytes
  port : ℕ
  deriving DecidableEq

def Url.origin (url : Url) : Origin :=
  ⟨url.scheme, url.host, url.port⟩

/-- What the connection of a client was opened with. -/
def Client.origin (client : Client) : Origin :=
  ⟨client.scheme, client.host, client.port⟩

/-- Where a call of `connect` or `fetch` stands. -/
inductive WebCall where
  | connecting (parsed : Url) (fetching : Bool)
  | returned
  | threw (error : Exn)

structure WebRun where
  web : WebClient := {}
  calls : List WebCall := []
  /-- The requests `fetch` has issued, with the origin of the connection each is written on. -/
  written : List (Url × Origin) := []

inductive WebEvent where
  | connect (url : Bytes)
  | fetch (url : Bytes)
  | request
  | close
  /-- The `connect` of the new client of a call completes. -/
  | completes (call : ℕ) (connected : Except Exn Unit)
  /-- The connection that is in place ends. -/
  | drops

namespace WebClient

/-- `connect` up to the point where it waits. -/
def record (parsed : Url) : WebClient :=
  { scheme := some parsed.scheme, host := parsed.host, port := parsed.port }

/-- The client `connect` puts in place. -/
def place (client : Client) (web : WebClient) : WebClient :=
  { web with impl := some client }

/-- The origin that is recorded, if there is one. -/
def recorded (web : WebClient) : Option Origin :=
  web.scheme.map fun scheme => ⟨scheme, web.host, web.port⟩

theorem matchesOrigin_iff (web : WebClient) (parsed : Url) :
    web.matchesOrigin parsed = true ↔ web.recorded = some parsed.origin := by
  rcases web with ⟨_, scheme, _, _⟩
  cases scheme with
  | none => simp [matchesOrigin, recorded]
  | some _ => simp [matchesOrigin, recorded, Url.origin, and_assoc]

end WebClient

namespace WebRun

def add (state : WebRun) (call : WebCall) : WebRun :=
  { state with calls := state.calls ++ [call] }

/-- The request of a `fetch` is issued on the client that is in place. -/
def issue (state : WebRun) (parsed : Url) : WebRun :=
  match state.web.impl with
  | none => state
  | some client =>
      if client.isConnected then
        { state with written := state.written ++ [(parsed, client.origin)] }
      else state

/-- The beginning of `connect`, for itself or for a `fetch`. -/
def starts (state : WebRun) (url : Bytes) (fetching : Bool) : WebRun :=
  match parseUrl url with
  | .error error => add { state with web := {} } (.threw error)
  | .ok parsed => add { state with web := .record parsed } (.connecting parsed fetching)

def step (state : WebRun) : WebEvent → Option WebRun
  | .connect url => some (state.starts url false)
  | .fetch url =>
      match parseUrl url with
      | .error error => some (state.add (.threw error))
      | .ok parsed =>
          if state.web.matchesOrigin parsed && state.web.isConnected then
            some ((state.issue parsed).add .returned)
          else some (state.starts url true)
  | .request => some (state.add .returned)
  | .close => some { state with web := {} }
  | .completes call connected =>
      match state.calls[call]? with
      | some (.connecting parsed fetching) =>
          match Client.connect ⟨parsed.scheme, [], 0, none⟩ parsed.host parsed.port connected with
          | .error error => some { state with calls := state.calls.set call (.threw error) }
          | .ok client =>
              let placed :=
                { state with
                  web := state.web.place client, calls := state.calls.set call .returned }
              some (if fetching then placed.issue parsed else placed)
      | _ => none
  | .drops =>
      some { state with web := { state.web with impl := state.web.impl.map Client.close } }

/-- If an origin is recorded, it is the one of the client in place. -/
def Consistent (state : WebRun) : Prop :=
  ∀ client, state.web.impl = some client →
    state.web.recorded = none ∨ state.web.recorded = some client.origin

/-- Every request of a `fetch` is written on a connection to its own origin. -/
def Straight (state : WebRun) : Prop :=
  ∀ entry ∈ state.written, entry.2 = entry.1.origin

/-- The recorded origin is the one of some URL. -/
def Known (state : WebRun) : Prop :=
  ∀ origin, state.web.recorded = some origin →
    ∃ url parsed, parseUrl url = .ok parsed ∧ parsed.origin = origin

/-- When the client of a call is put in place, the origin that is recorded is its own, or none
is. -/
def OwnOrigin (state : WebRun) : WebEvent → Prop
  | .completes call (.ok _) =>
      ∀ parsed fetching, state.calls[call]? = some (.connecting parsed fetching) →
        state.web.recorded = none ∨ state.web.recorded = some parsed.origin
  | _ => True

instance (state : WebRun) : DecidablePred state.OwnOrigin
  | .completes call (.ok _) =>
      match found : state.calls[call]? with
      | some (.connecting parsed _) =>
          decidable_of_iff (state.web.recorded = none ∨ state.web.recorded = some parsed.origin)
            (by simp [OwnOrigin, found])
      | some .returned | some (.threw _) | none => isTrue (by simp [OwnOrigin, found])
  | .completes _ (.error _) | .connect _ | .fetch _ | .request | .close | .drops => isTrue trivial

theorem issue_web (state : WebRun) (parsed : Url) : (state.issue parsed).web = state.web := by
  simp only [issue]
  split
  · rfl
  · split <;> rfl

variable {state next : WebRun}

variable {parsed : Url} {connected : Except Exn Unit} {event : WebEvent}

theorem Straight.issue (straight : state.Straight)
    (own : ∀ client, state.web.impl = some client → client.origin = parsed.origin) :
    (state.issue parsed).Straight := by
  simp only [WebRun.issue]
  split
  · exact straight
  next client placed =>
    split
    · intro entry mem
      rcases List.mem_append.mp mem with old | new
      · exact straight entry old
      · cases List.mem_singleton.mp new
        exact own client placed
    · exact straight

theorem Consistent.starts (url : Bytes) (fetching : Bool) :
    (state.starts url fetching).Consistent := by
  simp only [WebRun.starts]
  intro _ placed
  split at placed
  · cases placed
  · cases placed

theorem Straight.starts (straight : state.Straight) (url : Bytes) (fetching : Bool) :
    (state.starts url fetching).Straight := by
  simp only [WebRun.starts]
  split
  · exact straight
  · exact straight

theorem Known.starts (url : Bytes) (fetching : Bool) : (state.starts url fetching).Known := by
  simp only [WebRun.starts]
  split
  · intro _ recorded
    cases recorded
  next parsed read =>
    intro _ recorded
    cases recorded
    exact ⟨url, parsed, read, rfl⟩

theorem connect_ok {client : Client}
    (made : Client.connect ⟨parsed.scheme, [], 0, none⟩ parsed.host parsed.port connected =
      .ok client) :
    client.origin = parsed.origin ∧ client.isConnected = true ∧ connected = .ok () := by
  cases connected with
  | error _ => cases made
  | ok _ =>
      cases made
      exact ⟨rfl, rfl, rfl⟩

structure Sound (state : WebRun) : Prop where
  consistent : state.Consistent
  straight : state.Straight
  known : state.Known

theorem sound_initial : Sound {} where
  consistent client placed := by cases placed
  straight entry mem := by cases mem
  known origin recorded := by cases recorded

theorem Sound.fetch (sound : state.Sound) {url : Bytes}
    (taken : state.step (.fetch url) = some next) : next.Sound := by
  simp only [step] at taken
  split at taken
  · cases taken
    exact ⟨sound.consistent, sound.straight, sound.known⟩
  next parsed read =>
    split at taken
    next reused =>
      rw [Bool.and_eq_true, WebClient.matchesOrigin_iff] at reused
      cases taken
      have own : ∀ client, state.web.impl = some client → client.origin = parsed.origin := by
        intro client placed
        rcases sound.consistent client placed with none | same
        · rw [none] at reused
          cases reused.1
        · exact Option.some.inj (same.symm.trans reused.1)
      constructor
      · simp only [Consistent, add, issue_web]
        exact sound.consistent
      · exact sound.straight.issue own
      · simp only [Known, add, issue_web]
        exact sound.known
    · cases taken
      exact ⟨.starts url true, sound.straight.starts url true, .starts url true⟩

/-- A call that completes on its own origin writes its request there. -/
theorem Sound.completes (sound : state.Sound) {call : ℕ}
    (own : state.OwnOrigin (.completes call connected))
    (taken : state.step (.completes call connected) = some next) : next.Sound := by
  simp only [step] at taken
  split at taken
  next parsed fetching waits =>
    split at taken
    · cases taken
      exact ⟨sound.consistent, sound.straight, sound.known⟩
    next client made =>
      rcases connect_ok made with ⟨origin, -, rfl⟩
      have placed : Sound { state with
            web := state.web.place client, calls := state.calls.set call .returned } := by
        constructor
        · intro _ same
          cases same
          rw [origin]
          exact own parsed fetching waits
        · exact sound.straight
        · exact sound.known
      cases fetching with
      | false =>
          cases taken
          exact placed
      | true =>
          cases taken
          constructor
          · simp only [if_true, Consistent, issue_web]
            exact placed.consistent
          · apply placed.straight.issue
            intro _ same
            cases same
            exact origin
          · simp only [if_true, Known, issue_web]
            exact placed.known
  · cases taken

theorem Sound.step (sound : state.Sound) (own : state.OwnOrigin event)
    (taken : state.step event = some next) : next.Sound := by
  cases event with
  | connect url =>
      cases taken
      exact ⟨.starts url false, sound.straight.starts url false, .starts url false⟩
  | fetch _ => exact sound.fetch taken
  | request =>
      cases taken
      exact ⟨sound.consistent, sound.straight, sound.known⟩
  | close =>
      cases taken
      constructor
      · intro _ placed
        cases placed
      · exact sound.straight
      · intro _ recorded
        cases recorded
  | completes _ _ => exact sound.completes own taken
  | drops =>
      cases taken
      constructor
      · intro _ placed
        rcases Option.map_eq_some_iff.mp placed with ⟨before, found, rfl⟩
        exact sound.consistent before found
      · exact sound.straight
      · exact sound.known

/-- A client that is put in place under another origin receives the next request for that. -/
theorem crosses_of_not_own (known : state.Known) (taken : state.step event = some next)
    (foreign : ¬state.OwnOrigin event) :
    ∃ url later, next.step (.fetch url) = some later ∧ ¬later.Straight := by
  cases event with
  | completes _ connected =>
      cases connected with
      | error _ => exact absurd trivial foreign
      | ok _ =>
          simp only [OwnOrigin, not_forall, not_or] at foreign
          rcases foreign with ⟨parsed, _, waits, unrecorded, other⟩
          rcases Option.ne_none_iff_exists'.mp unrecorded with ⟨origin, recorded⟩
          rcases known origin recorded with ⟨url, asked, read, rfl⟩
          have differ : parsed.origin ≠ asked.origin := by
            intro same
            rw [same] at other
            exact other recorded
          have web : next.web = state.web.place
            ⟨parsed.scheme, parsed.host, parsed.port, some {}⟩ := by
            simp only [step, waits, Client.connect] at taken
            cases taken
            split
            · exact issue_web _ _
            · rfl
          have reused : (next.web.matchesOrigin asked && next.web.isConnected) = true := by
            rw [Bool.and_eq_true, WebClient.matchesOrigin_iff, web]
            exact ⟨recorded, rfl⟩
          refine ⟨url, (next.issue asked).add .returned, ?_, ?_⟩
          · simp [step, read, reused]
          · intro straight
            apply differ
            apply straight (asked, parsed.origin)
            simp only [add, issue, web, WebClient.place]
            exact List.mem_append_right _ List.mem_cons_self
  | connect url | fetch url | request | close | drops => exact absurd trivial foreign

/-- Requests keep to their origins while every client is put in place under its own; after one
that is not, the next `fetch` can be written to another origin. -/
theorem fetches_keep_origin (state : WebRun) (reached : Reached step OwnOrigin {} state) :
    state.Straight ∧ ∀ event next, state.step event = some next → ¬state.OwnOrigin event →
      ∃ url later, next.step (.fetch url) = some later ∧ ¬later.Straight := by
  have sound : state.Sound := by
    apply reached.invariant sound_initial
    intro _ _ _ sound own taken
    exact sound.step own taken
  refine ⟨sound.straight, ?_⟩
  intro _ _ taken foreign
  exact crosses_of_not_own sound.known taken foreign

theorem fetches_keep_origin_reused :
    ∃ state, Reached step OwnOrigin {} state ∧ state.written.length = 2 ∧ state.Straight := by
  have ran : ((follow step OwnOrigin {} [.fetch (ascii "http://a/x"), .completes 0 (.ok ()),
      .fetch (ascii "http://a/y")]).map fun state => state.written.length) = some 2 := by
    decide +kernel
  rcases exists_of_follow ran with ⟨state, -, reached, written⟩
  exact ⟨state, reached, written, (fetches_keep_origin state reached).1⟩

/-- A request for an `https` URL is written on a plain connection to another host. -/
theorem fetch_crosses_origin :
    ((follow step (fun _ _ => True) {} [.connect (ascii "http://b/"), .connect (ascii "https://a/"),
      .completes 0 (.ok ()), .fetch (ascii "https://a/")]).map written) =
        some [(⟨.https, ascii "a", 443, ascii "/"⟩, ⟨.http, ascii "b", 80⟩)] := by
  decide +kernel

end WebRun

end Corouv.Http
