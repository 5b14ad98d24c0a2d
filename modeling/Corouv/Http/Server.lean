import Corouv.Http.Connection
import Corouv.TaskGroup

/-!
# The servers

`http::Server` and `https::Server`: the accept loop of `serve`, the task group it
spawns clients in, and `handle_client`.  The two differ in the TLS handshake that
precedes the first request.

A client that waits in `read_request` keeps the connection as it was when the call
began, and arrivals are put in store for it.  Resuming it runs the call on everything
that has arrived; as long as that does not suffice, nothing changes.
-/

namespace Corouv.Http

open Library Io

inductive Phase where
  | handshaking
  | reading
  | handling (requestMethod : Bytes) (requestKeepAlive : Bool)
  | finished (outcome : Option Exn)
  deriving DecidableEq, Repr

/-- One `handle_client` task. -/
structure ClientTask where
  phase : Phase
  conn : Conn := {}

inductive Serving where
  | accepting
  | draining (failure : Option Exn)
  | ended (failure : Option Exn)
  deriving DecidableEq, Repr

structure Server where
  listening : Bool := true
  group : TaskGroup := {}
  clients : List ClientTask := []
  serving : Serving := .accepting

inductive ServerEvent where
  /-- `accept` hands over a connection. -/
  | accept
  /-- `accept` throws. -/
  | acceptFailed (error : Exn)
  | close
  /-- The handshake of a client ends. -/
  | handshake (client : ℕ) (outcome : Except Exn Unit)
  | arrive (client : ℕ) (arrival : Arrival)
  /-- The fate of the next write to a client is decided. -/
  | depart (client : ℕ) (departure : Departure)
  /-- The executor resumes a client that waits for a request. -/
  | resume (client : ℕ)
  /-- The cancellation of the group reaches a client that waits for a request. -/
  | interrupt (client : ℕ)
  /-- The handler returns or throws. -/
  | handled (client : ℕ) (outcome : Except Exn Response)
  /-- `wait` of the task group is resumed. -/
  | drain

def errorResponse (status : ℤ) (body : Bytes) : Response :=
  { status := status, reason := reasonPhrase status, body := body, keepAlive := false }

/-- The response for what the handler did; a cancellation is passed on. -/
def handlerResponse : Except Exn Response → Except Exn Response
  | .ok response => .ok response
  | .error .signal => .error .signal
  | .error (.http status message) => .ok (errorResponse status (ascii message))
  | .error .foreign => .ok (errorResponse 500 (ascii "internal server error"))
  | .error error => .ok (errorResponse 500 (ascii error.what))

/-- How a client task gets on: it still waits, goes on to another phase, or ends. -/
inductive Pass where
  | waits
  | goes (phase : Phase) (conn : Conn)
  | ends (outcome : Option Exn) (conn : Conn)

/-- From the call of `read_request` to that of the handler. -/
def readPass (config : Config) (conn : Conn) : Pass :=
  match (readRequest config).run conn with
  | .ok none conn' => .ends none conn'.close
  | .ok (some request) conn' => .goes (.handling request.method request.keepAlive) conn'
  | .error (.http status message) conn' =>
      -- whatever becomes of the write, the loop is left
      let written := (writeResponse config (errorResponse status (ascii message)) []).run conn'
      .ends none (endState written).close
  | .error .suspended _ => .waits
  | .error .exhausted _ => .waits
  | .error error conn' => .ends (some error) conn'

/-- From the end of the handler to the next call of `read_request`. -/
def answerPass (config : Config) (requestMethod : Bytes) (requestKeepAlive : Bool) (conn : Conn)
    (outcome : Except Exn Response) : Pass :=
  match handlerResponse outcome with
  | .error error => .ends (some error) conn
  | .ok response =>
      let response := if requestKeepAlive then response else { response with keepAlive := false }
      match (writeResponse config response requestMethod).run conn with
      | .error _ conn' => .ends none conn'.close
      | .ok () conn' =>
          if requestKeepAlive ∧ response.keepAlive ∧ conn'.stream.isOpen then .goes .reading conn'
          else .ends none conn'.close

namespace Server

/-- The task of a client gets on, and the group hears of its end. -/
def settle (server : Server) (index : ℕ) : Pass → Server
  | .waits => server
  | .goes phase conn => { server with clients := server.clients.set index ⟨phase, conn⟩ }
  | .ends outcome conn =>
      { server with
        clients := server.clients.set index ⟨.finished outcome, conn⟩
        group := server.group.finish outcome }

/-- The accept loop is left; `failure` is rethrown in the end. -/
def leave (server : Server) (failure : Option Exn) : Server :=
  { server with serving := .draining failure, group := server.group.cancel }

/-- What the `catch` clauses of the accept loop do. -/
def acceptThrew (server : Server) : Exn → Server
  | .signal => { server with listening := false }.leave none
  | .logic message =>
      if server.listening then server.leave (some (.logic message))
      else { server with serving := .draining none }
  | .invalidArgument message =>
      if server.listening then server.leave (some (.invalidArgument message))
      else { server with serving := .draining none }
  | error => server.leave (some error)

def spawnFailed (secure : Bool) : Exn :=
  .runtime (if secure then "corouv::https::Server spawn failed"
    else "corouv::http::Server spawn failed")

/-- `with_timeout` looks at the cancellation, `recv_some` alone does not. -/
def interruptible (config : Config) : Bool :=
  config.timeouts.readHeaders.isSome || config.timeouts.readBody.isSome

/-- Something in store for a client that is still there. -/
def deliver (server : Server) (index : ℕ) (update : ByteStream → ByteStream) : Option Server :=
  (server.clients[index]?).bind fun client =>
    match client.phase with
    | .finished _ => none
    | phase =>
        let conn := { client.conn with stream := update client.conn.stream }
        some { server with clients := server.clients.set index ⟨phase, conn⟩ }

def step (config : Config) (secure : Bool) (server : Server) : ServerEvent → Option Server
  | .accept =>
      if server.serving = .accepting ∧ server.listening then
        match server.group.spawn with
        | none => some (server.acceptThrew (spawnFailed secure))
        | some group => some { server with
            group := group
            clients := server.clients ++ [⟨if secure then .handshaking else .reading, {}⟩] }
      else none
  | .acceptFailed error =>
      if server.serving = .accepting then some (server.acceptThrew error) else none
  | .close => some { server with listening := false }
  | .handshake index outcome =>
      (server.clients[index]?).bind fun client =>
        match client.phase, outcome with
        | .handshaking, .ok () => some (server.settle index (.goes .reading client.conn))
        | .handshaking, .error error => some (server.settle index (.ends (some error) client.conn))
        | _, _ => none
  | .arrive index arrival => server.deliver index fun stream =>
      { stream with arrivals := stream.arrivals ++ [arrival] }
  | .depart index departure => server.deliver index fun stream =>
      { stream with departures := stream.departures ++ [departure] }
  | .resume index =>
      (server.clients[index]?).bind fun client =>
        match client.phase with
        | .reading => some (server.settle index (readPass config client.conn))
        | _ => none
  | .interrupt index =>
      (server.clients[index]?).bind fun client =>
        if client.phase = .reading ∧ server.group.canceled ∧ interruptible config then
          some (server.settle index (.ends (some .signal) client.conn))
        else none
  | .handled index outcome =>
      (server.clients[index]?).bind fun client =>
        match client.phase with
        | .handling requestMethod requestKeepAlive =>
            some (server.settle index
              (answerPass config requestMethod requestKeepAlive client.conn outcome))
        | _ => none
  | .drain =>
      match server.serving with
      | .draining failure =>
          if server.group.drained then
            some { server with
              serving := .ended (failure.or server.group.firstError)
              group := { server.group with firstError := none } }
          else none
      | _ => none

end Server

end Corouv.Http
