import Corouv.Http.Connection
import Corouv.Http.Url

/-!
# The clients

`http::Client` and `https::Client`, which differ in their scheme only, and
`web::Client`, which keeps one of them for the origin it was last used with.

What the network does during a call is a parameter of the call: whether connecting
succeeds, what arrives on the connection and what becomes of the writes.  A read that an
earlier call has given up takes its share of what has arrived between the calls.
-/

namespace Corouv.Http

open Library Io

structure ClientOptions where
  config : Config
  keepAlive : Bool := true

/-- What the network has in store for one call. -/
structure Network where
  connected : Except Exn Unit := .ok ()
  arrivals : List Arrival := []
  departures : List Departure := []

def Conn.supply (network : Network) (conn : Conn) : Conn :=
  { conn with stream :=
    { conn.stream with
      arrivals := settle conn.stream.arrivals ++ network.arrivals
      departures := network.departures } }

structure Client where
  scheme : Scheme
  host : Bytes := []
  port : ℕ := 0
  connection : Option Conn := none

namespace Client

def isConnected (client : Client) : Bool :=
  client.connection.any fun conn => conn.stream.isOpen

def close (client : Client) : Client :=
  { client with connection := none }

def notConnected : Scheme → Exn
  | .http => .logic "corouv::http::Client is not connected"
  | .https => .logic "corouv::https::Client is not connected"

/-- Connecting, with the handshake for `https`. -/
def connect (client : Client) (host : Bytes) (port : ℕ) (connected : Except Exn Unit) :
    Except Exn Client :=
  match connected with
  | .error error => .error error
  | .ok () => .ok { client with host := host, port := port, connection := some {} }

end Client

/-- The part of `Client::request` that uses the connection. -/
def exchange (config : Config) (request : Request) (hostHeader : Bytes) : Task Conn Response := do
  writeRequest config request hostHeader
  readResponse config request.method

def Client.request (options : ClientOptions) (request : Request) : Task Client Response :=
  fun client =>
    match client.connection with
    | none => .error (notConnected client.scheme) client
    | some conn =>
        if conn.stream.isOpen then
          let outgoing := { request with keepAlive := request.keepAlive && options.keepAlive }
          let hostHeader := formatHostHeader client.scheme client.host client.port
          match (exchange options.config outgoing hostHeader).run conn with
          | .error error conn' => .error error { client with connection := some conn' }
          | .ok response conn' =>
              if outgoing.keepAlive && response.keepAlive then
                .ok response { client with connection := some conn' }
              else .ok response client.close
        else .error (notConnected client.scheme) client

structure WebClient where
  impl : Option Client := none
  scheme : Option Scheme := none
  host : Bytes := []
  port : ℕ := 0

namespace WebClient

def isConnected (web : WebClient) : Bool :=
  web.impl.any Client.isConnected

def matchesOrigin (web : WebClient) (parsed : Url) : Bool :=
  web.scheme = some parsed.scheme && web.host = parsed.host && web.port = parsed.port

def connect (url : Bytes) (connected : Except Exn Unit) : Task WebClient Unit := do
  set ({} : WebClient)
  match parseUrl url with
  | .error error => throw error
  | .ok parsed =>
      modify fun web =>
        { web with scheme := some parsed.scheme, host := parsed.host, port := parsed.port }
      match Client.connect ⟨parsed.scheme, [], 0, none⟩ parsed.host parsed.port connected with
      | .error error => throw error
      | .ok client => modify fun web => { web with impl := some client }

/-- The network supplies the connection that is to be used. -/
def supply (network : Network) (web : WebClient) : WebClient :=
  { web with impl := web.impl.map fun client =>
    { client with connection := client.connection.map (Conn.supply network) } }

def request (options : ClientOptions) (request : Request) : Task WebClient Response := fun web =>
  match web.impl with
  | none => .error (.logic "corouv::web::Client is not connected") web
  | some client =>
      match (Client.request options request).run client with
      | .ok response client' => .ok response { web with impl := some client' }
      | .error error client' => .error error { web with impl := some client' }

def fetch (options : ClientOptions) (url : Bytes) (request : Request) (network : Network) :
    Task WebClient Response := do
  match parseUrl url with
  | .error error => throw error
  | .ok parsed =>
      let outgoing :=
        if request.target = [] ∨ request.target = ascii "/" then
          { request with target := parsed.target }
        else request
      let web ← get
      if !web.matchesOrigin parsed || !web.isConnected then connect url network.connected
      modify (supply network)
      WebClient.request options outgoing

end WebClient

end Corouv.Http
