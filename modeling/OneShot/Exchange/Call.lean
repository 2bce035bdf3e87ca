import OneShot.Exchange.Connection

/-! # A whole call

A client calls by connecting, sending its request, receiving the reply and closing. The first step
that fails decides the outcome, and the connection is closed in any case.

* `Client.call`   the call
-/

namespace OneShot

/-- A client: where it connects to, and how. -/
structure Client where
  path : Bytes
  options : ClientOptions
  deriving Repr, DecidableEq

/-- What the world does to a call. -/
structure Surroundings where
  /-- How connecting goes. -/
  attempt : List (Nat × Signal (Except Failure Unit))
  /-- How the stream takes the request. -/
  writer : Writer
  /-- What happens while the reply is awaited. -/
  course : Course

namespace Client

/-- The client of a configuration. -/
def ofConfig (c : ClientConfig) : Except UnknownFraming Client :=
  match c.options with
  | .ok options => .ok { path := Utf8.encodeString c.socketPath, options }
  | .error e => .error e

/-- A fresh connection. -/
def connection (c : Client) : Connection := { path := c.path, options := c.options }

/-- The part of a call after connecting. -/
def exchange (c : Connection) (s : Surroundings) (request : Message) : Performed Message :=
  let sent := c.send s.writer request
  match sent.outcome with
  | .ok () =>
    let received := sent.connection.receive s.course
    match received.outcome with
    | .waiting => { received with written := sent.written }
    | _ => { received with connection := received.connection.close, written := sent.written }
  | .error e =>
    { connection := sent.connection.close, outcome := .error e, written := sent.written }
  | .waiting => { connection := sent.connection, outcome := .waiting, written := sent.written }

/-- One request and its reply. -/
def call (c : Client) (s : Surroundings) (request : Message) : Performed Message :=
  let opened := c.connection.connect s.attempt
  match opened.outcome with
  | .ok () => exchange opened.connection s request
  | .error e => { connection := opened.connection, outcome := .error e }
  | .waiting => { connection := opened.connection, outcome := .waiting }

end Client

end OneShot
