import OneShot.Exchange.Arrival
import OneShot.Exchange.Error
import OneShot.Framing.Writer
import OneShot.Message.Decode
import OneShot.Options

/-! # A connection for one exchange

A connection carries one request and one reply. Its operations come in a fixed order; one that comes
out of order is refused and changes nothing. Whatever fails closes the stream and ends the call.

An operation is given what the world does to it: the course of connecting, the writer, the course of
events while the reply is awaited. What it did to the world is part of its result.

* `Connection.connect`, `send`, `receive`, `close`   the operations
* `refuse_connection`                               a refused operation changes nothing
-/

namespace OneShot

/-- A connection. -/
structure Connection where
  path : Bytes
  options : ClientOptions
  state : CallState := .idle
  /-- Whether a stream is open. -/
  isOpen : Bool := false
  deriving Repr, DecidableEq

/-- What an operation comes to. -/
inductive Outcome (α : Type) where
  | ok (value : α)
  | error (e : ExchangeError)
  /-- The operation waits for something that never happens. -/
  | waiting
  deriving Repr, DecidableEq

/-- The connection after an operation, what it came to, the bytes that the stream took, and how many
happenings came to pass. -/
structure Performed (α : Type) where
  connection : Connection
  outcome : Outcome α
  written : Bytes := []
  passed : Nat := 0
  deriving Repr, DecidableEq

namespace Connection

/-- Closes the stream and ends the call without a reply. -/
def fail (c : Connection) : Connection := { c with state := .failed, isOpen := false }

/-- Refuses an operation that is out of order. -/
def refuse {α : Type} (c : Connection) (operation : Operation) : Performed α :=
  { connection := c, outcome := .error (.invalidState operation c.state) }

theorem refuse_connection {α : Type} (c : Connection) (operation : Operation) :
    (c.refuse operation : Performed α).connection = c ∧
      (c.refuse operation : Performed α).written = [] ∧
      (c.refuse operation : Performed α).passed = 0 :=
  ⟨rfl, rfl, rfl⟩

/-- The failure of an operation that needs an open stream and has none. -/
def notConnected : Failure := ⟨.notConnected, "not connected"⟩

/-- Opens the stream; `course` says when the attempt is decided. -/
def connect (c : Connection) (course : List (Nat × Signal (Except Failure Unit))) :
    Performed Unit :=
  if c.state ≠ .idle then c.refuse .connect
  else
    match guarded c.options.connectTimeout course with
    | (.finished (.ok ()), passed) =>
      { connection := { c with state := .connected, isOpen := true }, outcome := .ok (), passed }
    | (.finished (.error failure), passed) =>
      { connection := c.fail, outcome := .error (.connect c.path failure), passed }
    | (.interrupted cause, passed) =>
      { connection := c.fail, outcome := .error (.connect c.path (cause.failure "connecting")),
        passed }
    | (.waiting, passed) =>
      { connection := { c with state := .connecting }, outcome := .waiting, passed }

/-- Writes a request as one frame. -/
def send (c : Connection) (w : Writer) (request : Message) : Performed Unit :=
  if c.state ≠ .connected then c.refuse .send
  else if !c.isOpen then { connection := c.fail, outcome := .error (.write notConnected) }
  else
    let written := c.options.framing.writeFrame w request.encode
    match written.result with
    | .ok () =>
      { connection := { c with state := .awaitingReply }, outcome := .ok (),
        written := written.taken }
    | .error failure =>
      { connection := c.fail, outcome := .error (.write failure), written := written.taken }

/-- What a payload that was read comes to. -/
def conclude (c : Connection) (passed : Nat) (payload : Bytes) : Performed Message :=
  match Message.decode payload with
  | .ok reply =>
    { connection := { c with state := .completed, isOpen := false }, outcome := .ok reply, passed }
  | .error e => { connection := c.fail, outcome := .error (.parse e), passed }

/-- Waits for the reply. -/
def receive (c : Connection) (course : Course) : Performed Message :=
  if c.state ≠ .awaitingReply then c.refuse .receive
  else if !c.isOpen then { connection := c.fail, outcome := .error (.read notConnected) }
  else
    match Reader.await c.options.framing c.options.maxReplyBytes c.options.readTimeout course with
    | (.finished (.ok payload), passed) => c.conclude passed payload
    | (.finished (.error e), passed) =>
      { connection := c.fail, outcome := .error (.read e.failure), passed }
    | (.interrupted cause, passed) =>
      { connection := c.fail, outcome := .error (.read (cause.failure "awaiting reply")), passed }
    | (.waiting, passed) => { connection := c, outcome := .waiting, passed }

/-- Closes the stream. A call that was not over counts as failed. -/
def close (c : Connection) : Connection :=
  { c with state := if c.state.isTerminal then c.state else .failed, isOpen := false }

theorem close_close (c : Connection) : c.close.close = c.close := by
  cases c with
  | mk path options state isOpen => cases state <;> rfl

end Connection

end OneShot
