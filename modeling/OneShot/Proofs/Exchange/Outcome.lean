import OneShot.Proofs.Exchange.Steps
import OneShot.Proofs.Exchange.Waiting

/-!
# The outcome of a call

A call opens its stream, writes the request, reads the reply and makes sense of it, and the first of
these that fails decides what the call returns. `Ending` lists the ways a call can end, each with
what the world did to it, with the connection as it is left and with what was written; what is known
of every call is a case analysis over it.

## Key results

- `Ending.of_call`: every call ends in one of these ways
- `firstFailure_call`: the first step that fails decides, and the connection is released
-/

namespace OneShot

/-- How a wait has ended, if it has: with its value, or with the failure that callers see. -/
def Verdict.ended {ε α : Type} (activity : String) (failure : ε → Failure) :
    Verdict (Except ε α) → Option (Except Failure α)
  | .finished (.ok value) => some (.ok value)
  | .finished (.error e) => some (.error (failure e))
  | .interrupted cause => some (.error (cause.failure activity))
  | .waiting => none

namespace Client

/-- How connecting has ended, if it has. -/
def opening (c : Client) (s : Surroundings) : Option (Except Failure Unit) :=
  (guarded c.options.connectTimeout s.attempt).1.ended "connecting" id

/-- How writing the request has ended. -/
def writing (c : Client) (s : Surroundings) (request : Message) : Writer.Written :=
  c.options.framing.writeFrame s.writer request.encode

/-- How reading the payload of the reply has ended, if it has. -/
def reading (c : Client) (s : Surroundings) : Option (Except Failure Bytes) :=
  (c.awaited s.course).ended "awaiting reply" ReadError.failure

/-- The connection of a call that is over. -/
def released (c : Client) (state : CallState) : Connection :=
  { path := c.path, options := c.options, state }

/-- The ways in which a call can end, or never end. -/
inductive Ending (c : Client) (s : Surroundings) (request : Message) :
    Performed Message → Prop where
  | unopened (failure : Failure) (hopening : c.opening s = some (.error failure)) :
      Ending c s request
        { connection := c.released .failed, outcome := .error (.connect c.path failure) }
  | neverOpened (left : Connection) (hopening : c.opening s = none)
      (hleft : left.state = .connecting) :
      Ending c s request { connection := left, outcome := .waiting }
  | unwritten (failure : Failure) (hopening : c.opening s = some (.ok ()))
      (hwriting : (c.writing s request).result = .error failure) :
      Ending c s request
        { connection := c.released .failed, outcome := .error (.write failure),
          written := (c.writing s request).taken }
  | unread (failure : Failure) (passed : Nat) (hopening : c.opening s = some (.ok ()))
      (hwriting : (c.writing s request).result = .ok ())
      (hreading : c.reading s = some (.error failure)) :
      Ending c s request
        { connection := c.released .failed, outcome := .error (.read failure),
          written := (c.writing s request).taken, passed }
  | neverRead (left : Connection) (passed : Nat) (hopening : c.opening s = some (.ok ()))
      (hwriting : (c.writing s request).result = .ok ()) (hreading : c.reading s = none)
      (hleft : left.state = .awaitingReply) :
      Ending c s request
        { connection := left, outcome := .waiting, written := (c.writing s request).taken, passed }
  | unparsed (payload : Bytes) (e : Json.Error) (passed : Nat)
      (hopening : c.opening s = some (.ok ())) (hwriting : (c.writing s request).result = .ok ())
      (hreading : c.reading s = some (.ok payload)) (hdecode : Message.decode payload = .error e) :
      Ending c s request
        { connection := c.released .failed, outcome := .error (.parse e),
          written := (c.writing s request).taken, passed }
  | answered (payload : Bytes) (reply : Message) (passed : Nat)
      (hopening : c.opening s = some (.ok ())) (hwriting : (c.writing s request).result = .ok ())
      (hreading : c.reading s = some (.ok payload)) (hdecode : Message.decode payload = .ok reply) :
      Ending c s request
        { connection := c.released .completed, outcome := .ok reply,
          written := (c.writing s request).taken, passed }

namespace Ending

variable {c : Client} {s : Surroundings} {request : Message}

/-- How a call ends once its request was written. -/
private theorem of_written (hopening : c.opening s = some (.ok ()))
    (hwriting : (c.writing s request).result = .ok ()) :
    c.Ending s request (exchange c.connected s request) := by
  cases hawait : Reader.await c.options.framing c.options.maxReplyBytes c.options.readTimeout
      s.course with
  | mk verdict passed =>
    have hreading : c.reading s = verdict.ended "awaiting reply" ReadError.failure := by
      rw [reading, awaited, hawait]
    have hsent := hwriting
    rw [writing] at hsent
    -- the connection has its stream and awaits the reply, so the wait decides
    simp only [exchange, Connection.send, Connection.receive, connected, ne_eq, not_true_eq_false,
      if_false, Bool.not_true, Bool.false_eq_true, hsent, hawait]
    -- the wait fails, has a payload that is a message or not, is given up, or goes on
    rcases verdict with result | cause | _
    · cases result with
      | error e => exact .unread e.failure passed hopening hwriting hreading
      | ok payload =>
        simp only [Connection.conclude]
        cases hdecode : Message.decode payload with
        | error e => exact .unparsed payload e passed hopening hwriting hreading hdecode
        | ok reply => exact .answered payload reply passed hopening hwriting hreading hdecode
    · exact .unread (cause.failure "awaiting reply") passed hopening hwriting hreading
    · exact .neverRead _ passed hopening hwriting hreading rfl

/-- How a call ends once it has connected. -/
private theorem of_connected (hopening : c.opening s = some (.ok ())) :
    c.Ending s request (exchange c.connected s request) := by
  cases hwriting : (c.writing s request).result with
  | ok _ => exact of_written hopening hwriting
  | error failure =>
    have h := Ending.unwritten failure hopening hwriting
    rw [writing] at h hwriting
    simp only [exchange, Connection.send, connected, ne_eq, not_true_eq_false, if_false,
      Bool.not_true, Bool.false_eq_true, hwriting]
    exact h

/-- Every call ends in one of these ways, or never. -/
theorem of_call (c : Client) (s : Surroundings) (request : Message) :
    c.Ending s request (c.call s request) := by
  cases hguarded : guarded c.options.connectTimeout s.attempt with
  | mk verdict passed =>
    have hopening : c.opening s = verdict.ended "connecting" id := by rw [opening, hguarded]
    -- a fresh connection is idle, so the attempt decides
    simp only [call, Connection.connect, connection, hguarded, ne_eq, not_true_eq_false, if_false]
    -- only an attempt that finishes well leads on to the exchange
    rcases verdict with result | cause | _
    · cases result with
      | error failure => exact .unopened failure hopening
      | ok _ => exact of_connected hopening
    · exact .unopened (cause.failure "connecting") hopening
    · exact .neverOpened _ hopening rfl

/-! ### What an ending tells -/

variable {p : Performed Message}

/-- No operation of a call is out of order. -/
theorem never_refused (h : c.Ending s request p) (operation : Operation) (state : CallState) :
    p.outcome ≠ .error (.invalidState operation state) := by
  cases h <;> nofun

/-- A call fails to connect exactly if connecting fails. -/
theorem connect_iff (h : c.Ending s request p) (path : Bytes) (failure : Failure) :
    p.outcome = .error (.connect path failure) ↔
      path = c.path ∧ c.opening s = some (.error failure) := by
  cases h with
  | unopened failure hopening => simp [hopening, eq_comm]
  | _ => simp [*]

/-- A call fails to write exactly if it has connected and the request is not written. -/
theorem write_iff (h : c.Ending s request p) (failure : Failure) :
    p.outcome = .error (.write failure) ↔
      c.opening s = some (.ok ()) ∧ (c.writing s request).result = .error failure := by
  cases h <;> simp [*]

/-- A call fails to read exactly if its request was written and reading fails. -/
theorem read_iff (h : c.Ending s request p) (failure : Failure) :
    p.outcome = .error (.read failure) ↔
      c.opening s = some (.ok ()) ∧ (c.writing s request).result = .ok () ∧
        c.reading s = some (.error failure) := by
  cases h <;> simp [*]

/-- A call fails to parse exactly if a payload was read that is no message. -/
theorem parse_iff (h : c.Ending s request p) (e : Json.Error) :
    p.outcome = .error (.parse e) ↔
      c.opening s = some (.ok ()) ∧ (c.writing s request).result = .ok () ∧
        ∃ payload, c.reading s = some (.ok payload) ∧ Message.decode payload = .error e := by
  cases h <;> simp [*]

/-- A call succeeds exactly with the message of the payload that was read. -/
theorem ok_iff (h : c.Ending s request p) (reply : Message) :
    p.outcome = .ok reply ↔
      c.opening s = some (.ok ()) ∧ (c.writing s request).result = .ok () ∧
        ∃ payload, c.reading s = some (.ok payload) ∧ Message.decode payload = .ok reply := by
  cases h <;> simp [*]

/-- A call does not return exactly if it waits for its stream or for the reply. -/
theorem waiting_iff (h : c.Ending s request p) :
    p.outcome = .waiting ↔
      c.opening s = none ∨
        c.opening s = some (.ok ()) ∧ (c.writing s request).result = .ok () ∧
          c.reading s = none := by
  cases h <;> simp [*]

/-- Without a stream nothing is written and nothing is read. -/
theorem unopened_silent (h : c.Ending s request p) (path : Bytes) (failure : Failure)
    (hconnect : p.outcome = .error (.connect path failure)) : p.written = [] ∧ p.passed = 0 := by
  cases h with
  | unopened => exact ⟨rfl, rfl⟩
  | _ => cases hconnect

/-- Nothing is read unless the whole request was written. -/
theorem unwritten_silent (h : c.Ending s request p) (failure : Failure)
    (hwrite : p.outcome = .error (.write failure)) : p.passed = 0 := by
  cases h with
  | unwritten => rfl
  | _ => cases hwrite

/-- A call that returns has closed its stream. -/
theorem released (h : c.Ending s request p) (hreturns : p.outcome ≠ .waiting) :
    p.connection.isOpen = false := by
  cases h with
  | neverOpened | neverRead => exact absurd rfl hreturns
  | _ => rfl

/-- A call leaves its connection completed exactly if it returns a reply. -/
theorem completed_iff (h : c.Ending s request p) :
    p.connection.state = .completed ↔ ∃ reply, p.outcome = .ok reply := by
  cases h <;> simp [*, Client.released]

/-- A call leaves its connection failed exactly if it returns an error. -/
theorem failed_iff (h : c.Ending s request p) :
    p.connection.state = .failed ↔ ∃ e, p.outcome = .error e := by
  cases h <;> simp [*, Client.released]

end Ending

/-- What is known of a call: the first step that fails decides. -/
structure FirstFailure (c : Client) (s : Surroundings) (request : Message) (p : Performed Message) :
    Prop where
  never_refused : ∀ operation state, p.outcome ≠ .error (.invalidState operation state)
  connect_iff : ∀ path failure, p.outcome = .error (.connect path failure) ↔
    path = c.path ∧ c.opening s = some (.error failure)
  write_iff : ∀ failure, p.outcome = .error (.write failure) ↔
    c.opening s = some (.ok ()) ∧ (c.writing s request).result = .error failure
  read_iff : ∀ failure, p.outcome = .error (.read failure) ↔
    c.opening s = some (.ok ()) ∧ (c.writing s request).result = .ok () ∧
      c.reading s = some (.error failure)
  parse_iff : ∀ e, p.outcome = .error (.parse e) ↔
    c.opening s = some (.ok ()) ∧ (c.writing s request).result = .ok () ∧
      ∃ payload, c.reading s = some (.ok payload) ∧ Message.decode payload = .error e
  /-- The reply is what was decoded, whatever its id is. -/
  ok_iff : ∀ reply, p.outcome = .ok reply ↔
    c.opening s = some (.ok ()) ∧ (c.writing s request).result = .ok () ∧
      ∃ payload, c.reading s = some (.ok payload) ∧ Message.decode payload = .ok reply
  /-- A call that does not return waits for its stream or for the reply. -/
  waiting_iff : p.outcome = .waiting ↔
    c.opening s = none ∨
      c.opening s = some (.ok ()) ∧ (c.writing s request).result = .ok () ∧ c.reading s = none
  /-- Without a stream nothing is written and nothing is read. -/
  unopened : ∀ path failure, p.outcome = .error (.connect path failure) →
    p.written = [] ∧ c.connection.bytesRead s.course p.passed = []
  /-- Nothing is read unless the whole request was written. -/
  unwritten : ∀ failure, p.outcome = .error (.write failure) →
    c.connection.bytesRead s.course p.passed = []
  released : p.outcome ≠ .waiting → p.connection.isOpen = false
  completed_iff : p.connection.state = .completed ↔ ∃ reply, p.outcome = .ok reply
  failed_iff : p.connection.state = .failed ↔ ∃ e, p.outcome = .error e

/-- Every call that returns has the failure of the first step that fails, or the message of the
payload that it read. Then its stream is closed, and its state says whether it has a reply. -/
theorem firstFailure_call (c : Client) (s : Surroundings) (request : Message) :
    FirstFailure c s request (c.call s request) := by
  have h := Ending.of_call c s request
  -- where nothing of the course was passed, nothing was read
  have hnothing : ∀ p : Performed Message, p.passed = 0 →
      c.connection.bytesRead s.course p.passed = [] := by
    intro p hpassed
    rw [hpassed]
    rfl
  exact
    { never_refused := h.never_refused
      connect_iff := h.connect_iff
      write_iff := h.write_iff
      read_iff := h.read_iff
      parse_iff := h.parse_iff
      ok_iff := h.ok_iff
      waiting_iff := h.waiting_iff
      unopened := fun path failure hconnect =>
        (h.unopened_silent path failure hconnect).imp_right (hnothing _)
      unwritten := fun failure hwrite => hnothing _ (h.unwritten_silent failure hwrite)
      released := h.released
      completed_iff := h.completed_iff
      failed_iff := h.failed_iff }

end Client

end OneShot
