import OneShot.Exchange.Call
import OneShot.Proofs.Framing.Steady

/-!
# Waiting for a reply

An operation that waits in time does what its reader does over the bytes that arrive; what arrives
behind them counts only if the reader still needs more. A call that has connected is a write and
such a wait.

## Key results

- `guarded_signals`: what waiting comes to over bytes that arrive in time
- `call_of_connected`: a call is the exchange of a connection that was opened
- `exchange_of_payload`, `exchange_of_readError`: what an exchange makes of the wait
-/

namespace OneShot

/-- Bytes that arrive, each chunk at its instant. -/
def Course.ofReads (reads : List (Nat × Bytes)) : Course :=
  reads.map fun (instant, chunk) => (instant, .arrival (.bytes chunk))

/-- The end of a stream as something that arrives. -/
def Course.ofEnding (instant : Nat) : Reader.Ending → Course
  | .closed => [(instant, .arrival .closed)]
  | .silent => []
  | .failed failure => [(instant, .arrival (.failed failure))]

namespace Reader

/-- Over bytes that arrive in time a waiting operation does what its reader does. -/
theorem guarded_signals (f : Framing) (limit : Nat) (deadline : Option Nat) (r : Reader)
    (reads : List (Nat × Bytes)) (rest : Course)
    (htime : ∀ read ∈ reads, isLate deadline read.1 = false) :
    (guarded deadline (signals f limit r (Course.ofReads reads ++ rest))).1 =
      match feed f limit r (reads.map (·.2)) with
      | .more r' => (guarded deadline (signals f limit r' rest)).1
      | .frame payload => .finished (.ok payload)
      | .failed e => .finished (.error e) := by
  -- induction on the reads, none of which comes too late
  induction reads generalizing r with
  | nil => rfl
  | cons read reads ih =>
    obtain ⟨instant, chunk⟩ := read
    have hlate := htime (instant, chunk) List.mem_cons_self
    have hrest := fun read hread => htime read (List.mem_cons_of_mem _ hread)
    simp only [Course.ofReads, List.map_cons, List.cons_append, signals, onArrival, feed]
    -- a reader that needs more leaves it to the reads behind
    cases (absorb f limit r chunk).progress with
    | more r' =>
      simp only [guarded_cons deadline instant _ _ hlate]
      exact ih r' hrest
    | frame payload => simp only [guarded_cons deadline instant _ _ hlate]
    | failed e => simp only [guarded_cons deadline instant _ _ hlate]

end Reader

namespace Client

/-- The connection of a client once connecting has succeeded. -/
def connected (c : Client) : Connection :=
  { path := c.path, options := c.options, state := .connected, isOpen := true }

/-- A call that has connected is the exchange of that connection. -/
theorem call_of_connected (c : Client) (s : Surroundings) (request : Message)
    (h : (guarded c.options.connectTimeout s.attempt).1 = .finished (.ok ())) :
    c.call s request = exchange c.connected s request := by
  cases hguarded : guarded c.options.connectTimeout s.attempt with
  | mk verdict passed =>
    rw [hguarded] at h
    obtain rfl : verdict = .finished (.ok ()) := h
    simp only [call, Connection.connect, connection, hguarded, ne_eq, not_true_eq_false, if_false,
      connected]

/-- An exchange whose request could not be written fails with the reason for that. -/
theorem exchange_of_unwritten (c : Client) (s : Surroundings) (request : Message)
    (failure : Failure)
    (h : (c.options.framing.writeFrame s.writer request.encode).result = .error failure) :
    (exchange c.connected s request).outcome = .error (.write failure) := by
  simp only [exchange, Connection.send, connected, ne_eq, not_true_eq_false, if_false,
    Bool.not_true, Bool.false_eq_true, h]

/-- The connection of a client once its request was written. -/
def awaiting (c : Client) : Connection := { c.connected with state := .awaitingReply }

/-- An exchange whose request was written has the outcome of the wait for the reply. -/
private theorem exchange_of_written (c : Client) (s : Surroundings) (request : Message)
    (h : (c.options.framing.writeFrame s.writer request.encode).result = .ok ()) :
    (exchange c.connected s request).outcome = (c.awaiting.receive s.course).outcome ∧
      ((exchange c.connected s request).connection = (c.awaiting.receive s.course).connection ∨
      (exchange c.connected s request).connection =
        (c.awaiting.receive s.course).connection.close) := by
  -- the request was taken whole, so the call awaits the reply
  have hsend : (c.connected.send s.writer request).outcome = .ok () ∧
      (c.connected.send s.writer request).connection = c.awaiting := by
    simp only [Connection.send, connected, ne_eq, not_true_eq_false, if_false, Bool.not_true,
      Bool.false_eq_true, h, awaiting, and_self]
  simp only [exchange, hsend.1, hsend.2]
  -- where the wait does not return, the connection is not closed
  split
  · rename_i hwaiting
    exact ⟨hwaiting.symm ▸ rfl, .inl rfl⟩
  · exact ⟨rfl, .inr rfl⟩

/-- What an exchange waits for once its request was written. -/
def awaited (c : Client) (course : Course) : Verdict (Except ReadError Bytes) :=
  (Reader.await c.options.framing c.options.maxReplyBytes c.options.readTimeout course).1

/-- A wait that is over concludes the call with the payload, or fails with the reason for that. -/
private theorem receive_of_awaited (c : Client) (course : Course) (result : Except ReadError Bytes)
    (h : c.awaited course = .finished result) :
    ∃ passed, c.awaiting.receive course =
      match result with
      | .ok payload => c.awaiting.conclude passed payload
      | .error e =>
        { connection := c.awaiting.fail, outcome := .error (.read e.failure), passed } := by
  rw [awaited] at h
  -- the connection may receive, so what the wait comes to decides
  cases hawait : Reader.await c.options.framing c.options.maxReplyBytes c.options.readTimeout
      course with
  | mk verdict passed =>
    rw [hawait] at h
    obtain rfl : verdict = .finished result := h
    refine ⟨passed, ?_⟩
    simp only [Connection.receive, awaiting, connected, ne_eq, not_true_eq_false, if_false,
      Bool.not_true, Bool.false_eq_true, hawait]
    cases result <;> rfl

/-- An exchange that read the payload of a message returns it, and is over. -/
theorem exchange_of_payload (c : Client) (s : Surroundings) (request reply : Message)
    (payload : Bytes)
    (h : (c.options.framing.writeFrame s.writer request.encode).result = .ok ())
    (hawaited : c.awaited s.course = .finished (.ok payload))
    (hreply : Message.decode payload = .ok reply) :
    (exchange c.connected s request).outcome = .ok reply ∧
      (exchange c.connected s request).connection.state = .completed ∧
      (exchange c.connected s request).connection.isOpen = false := by
  obtain ⟨houtcome, hconnection⟩ := exchange_of_written c s request h
  obtain ⟨passed, hreceive⟩ := receive_of_awaited c s.course _ hawaited
  -- the payload decodes, so the call has its reply
  simp only [Connection.conclude, hreply] at hreceive
  rw [hreceive] at houtcome hconnection
  refine ⟨houtcome, ?_⟩
  -- closing a call that has completed changes nothing
  rcases hconnection with hconnection | hconnection
  · rw [hconnection]
    exact ⟨rfl, rfl⟩
  · rw [hconnection]
    exact ⟨rfl, rfl⟩

/-- An exchange that could not read a frame fails with the reason for that. -/
theorem exchange_of_readError (c : Client) (s : Surroundings) (request : Message) (e : ReadError)
    (h : (c.options.framing.writeFrame s.writer request.encode).result = .ok ())
    (hawaited : c.awaited s.course = .finished (.error e)) :
    (exchange c.connected s request).outcome = .error (.read e.failure) := by
  obtain ⟨passed, hreceive⟩ := receive_of_awaited c s.course _ hawaited
  rw [(exchange_of_written c s request h).1, hreceive]

end Client

end OneShot
