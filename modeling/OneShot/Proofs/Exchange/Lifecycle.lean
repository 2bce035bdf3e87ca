import OneShot.Exchange.Call
import OneShot.Proofs.Exchange.Steps

/-!
# The life of a connection

A run takes steps on a connection, in any order and with any outcome. After each call that returns,
the connection is at rest: in one of five states, and with a stream exactly if it is connected or
awaits the reply. How it got to an end can be told from the calls: `completed` says that a reply was
returned, and `failed` that a call failed or that the connection was closed too early.

Each of these is a lemma about one step, and then an induction on the steps.

## Key results

- `Transition.atRest`, `Transition.completed_iff`, `Transition.failed_iff`: what one step keeps
- `atRest_reached`, `completed_reached_iff`, `failed_reached_iff`: what a run keeps
- `lifecycle_reached`: all of it, for a fresh connection
-/

namespace OneShot.Connection

/-! ### Runs -/

/-- The turns of steps that are taken one after the other. A caller waits for each call, so one that
never returns is the last; runs in which a caller gives up a call and goes on are left out. -/
def run (c : Connection) : List Step → List Turn
  | [] => []
  | step :: rest =>
    ⟨c, step⟩ ::
      match (c.perform step).outcome with
      | .waiting => []
      | _ => (c.perform step).connection.run rest

/-- Whether every call of a run returns. -/
def Returns (c : Connection) (steps : List Step) : Prop :=
  ∀ t ∈ c.run steps, t.outcome ≠ .waiting

instance (c : Connection) (steps : List Step) : Decidable (c.Returns steps) :=
  inferInstanceAs (Decidable (∀ t ∈ c.run steps, t.outcome ≠ .waiting))

/-- The connection after steps that all return. -/
def reached (c : Connection) (steps : List Step) : Connection :=
  steps.foldl (fun c step => (c.perform step).connection) c

/-- A call that never returns ends the run. -/
theorem run_cons_of_waiting (c : Connection) (step : Step) (rest : List Step)
    (h : (c.perform step).outcome = .waiting) : c.run (step :: rest) = [⟨c, step⟩] := by
  rw [run, h]

/-- After a call that returns, the run goes on. -/
theorem run_cons_of_returns (c : Connection) (step : Step) (rest : List Step)
    (h : (c.perform step).outcome ≠ .waiting) :
    c.run (step :: rest) = ⟨c, step⟩ :: (c.perform step).connection.run rest := by
  rw [run]
  split
  · rename_i hwaiting
    exact absurd hwaiting h
  · rfl

/-- Every call returns if the first one does and then all others do. -/
theorem returns_cons_iff (c : Connection) (step : Step) (rest : List Step) :
    c.Returns (step :: rest) ↔
      (c.perform step).outcome ≠ .waiting ∧ (c.perform step).connection.Returns rest := by
  by_cases h : (c.perform step).outcome = .waiting
  · rw [Returns, run_cons_of_waiting c step rest h]
    simp [Turn.outcome, Turn.performed, h]
  · rw [Returns, run_cons_of_returns c step rest h, List.forall_mem_cons]
    rfl

@[simp] theorem reached_nil (c : Connection) : c.reached [] = c := rfl

@[simp] theorem reached_cons (c : Connection) (step : Step) (rest : List Step) :
    c.reached (step :: rest) = (c.perform step).connection.reached rest := rfl

/-! ### One step -/

/-- A connection between two calls. -/
structure AtRest (c : Connection) : Prop where
  state_mem : c.state ∈ [.idle, .connected, .awaitingReply, .completed, .failed]
  isOpen_eq : c.isOpen = c.state.hasStream

namespace Transition

variable {c : Connection} {step : Step} {p : Performed (Option Message)}

/-- A call that returns leaves the connection at rest. -/
theorem atRest (h : Transition c step p) (hreturns : p.outcome ≠ .waiting) (hrest : c.AtRest) :
    p.connection.AtRest := by
  -- a step that returns leaves the stream open exactly between its connection and its end
  cases h with
  | refused => exact hrest
  | connected => exact ⟨by simp, rfl⟩
  | sent writer request hstate hopen => exact ⟨by simp, hopen⟩
  | received => exact ⟨by simp, rfl⟩
  | failed => exact ⟨by simp [fail], rfl⟩
  | neverConnected => exact absurd rfl hreturns
  | neverReceived => exact absurd rfl hreturns
  | closed =>
    cases hstate : c.state <;> constructor <;>
      simp [close, hstate, CallState.isTerminal, CallState.hasStream]

/-- A call that is over stays as it ended, whatever is called. -/
theorem terminal (h : Transition c step p) (hterminal : c.state.isTerminal = true) :
    p.outcome ≠ .waiting ∧ p.connection.state = c.state := by
  -- in a terminal state an operation is refused, and closing again changes nothing
  cases h with
  | refused => exact ⟨nofun, rfl⟩
  | closed => exact ⟨nofun, if_pos hterminal⟩
  | failed step operation e written passed hstep hstate =>
    rw [hstate] at hterminal
    cases operation <;> cases hterminal
  | connected attempt passed hstate | sent writer request hstate
  | received course reply passed hstate | neverConnected attempt passed hstate
  | neverReceived course passed hstate =>
    -- the others need a state that is not terminal
    rw [hstate] at hterminal
    cases hterminal

/-- A step completes a call exactly if it returns a reply. -/
theorem completed_iff (h : Transition c step p) (hreturns : p.outcome ≠ .waiting) :
    p.connection.state = .completed ↔
      c.state = .completed ∨ ∃ reply, p.outcome = .ok (some reply) := by
  -- only a reply completes a call, and nothing takes that back
  cases h with
  | refused => exact ⟨.inl, fun h => h.resolve_right nofun⟩
  | connected attempt passed hstate => simp [hstate]
  | sent writer request hstate => simp [hstate]
  | received course reply => exact ⟨fun _ => .inr ⟨reply, rfl⟩, fun _ => rfl⟩
  | failed step operation e written passed hstep hstate =>
    -- an operation that failed was allowed, and none is once the call has completed
    have hne : c.state ≠ .completed := by
      rw [hstate]
      cases operation <;> decide
    simp [fail, hne]
  | neverConnected => exact absurd rfl hreturns
  | neverReceived => exact absurd rfl hreturns
  | closed => cases hstate : c.state <;> simp [close, hstate, CallState.isTerminal]

/-- A step makes a call fail exactly if it fails itself, or closes a call that is not complete. -/
theorem failed_iff (h : Transition c step p) (hreturns : p.outcome ≠ .waiting) :
    p.connection.state = .failed ↔
      c.state = .failed ∨ (∃ e, p.outcome = .error e ∧ e.isFatal = true) ∨
        step = .close ∧ c.state ≠ .completed := by
  -- a call fails by an error that is fatal or by closing before the reply
  cases h with
  | refused step operation hstep hstate =>
    -- what is refused is an operation, and a refusal is not fatal
    have hne : step ≠ .close := by
      rintro rfl
      cases hstep
    simp [refuse, hne, ExchangeError.isFatal]
  | connected attempt passed hstate => simp [hstate]
  | sent writer request hstate => simp [hstate]
  | received course reply passed hstate => simp [hstate]
  | failed step operation e written passed hstep hstate hfatal =>
    exact ⟨fun _ => .inr (.inl ⟨e, rfl, hfatal⟩), fun _ => rfl⟩
  | neverConnected => exact absurd rfl hreturns
  | neverReceived => exact absurd rfl hreturns
  | closed => cases hstate : c.state <;> simp [close, hstate, CallState.isTerminal]

end Transition

/-! ### Whole runs -/

/-- After calls that return, a connection that was at rest is at rest. -/
theorem atRest_reached (c : Connection) (steps : List Step) (hreturns : c.Returns steps)
    (hrest : c.AtRest) : (c.reached steps).AtRest := by
  -- induction on the steps, each of which leaves the connection at rest
  induction steps generalizing c with
  | nil => exact hrest
  | cons step rest ih =>
    obtain ⟨hstep, hlater⟩ := (returns_cons_iff c step rest).mp hreturns
    exact ih _ hlater ((Transition.of_perform c step).atRest hstep hrest)

/-- A call that is over stays as it ended. -/
theorem state_reached_of_terminal (c : Connection) (steps : List Step)
    (hterminal : c.state.isTerminal = true) : (c.reached steps).state = c.state := by
  induction steps generalizing c with
  | nil => rfl
  | cons step rest ih =>
    have hstate := ((Transition.of_perform c step).terminal hterminal).2
    rw [reached_cons, ih _ (hstate ▸ hterminal), hstate]

/-- A call is complete exactly if a reply was returned. -/
theorem completed_reached_iff (c : Connection) (steps : List Step) (hreturns : c.Returns steps) :
    (c.reached steps).state = .completed ↔
      c.state = .completed ∨ ∃ t ∈ c.run steps, ∃ reply, t.outcome = .ok (some reply) := by
  -- induction on the steps: the first one returns the reply, or one of the others does
  induction steps generalizing c with
  | nil => simp [run]
  | cons step rest ih =>
    obtain ⟨hstep, hlater⟩ := (returns_cons_iff c step rest).mp hreturns
    rw [reached_cons, ih _ hlater, (Transition.of_perform c step).completed_iff hstep,
      run_cons_of_returns c step rest hstep, List.exists_mem_cons_iff, or_assoc]
    rfl

/-- Whether `close` was called before a reply was returned. -/
def ClosedEarly (turns : List Turn) : Prop :=
  ∃ t ∈ turns.takeWhile (·.reply?.isNone), t.step = .close

/-- Of a run that goes on, the first call closes early, or it returns no reply and the rest does. -/
theorem closedEarly_cons_iff (t : Turn) (turns : List Turn) :
    ClosedEarly (t :: turns) ↔ t.step = .close ∨ t.reply? = none ∧ ClosedEarly turns := by
  -- a close returns no reply itself, so it counts as one of the calls before the reply
  have hclose : t.step = .close → t.reply? = none := by
    intro hstep
    rw [Turn.reply?, Turn.outcome, Turn.performed, hstep]
    rfl
  cases hreply : t.reply? with
  | none => simp [ClosedEarly, hreply]
  | some reply =>
    have hne : t.step ≠ .close := fun hstep => by simp [hclose hstep] at hreply
    simp [ClosedEarly, hreply, hne]

/-- A call has failed exactly if one of its operations did, or if it was closed before it was
complete. -/
theorem failed_reached_iff (c : Connection) (steps : List Step) (hreturns : c.Returns steps) :
    (c.reached steps).state = .failed ↔
      c.state = .failed ∨
        (∃ t ∈ c.run steps, ∃ e, t.outcome = .error e ∧ e.isFatal = true) ∨
        c.state ≠ .completed ∧ ClosedEarly (c.run steps) := by
  -- induction on the steps; whether a later close comes too early depends on what the first returns
  induction steps generalizing c with
  | nil => simp [run, ClosedEarly]
  | cons step rest ih =>
    obtain ⟨hstep, hlater⟩ := (returns_cons_iff c step rest).mp hreturns
    have hfailed := (Transition.of_perform c step).failed_iff hstep
    have hcompleted : (c.perform step).connection.state ≠ .completed ↔ _ :=
      not_congr ((Transition.of_perform c step).completed_iff hstep)
    have hreply : (⟨c, step⟩ : Turn).reply? = none ↔
        ¬∃ reply, (c.perform step).outcome = .ok (some reply) := by
      simp only [Option.eq_none_iff_forall_ne_some, ne_eq, Turn.reply?_eq_some_iff, not_exists]
      rfl
    rw [reached_cons, ih _ hlater, hfailed, hcompleted, run_cons_of_returns c step rest hstep,
      List.exists_mem_cons_iff, closedEarly_cons_iff, hreply]
    -- what is left is to sort the causes: the step fails, closes too early, or leaves it to others
    simp only [ne_eq, not_or, and_or_left, or_assoc, and_assoc]
    apply iff_of_eq
    ac_rfl

/-- Closing again changes nothing, however often. -/
theorem reached_replicate_close (c : Connection) (n : Nat) :
    c.reached (List.replicate (n + 1) .close) = c.close := by
  induction n generalizing c with
  | zero => rfl
  | succ n ih =>
    rw [List.replicate_succ, reached_cons]
    exact (ih c.close).trans c.close_close

/-! ### The stream that is missing -/

/-- A connection at rest tells a send that there is no stream only if the stream says so itself. -/
theorem AtRest.send_notConnected {c : Connection} (h : c.AtRest) (writer : Writer)
    (request : Message)
    (hsend : (c.send writer request).outcome = .error (.write notConnected)) :
    (c.options.framing.writeFrame writer request.encode).result = .error notConnected := by
  simp only [send] at hsend
  split at hsend
  · cases hsend
  · rename_i hstate
    -- the send is allowed, so the stream is there, and the writer itself has failed so
    have hopen : c.isOpen = true := by
      rw [h.isOpen_eq, Decidable.not_not.mp hstate]
      rfl
    rw [hopen] at hsend
    simp only [Bool.not_true, Bool.false_eq_true, if_false] at hsend
    split at hsend
    · cases hsend
    · rename_i failure hresult
      cases hsend
      exact hresult

/-- A connection at rest tells a reception that there is no stream only if the stream says so
itself. -/
theorem AtRest.receive_notConnected {c : Connection} (h : c.AtRest) (course : Course)
    (hreceive : (c.receive course).outcome = .error (.read notConnected)) :
    ∃ e, (Reader.await c.options.framing c.options.maxReplyBytes c.options.readTimeout course).1 =
      .finished (.error e) ∧ e.failure = notConnected := by
  simp only [receive] at hreceive
  split at hreceive
  · cases hreceive
  · rename_i hstate
    -- the stream is there, so the reader itself has failed so
    have hopen : c.isOpen = true := by
      rw [h.isOpen_eq, Decidable.not_not.mp hstate]
      rfl
    rw [hopen] at hreceive
    simp only [Bool.not_true, Bool.false_eq_true, if_false] at hreceive
    split at hreceive
    · simp only [conclude] at hreceive
      split at hreceive <;> cases hreceive
    · rename_i e passed hawait
      -- the reader has failed, and its error is what receive returns
      refine ⟨e, by rw [hawait], ?_⟩
      simpa using hreceive
    · rename_i cause passed hawait
      -- neither a timeout nor a cancellation is of this kind
      have hkind : (cause.failure "awaiting reply").kind = .notConnected := by
        simp only [Outcome.error.injEq, ExchangeError.read.injEq] at hreceive
        rw [hreceive]
        rfl
      cases cause <;> cases hkind
    · cases hreceive

/-! ### All of it -/

/-- What is known of a connection after a run. -/
structure Lifecycle (turns : List Turn) (c : Connection) : Prop where
  state_mem : c.state ∈ [.idle, .connected, .awaitingReply, .completed, .failed]
  isOpen_iff : c.isOpen = true ↔ c.state = .connected ∨ c.state = .awaitingReply
  /-- A call never finds itself without a stream where it needs one. -/
  send_notConnected : ∀ writer request,
    (c.send writer request).outcome = .error (.write notConnected) →
      (c.options.framing.writeFrame writer request.encode).result = .error notConnected
  receive_notConnected : ∀ course,
    (c.receive course).outcome = .error (.read notConnected) →
      ∃ e, (Reader.await c.options.framing c.options.maxReplyBytes c.options.readTimeout
        course).1 = .finished (.error e) ∧ e.failure = notConnected
  /-- A call that is over stays as it ended. -/
  terminal : c.state = .completed ∨ c.state = .failed →
    ∀ later, (c.reached later).state = c.state
  completed_iff : c.state = .completed ↔ ∃ t ∈ turns, ∃ reply, t.outcome = .ok (some reply)
  failed_iff : c.state = .failed ↔
    (∃ t ∈ turns, ∃ e, t.outcome = .error e ∧ e.isFatal = true) ∨ ClosedEarly turns
  /-- Closing again changes nothing, however often. -/
  close_again : ∀ n, c.reached (List.replicate (n + 1) .close) = c.reached [.close]

/-- After every run whose calls return, a connection is in one of five states and holds a stream
exactly if it is connected or awaits the reply. It is completed exactly if a reply was returned, and
failed exactly if an operation failed or it was closed before that; then it stays so. -/
theorem lifecycle_reached (client : Client) (steps : List Step)
    (hreturns : client.connection.Returns steps) :
    Lifecycle (client.connection.run steps) (client.connection.reached steps) := by
  have hrest : (client.connection.reached steps).AtRest :=
    atRest_reached client.connection steps hreturns ⟨by simp [Client.connection], rfl⟩
  refine ⟨hrest.state_mem, ?_, hrest.send_notConnected, hrest.receive_notConnected, ?_, ?_, ?_, ?_⟩
  · -- at rest the stream is open where the state has one
    rw [hrest.isOpen_eq]
    cases (client.connection.reached steps).state <;> simp [CallState.hasStream]
  · intro hterminal later
    -- both states are terminal, and a terminal state is kept
    refine state_reached_of_terminal _ later ?_
    rcases hterminal with hstate | hstate <;> rw [hstate] <;> rfl
  · -- a call starts idle, so it was neither completed nor failed before the steps
    rw [completed_reached_iff client.connection steps hreturns]
    simp [Client.connection]
  · rw [failed_reached_iff client.connection steps hreturns]
    simp [Client.connection]
  · -- closing any number of times is closing once
    intro n
    rw [reached_replicate_close]
    rfl

/-- A reply that arrives in two parts is returned, and completes its call for good: a reception that
comes too early, a second connect and two closes do not change that. -/
theorem lifecycle_reached_cut_reply :
    ∃ (client : Client) (steps : List Step), client.connection.Returns steps ∧
      Lifecycle (client.connection.run steps) (client.connection.reached steps) ∧
      (client.connection.run steps).filterMap Turn.reply? = [⟨"x", 5⟩] ∧
      (client.connection.reached steps).state = .completed := by
  refine ⟨{ path := [], options := { framing := .newline } },
    [.connect [(0, .done (.ok ()))], .receive [],
      .send { answer := fun _ => .takes 3, flush := .ok () } ⟨"x", 5⟩,
      .receive [(0, .arrival (.bytes ((Message.encode ⟨"x", 5⟩).take 4))), (0, .nothing),
        (1, .arrival (.bytes ((Message.encode ⟨"x", 5⟩).drop 4 ++ [Framing.lineEnd])))],
      .connect [], .close, .close], ?_, lifecycle_reached _ _ ?_, ?_, ?_⟩
  · decide +kernel
  · decide +kernel
  · decide +kernel
  · decide +kernel

end OneShot.Connection
