import OneShot.Proofs.Exchange.Race
import OneShot.Proofs.Exchange.Steps
import OneShot.Rehearsal.Conversation

/-!
# Deadlines and cancellations

A reception is decided by the first of its completion, its deadline and its cancellation, and so is
an attempt to connect. What is given up leaves a connection that is over, and the error says why.

A cancellation from before the operation is the first of its happenings. Then nothing else comes to
pass, whatever the operation would have met, and a whole call ends before it has a stream.

## Key results

- `Reader.await_settles`: the first of the three events settles a reception
- `Connection.connect_of_interrupted`, `Connection.receive_of_interrupted`: an operation that was
  given up
- `Client.call_of_cancelled`: a call that was cancelled before it began
- `earliestDecides`: all of it
-/

namespace OneShot

/-! ### Receptions -/

/-- The first cancellation in the course of a reception. -/
def Course.cancellation? (course : Course) : Option Nat :=
  course.findSome? fun
    | (instant, .cancel) => some instant
    | _ => none

/-- A cancellation is not earlier than the first happening. -/
theorem Course.le_cancellation {e : Nat × Happening} {rest : Course}
    (horder : InOrder (e :: rest)) (instant : Nat)
    (h : Course.cancellation? (e :: rest) = some instant) : e.1 ≤ instant := by
  refine horder.le_of_findSome? h instant ?_
  rintro ⟨instant', _ | _ | _⟩ hpick <;> cases hpick
  rfl

/-- The race that the course of a reception makes with a deadline. The reader completes at the
first arrival that leaves it with a frame or a failure. -/
def Race.ofReception (f : Framing) (limit : Nat) (deadline : Option Nat) (course : Course) :
    Race (Except ReadError Bytes) :=
  ⟨deadline, course.cancellation?, completion? (Reader.signals f limit {} course)⟩

namespace Reader

variable (f : Framing) (limit : Nat) (r : Reader) (course : Course)

/-- A reception is told of its happenings at their instants, up to the one that completes it. -/
theorem instants_signals : (signals f limit r course).map (·.1) <+: course.map (·.1) := by
  fun_induction signals f limit r course with
  | case1 => exact List.prefix_refl _
  | case2 r instant rest ih => exact (List.prefix_cons_inj instant).mpr ih
  | case3 r instant rest ih => exact (List.prefix_cons_inj instant).mpr ih
  | case4 r instant a rest r' hmore ih => exact (List.prefix_cons_inj instant).mpr ih
  | case5 r instant a rest payload hframe =>
    exact (List.prefix_cons_inj instant).mpr List.nil_prefix
  | case6 r instant a rest e hfailed =>
    exact (List.prefix_cons_inj instant).mpr List.nil_prefix

/-- A reception is told of what happens in its order. -/
theorem inOrder_signals (horder : InOrder course) : InOrder (signals f limit r course) :=
  horder.sublist (instants_signals f limit r course).sublist

/-- A cancellation that a reception is told of is the first of its course. -/
theorem cancellation?_of_signals (instant : Nat)
    (h : OneShot.cancellation? (signals f limit r course) = some instant) :
    course.cancellation? = some instant := by
  fun_induction signals f limit r course with
  | case1 => cases h
  | case2 r first rest ih => exact ih h
  | case3 r first rest ih => exact h
  | case4 r first a rest r' hmore ih => exact ih h
  | case5 r first a rest payload hframe => cases h
  | case6 r first a rest e hfailed => cases h

/-- A reception is told of a cancellation that comes before its completion. -/
theorem cancellation?_signals (horder : InOrder course) (instant : Nat)
    (h : course.cancellation? = some instant)
    (hdone : ∀ done ∈ completion? (signals f limit r course), instant < done.1) :
    OneShot.cancellation? (signals f limit r course) = some instant := by
  -- an arrival that completes the reception is not later than a cancellation behind it
  -- induction along the reading of the course
  fun_induction signals f limit r course with
  | case1 => cases h
  | case2 r first rest ih => exact ih ((inOrder_cons_iff _ _ _).mp horder).2 h hdone
  | case3 r first rest ih => exact h
  | case4 r first a rest r' hmore ih => exact ih ((inOrder_cons_iff _ _ _).mp horder).2 h hdone
  | case5 r first a rest payload hframe =>
    have hfirst := Course.le_cancellation horder instant h
    exact absurd (hdone (first, .ok payload) rfl) (Nat.not_lt.mpr hfirst)
  | case6 r first a rest e hfailed =>
    have hfirst := Course.le_cancellation horder instant h
    exact absurd (hdone (first, .error e) rfl) (Nat.not_lt.mpr hfirst)

/-- The first of the three events settles a reception. -/
theorem await_settles (deadline : Option Nat) (horder : InOrder course) :
    (Race.ofReception f limit deadline course).Settles (await f limit deadline course).1 := by
  have hsettles := guarded_settles deadline (signals f limit {} course)
    (inOrder_signals f limit {} course horder)
  -- the reader is told of no other cancellation than the one in the course
  have htold : ∀ cancelled ∈ OneShot.cancellation? (signals f limit {} course),
      cancelled ∈ course.cancellation? := cancellation?_of_signals f limit {} course
  -- completed, given up or neither: each is the same race over the signals
  refine ⟨?_, ?_, ?_⟩
  · rintro value ⟨done, hdone, hvalue, hlimit, hcancelled⟩
    exact hsettles.completes value
      ⟨done, hdone, hvalue, hlimit, fun cancelled h => hcancelled cancelled (htold cancelled h)⟩
  · rintro (_ | limit')
    · rintro ⟨cancelled, hcancelled, hlimit, hdone⟩
      have hcancelled := cancellation?_signals f limit {} course horder cancelled hcancelled hdone
      exact hsettles.givesUp .cancelled ⟨cancelled, hcancelled, hlimit, hdone⟩
    · rintro ⟨hlimit, hcancelled, hdone⟩
      exact hsettles.givesUp (.timedOut limit')
        ⟨hlimit, fun cancelled h => hcancelled cancelled (htold cancelled h), hdone⟩
  · -- no cancellation in the course, so the reader is told of none
    rintro ⟨hlimit, hcancelled, hdone⟩
    refine hsettles.never ⟨hlimit, ?_, hdone⟩
    refine Option.eq_none_iff_forall_not_mem.mpr fun cancelled h => ?_
    exact absurd (htold cancelled h) (Option.eq_none_iff_forall_not_mem.mp hcancelled cancelled)

/-- A reception that was cancelled before it began meets nothing else. -/
theorem await_cancelled_before (deadline : Option Nat) :
    await f limit deadline ((0, .cancel) :: course) = (.interrupted .cancelled, 1) :=
  guarded_cancelled_before deadline (signals f limit {} course)

end Reader

/-! ### Operations that are given up -/

/-- The kind of failure that giving up is. -/
def Interruption.kind : Interruption → FailureKind
  | .cancelled => .interrupted
  | .timedOut _ => .timedOut

/-- The failure of an operation that was given up is of that kind. -/
theorem Interruption.kind_failure (cause : Interruption) (activity : String) :
    (cause.failure activity).kind = cause.kind := by
  cases cause <;> rfl

/-- An operation was given up: its error has the kind of the cause, and its connection is over. -/
structure Performed.GivenUp {α : Type} (p : Performed α) (e : ExchangeError)
    (cause : Interruption) : Prop where
  outcome_eq : p.outcome = .error e
  kind_eq : e.kind? = some cause.kind
  state_eq : p.connection.state = .failed
  isOpen_eq : p.connection.isOpen = false

namespace Connection

variable (c : Connection) (cause : Interruption)

/-- Connecting that is given up fails with the reason for that. -/
theorem connect_of_interrupted (hstate : c.state = .idle)
    (attempt : List (Nat × Signal (Except Failure Unit)))
    (h : (guarded c.options.connectTimeout attempt).1 = .interrupted cause) :
    c.connect attempt =
      { connection := c.fail
        outcome := .error (.connect c.path (cause.failure "connecting"))
        passed := (guarded c.options.connectTimeout attempt).2 } := by
  cases hguarded : guarded c.options.connectTimeout attempt with
  | mk verdict passed =>
    rw [hguarded] at h
    obtain rfl : verdict = .interrupted cause := h
    simp only [connect, hstate, ne_eq, not_true_eq_false, if_false, hguarded]

/-- A reception that is given up fails with the reason for that. -/
theorem receive_of_interrupted (hstate : c.state = .awaitingReply) (hopen : c.isOpen = true)
    (course : Course)
    (h : (Reader.await c.options.framing c.options.maxReplyBytes c.options.readTimeout course).1 =
      .interrupted cause) :
    c.receive course =
      { connection := c.fail
        outcome := .error (.read (cause.failure "awaiting reply"))
        passed :=
          (Reader.await c.options.framing c.options.maxReplyBytes c.options.readTimeout
            course).2 } := by
  -- the connection may receive, so what the wait comes to decides
  cases hawait : Reader.await c.options.framing c.options.maxReplyBytes c.options.readTimeout
      course with
  | mk verdict passed =>
    rw [hawait] at h
    obtain rfl : verdict = .interrupted cause := h
    simp only [receive, hstate, hopen, ne_eq, not_true_eq_false, if_false, Bool.not_true,
      Bool.false_eq_true, hawait]

/-- Connecting that is given up is over, and says why. -/
theorem connect_givenUp (hstate : c.state = .idle)
    (attempt : List (Nat × Signal (Except Failure Unit)))
    (h : (guarded c.options.connectTimeout attempt).1 = .interrupted cause) :
    (c.connect attempt).GivenUp (.connect c.path (cause.failure "connecting")) cause := by
  rw [c.connect_of_interrupted cause hstate attempt h]
  exact ⟨rfl, congrArg some (cause.kind_failure "connecting"), rfl, rfl⟩

/-- A reception that is given up is over, and says why. -/
theorem receive_givenUp (hstate : c.state = .awaitingReply) (hopen : c.isOpen = true)
    (course : Course)
    (h : (Reader.await c.options.framing c.options.maxReplyBytes c.options.readTimeout course).1 =
      .interrupted cause) :
    (c.receive course).GivenUp (.read (cause.failure "awaiting reply")) cause := by
  rw [c.receive_of_interrupted cause hstate hopen course h]
  exact ⟨rfl, congrArg some (cause.kind_failure "awaiting reply"), rfl, rfl⟩

end Connection

/-- A call that was cancelled before it began ends with the attempt to connect. -/
theorem Client.call_of_cancelled (c : Client) (s : Surroundings)
    (later : List (Nat × Signal (Except Failure Unit)))
    (h : s.attempt = (0, .cancel) :: later) (request : Message) :
    c.call s request =
      { connection := c.connection.fail
        outcome := .error (.connect c.path (Interruption.cancelled.failure "connecting")) } := by
  have hguarded := guarded_cancelled_before c.options.connectTimeout later
  have hconnect := c.connection.connect_of_interrupted .cancelled rfl s.attempt
    (by rw [h]; exact congrArg Prod.fst hguarded)
  simp only [call, hconnect]
  rfl

/-- A rehearsed call that was cancelled before it began reaches no peer. -/
theorem rehearseCall_of_cancelled (target : Target) (options : ClientOptions) (request : Message)
    (during : List (Nat × PeerAction)) :
    rehearseCall target options true request during =
      { outcome :=
          .error (.connect target.pathOf (Interruption.cancelled.failure "connecting"))
        available := target.files.isAvailable target.pathOf
        sent := []
        peerEnded := false } := by
  -- the attempt is cancelled at once, so what the peer would do does not matter
  have hcall : ∀ writer course, ({ path := target.pathOf, options } : Client).call
      ⟨[(0, .cancel)], writer, course⟩ request = _ :=
    fun writer course => Client.call_of_cancelled _ _ [] rfl request
  simp only [rehearseCall, Scene.attempt, if_true, hcall, List.isEmpty_nil]
  rfl

/-! ### The first event decides -/

/-- The first of completion, deadline and cancellation decides whatever waits, and an operation that
is given up leaves a connection that is over. -/
structure EarliestDecides : Prop where
  /-- If the events are apart, the verdict of a guarded operation says which was the first. -/
  guarded_decides {α : Type} (limit : Option Nat) (course : List (Nat × Signal α)) :
    InOrder course → (Race.ofCourse limit course).Apart →
      (Race.ofCourse limit course).Decides (guarded limit course).1
  /-- An operation that was cancelled before it began meets nothing else. -/
  guarded_cancelled {α : Type} (limit : Option Nat) (course : List (Nat × Signal α)) :
    guarded limit ((0, .cancel) :: course) = (.interrupted .cancelled, 1)
  /-- Without a deadline nothing times out. -/
  guarded_unlimited {α : Type} (course : List (Nat × Signal α)) (deadline : Nat) :
    (guarded none course).1 ≠ .interrupted (.timedOut deadline)
  /-- A reception is decided in the same way. -/
  await_decides (f : Framing) (limit : Nat) (deadline : Option Nat) (course : Course) :
    InOrder course → (Race.ofReception f limit deadline course).Apart →
      (Race.ofReception f limit deadline course).Decides (Reader.await f limit deadline course).1
  /-- Connecting that is given up says why. -/
  connect_givenUp (c : Connection) (attempt : List (Nat × Signal (Except Failure Unit)))
      (cause : Interruption) :
    c.state = .idle → InOrder attempt →
      (Race.ofCourse c.options.connectTimeout attempt).GivesUp cause →
      (c.connect attempt).GivenUp (.connect c.path (cause.failure "connecting")) cause
  /-- A reception that is given up says why. -/
  receive_givenUp (c : Connection) (course : Course) (cause : Interruption) :
    c.state = .awaitingReply → c.isOpen = true → InOrder course →
      (Race.ofReception c.options.framing c.options.maxReplyBytes c.options.readTimeout
        course).GivesUp cause →
      (c.receive course).GivenUp (.read (cause.failure "awaiting reply")) cause
  /-- A reception that was cancelled before it began reads nothing. -/
  receive_cancelled (c : Connection) (later : Course) :
    c.state = .awaitingReply → c.isOpen = true →
      (c.receive ((0, .cancel) :: later)).GivenUp
        (.read (Interruption.cancelled.failure "awaiting reply")) .cancelled ∧
      c.bytesRead ((0, .cancel) :: later) (c.receive ((0, .cancel) :: later)).passed = []
  /-- A call that was cancelled before it began is over with the attempt to connect. It never has a
  stream, it writes nothing and nothing else comes to pass. -/
  call_cancelled (client : Client) (s : Surroundings)
      (later : List (Nat × Signal (Except Failure Unit))) (request : Message) :
    s.attempt = (0, .cancel) :: later →
      (client.connection.connect s.attempt).GivenUp
        (.connect client.path (Interruption.cancelled.failure "connecting")) .cancelled ∧
      (client.connection.connect s.attempt).passed = 1 ∧
      client.call s request =
        { connection := client.connection.fail
          outcome := .error (.connect client.path (Interruption.cancelled.failure "connecting"))
          written := []
          passed := 0 }
  /-- No peer hears of a rehearsed call that was cancelled before it began. -/
  rehearseCall_cancelled (target : Target) (options : ClientOptions) (request : Message)
      (during : List (Nat × PeerAction)) :
    rehearseCall target options true request during =
      { outcome := .error (.connect target.pathOf (Interruption.cancelled.failure "connecting"))
        available := target.files.isAvailable target.pathOf
        sent := []
        peerEnded := false }

/-- **The first event decides.** Of completion, deadline and cancellation the first decides whatever
waits, and an operation that is given up is over. -/
theorem earliestDecides : EarliestDecides where
  guarded_decides limit course horder hapart := (guarded_settles limit course horder).decides hapart
  guarded_cancelled := guarded_cancelled_before
  guarded_unlimited := guarded_none_ne_timedOut
  await_decides f limit deadline course horder hapart :=
    (Reader.await_settles f limit course deadline horder).decides hapart
  connect_givenUp c attempt cause hstate horder hcause :=
    c.connect_givenUp cause hstate attempt
      ((guarded_settles _ attempt horder).givesUp cause hcause)
  receive_givenUp c course cause hstate hopen horder hcause :=
    c.receive_givenUp cause hstate hopen course
      ((Reader.await_settles _ _ course _ horder).givesUp cause hcause)
  receive_cancelled c later hstate hopen := by
    -- a token cancelled before the wait is seen first, so no byte of the course is read
    have hawait := Reader.await_cancelled_before c.options.framing c.options.maxReplyBytes later
      c.options.readTimeout
    have hverdict := congrArg Prod.fst hawait
    refine ⟨c.receive_givenUp .cancelled hstate hopen _ hverdict, ?_⟩
    rw [c.receive_of_interrupted .cancelled hstate hopen _ hverdict, hawait]
    rfl
  call_cancelled client s later request h := by
    -- the attempt to connect is given up at once
    have hguarded : guarded client.options.connectTimeout s.attempt =
        (.interrupted .cancelled, 1) :=
      h ▸ guarded_cancelled_before client.options.connectTimeout later
    have hverdict := congrArg Prod.fst hguarded
    -- the connection saw the cancellation alone, and the call is over with it
    refine ⟨client.connection.connect_givenUp .cancelled rfl s.attempt hverdict, ?_,
      client.call_of_cancelled s later h request⟩
    rw [client.connection.connect_of_interrupted .cancelled rfl s.attempt hverdict]
    exact congrArg Prod.snd hguarded
  rehearseCall_cancelled := rehearseCall_of_cancelled

/-- The two ways to be given up: an attempt to connect that takes longer than its deadline, and a
reception that is cancelled between the header of a frame and the end of the stream. -/
theorem earliestDecides_slow_peer :
    let options : ClientOptions :=
      { framing := .lengthPrefixed, connectTimeout := some 50, readTimeout := some 90 }
    let idle : Connection := { path := [], options }
    let awaiting : Connection := { path := [], options, state := .awaitingReply, isOpen := true }
    let attempt : List (Nat × Signal (Except Failure Unit)) := [(80, .done (.ok ()))]
    let course : Course :=
      [(10, .arrival (.bytes [0, 0, 0, 5])), (30, .cancel), (70, .arrival .closed)]
    (idle.connect attempt).GivenUp
        (.connect [] ⟨.timedOut, "timed out after 50ms while connecting"⟩) (.timedOut 50) ∧
      (awaiting.receive course).GivenUp
        (.read ⟨.interrupted, "cancelled while awaiting reply"⟩) .cancelled := by
  intro options idle awaiting attempt course
  -- the connection is accepted only after the limit
  have htimesOut : (Race.ofCourse idle.options.connectTimeout attempt).GivesUp (.timedOut 50) := by
    decide
  -- a header alone completes nothing, so the cancellation is first
  have hcancelled : (Race.ofReception options.framing options.maxReplyBytes options.readTimeout
      course).GivesUp .cancelled := by
    decide +kernel
  exact ⟨earliestDecides.connect_givenUp idle attempt (.timedOut 50) rfl (by decide) htimesOut,
    earliestDecides.receive_givenUp awaiting course .cancelled rfl rfl (by decide) hcancelled⟩

end OneShot
