import Mathlib.Data.List.Infix
import OneShot.Exchange.Connection
import OneShot.Proofs.Framing.Writing

/-!
# One step on a connection

A step is a call of an operation, together with what the world does to it. `Transition` lists all
that a step can do, so that whatever holds of every step is a case analysis over it and no operation
is opened a second time.

A turn is a step on the connection as it stood then. It shows the result of the call, the bytes that
the stream took and the bytes that were read from it.

## Key results

- `Transition.of_perform`: every step is one of the transitions
- `Transition.outcome_eq_invalidState_iff`: when a call is refused, and with which words
- `Turn.admitted_of_written`, `Turn.admitted_of_read`: who writes was let through to send, and who
  reads was let through to receive
- `Transition.ahead_prefix`: an operation that was let through is behind the connection
-/

namespace OneShot

/-- What comes of a value that is passed on. -/
def Outcome.map {α β : Type} (f : α → β) : Outcome α → Outcome β
  | .ok value => .ok (f value)
  | .error e => .error e
  | .waiting => .waiting

/-- An operation whose value is passed on. -/
def Performed.map {α β : Type} (f : α → β) (p : Performed α) : Performed β where
  connection := p.connection
  outcome := p.outcome.map f
  written := p.written
  passed := p.passed

/-- Whether an error ends the call. An operation out of order does not. -/
def ExchangeError.isFatal : ExchangeError → Bool
  | .invalidState _ _ => false
  | _ => true

/-- The operations that a call in this state still has ahead of it. -/
def CallState.ahead : CallState → List Operation
  | .idle => [.connect, .send, .receive]
  | .connected => [.send, .receive]
  | .awaitingReply => [.receive]
  | _ => []

/-- A call that is over has nothing ahead of it. -/
theorem CallState.ahead_of_isTerminal (state : CallState) (h : state.isTerminal = true) :
    state.ahead = [] := by
  cases state with
  | completed | failed => rfl
  | _ => cases h

/-- An operation comes first in the state that it requires. -/
theorem Operation.singleton_prefix_ahead (operation : Operation) :
    [operation] <+: operation.required.ahead := by
  cases operation <;> decide

/-- The bytes that arrive. -/
def Course.arrived (course : Course) : Bytes :=
  course.flatMap fun
    | (_, .arrival (.bytes chunk)) => chunk
    | _ => []

/-- What arrives first comes first. -/
theorem Course.arrived_take_prefix (course : Course) (n : Nat) :
    arrived (course.take n) <+: arrived course := by
  conv => rhs; rw [← List.take_append_drop n course]
  rw [arrived, arrived, List.flatMap_append]
  exact List.prefix_append _ _

/-- The bytes that a reader takes off its stream while a course comes to pass. -/
def Reader.consumed (f : Framing) (limit : Nat) (r : Reader) : Course → Bytes
  | [] => []
  | (_, .arrival (.bytes chunk)) :: rest =>
    match absorb f limit r chunk with
    | ⟨.more r, _⟩ => chunk ++ consumed f limit r rest
    | ⟨_, unread⟩ => chunk.take (chunk.length - unread.length)
  | _ :: rest => consumed f limit r rest

/-- What is read has arrived, in the same order. -/
theorem Reader.consumed_prefix (f : Framing) (limit : Nat) (r : Reader) (course : Course) :
    consumed f limit r course <+: Course.arrived course := by
  -- induction on the course: what the reader took of a chunk is a prefix of it
  induction course generalizing r with
  | nil => exact List.nil_prefix
  | cons happening rest ih =>
    obtain ⟨instant, happening⟩ := happening
    -- only chunks bring bytes, everything else is skipped
    have hskip : ∀ r, consumed f limit r rest <+: [] ++ Course.arrived rest := fun r => ih r
    simp only [Course.arrived, List.flatMap_cons] at hskip ⊢
    cases happening with
    | nothing => exact hskip r
    | cancel => exact hskip r
    | arrival a =>
      cases a with
      | closed => exact hskip r
      | failed failure => exact hskip r
      | bytes chunk =>
        simp only [consumed]
        -- it takes all of a chunk and asks for more, or it stops within the last one
        split
        · exact (List.prefix_append_right_inj chunk).mpr (ih _)
        · exact (List.take_prefix _ chunk).trans (List.prefix_append chunk _)

namespace Connection

/-- The bytes that a connection reads from its stream while it awaits the reply, of a course of
which some happenings came to pass. -/
def bytesRead (c : Connection) (course : Course) (passed : Nat) : Bytes :=
  Reader.consumed c.options.framing c.options.maxReplyBytes {} (course.take passed)

/-- A call of an operation, with what the world does to it. -/
inductive Step where
  | connect (attempt : List (Nat × Signal (Except Failure Unit)))
  | send (writer : Writer) (request : Message)
  | receive (course : Course)
  | close

namespace Step

/-- The operation, if it is one that has to come in order. -/
def operation? : Step → Option Operation
  | .connect _ => some .connect
  | .send _ _ => some .send
  | .receive _ => some .receive
  | .close => none

/-- What happens while the step awaits a reply. -/
def course : Step → Course
  | .receive course => course
  | _ => []

/-- The frame that the step has to write. -/
def frame (f : Framing) : Step → Bytes
  | .send _ request => (f.encode request.encode).toOption.getD []
  | _ => []

/-- The operation, if a connection in a state lets it through. -/
def admitted (state : CallState) (step : Step) : Option Operation :=
  step.operation?.filter fun operation => state = operation.required

/-- An operation is let through exactly in the state that it requires. -/
theorem admitted_eq_some_iff (state : CallState) (step : Step) (operation : Operation) :
    step.admitted state = some operation ↔
      step.operation? = some operation ∧ state = operation.required := by
  rw [admitted, Option.filter_eq_some_iff, decide_eq_true_iff]

/-- An operation that is let through is ahead of the connection. -/
theorem admitted_prefix (state : CallState) (step : Step) :
    (step.admitted state).toList <+: state.ahead := by
  cases hadmitted : step.admitted state with
  | none => exact List.nil_prefix
  | some operation =>
    rw [((step.admitted_eq_some_iff state operation).mp hadmitted).2]
    exact operation.singleton_prefix_ahead

/-- Only a send has a frame to write. -/
theorem exists_of_frame (f : Framing) (step : Step) (h : step.frame f ≠ []) :
    ∃ writer request, step = .send writer request ∧
      f.encode request.encode = .ok (step.frame f) := by
  cases step with
  | send writer request =>
    refine ⟨writer, request, rfl, ?_⟩
    simp only [frame] at h ⊢
    cases hframe : f.encode request.encode with
    | ok frame => rfl
    | error e =>
      rw [hframe] at h
      exact absurd rfl h
  | _ => exact absurd rfl h

/-- Only a reception awaits something. -/
theorem exists_of_course (step : Step) (h : step.course ≠ []) :
    ∃ course, step = .receive course := by
  cases step with
  | receive course => exact ⟨course, rfl⟩
  | _ => exact absurd rfl h

end Step

/-- Takes a step. Only a reception has a value. -/
def perform (c : Connection) : Step → Performed (Option Message)
  | .connect attempt => (c.connect attempt).map fun _ => none
  | .send writer request => (c.send writer request).map fun _ => none
  | .receive course => (c.receive course).map some
  | .close => { connection := c.close, outcome := .ok none }

/-! ### Transitions -/

/-- All that a step can do. -/
inductive Transition (c : Connection) : Step → Performed (Option Message) → Prop where
  /-- The operation is out of order. -/
  | refused (step : Step) (operation : Operation) (hstep : step.operation? = some operation)
      (hstate : c.state ≠ operation.required) : Transition c step (c.refuse operation)
  | connected (attempt : List (Nat × Signal (Except Failure Unit))) (passed : Nat)
      (hstate : c.state = .idle) :
      Transition c (.connect attempt)
        { connection := { c with state := .connected, isOpen := true }, outcome := .ok none,
          passed }
  | sent (writer : Writer) (request : Message) (hstate : c.state = .connected)
      (hopen : c.isOpen = true) :
      Transition c (.send writer request)
        { connection := { c with state := .awaitingReply }, outcome := .ok none,
          written := (Step.send writer request).frame c.options.framing }
  | received (course : Course) (reply : Message) (passed : Nat)
      (hstate : c.state = .awaitingReply) :
      Transition c (.receive course)
        { connection := { c with state := .completed, isOpen := false },
          outcome := .ok (some reply), passed }
  /-- The operation fails, and the call with it. -/
  | failed (step : Step) (operation : Operation) (e : ExchangeError) (written : Bytes)
      (passed : Nat) (hstep : step.operation? = some operation)
      (hstate : c.state = operation.required) (hfatal : e.isFatal = true)
      (hwritten : written <+: step.frame c.options.framing) :
      Transition c step { connection := c.fail, outcome := .error e, written, passed }
  | neverConnected (attempt : List (Nat × Signal (Except Failure Unit))) (passed : Nat)
      (hstate : c.state = .idle) :
      Transition c (.connect attempt)
        { connection := { c with state := .connecting }, outcome := .waiting, passed }
  | neverReceived (course : Course) (passed : Nat) (hstate : c.state = .awaitingReply) :
      Transition c (.receive course) { connection := c, outcome := .waiting, passed }
  | closed : Transition c .close { connection := c.close, outcome := .ok none }

namespace Transition

/-- What connecting can do. -/
private theorem of_connect (c : Connection) (attempt : List (Nat × Signal (Except Failure Unit))) :
    Transition c (.connect attempt) (c.perform (.connect attempt)) := by
  simp only [perform, connect]
  split
  · rename_i hstate
    exact .refused _ .connect rfl hstate
  · rename_i hstate
    -- an attempt is made in the first state only
    have hidle : c.state = .idle := Decidable.not_not.mp hstate
    -- the attempt is over, gives up, or is still going on
    split
    · exact .connected attempt _ hidle
    · exact .failed _ .connect _ [] _ rfl hidle rfl List.nil_prefix
    · exact .failed _ .connect _ [] _ rfl hidle rfl List.nil_prefix
    · exact .neverConnected attempt _ hidle

/-- The bytes that a send writes are a beginning of its frame, and all of it if it succeeds. -/
private theorem writeFrame_taken (f : Framing) (writer : Writer) (request : Message) :
    (f.writeFrame writer request.encode).taken <+: (Step.send writer request).frame f ∧
      ((f.writeFrame writer request.encode).result = .ok () →
        (f.writeFrame writer request.encode).taken = (Step.send writer request).frame f) := by
  simp only [Framing.writeFrame, Step.frame]
  cases f.encode request.encode with
  | error e =>
    refine ⟨List.nil_prefix, fun h => ?_⟩
    cases h
  | ok frame =>
    exact ⟨writer.write_taken_prefix frame, fun h => ((writer.write_eq_ok_iff frame).mp h).1⟩

/-- What sending can do. -/
private theorem of_send (c : Connection) (writer : Writer) (request : Message) :
    Transition c (.send writer request) (c.perform (.send writer request)) := by
  -- what is written is a part of the frame, and all of it if that goes well
  obtain ⟨hpart, hall⟩ := writeFrame_taken c.options.framing writer request
  simp only [perform, send]
  split
  · rename_i hstate
    exact .refused _ .send rfl hstate
  · rename_i hstate
    have hconnected : c.state = .connected := Decidable.not_not.mp hstate
    -- a stream that is closed, a frame that is taken whole, or a frame that is not
    split
    · exact .failed _ .send _ [] _ rfl hconnected rfl List.nil_prefix
    · rename_i hopen
      split
      · rename_i hresult
        simp only [Performed.map, Outcome.map, hall hresult]
        exact .sent writer request hconnected (by simpa using hopen)
      · exact .failed _ .send _ _ _ rfl hconnected rfl hpart

/-- What receiving can do. -/
private theorem of_receive (c : Connection) (course : Course) :
    Transition c (.receive course) (c.perform (.receive course)) := by
  simp only [perform, receive]
  split
  · rename_i hstate
    exact .refused _ .receive rfl hstate
  · rename_i hstate
    have hawaiting : c.state = .awaitingReply := Decidable.not_not.mp hstate
    -- a stream that is closed, then what the wait for the reply comes to
    split
    · exact .failed _ .receive _ [] _ rfl hawaiting rfl List.nil_prefix
    · split
      -- a payload has come, and it is a message or it is not
      · simp only [conclude]
        split
        · exact .received course _ _ hawaiting
        · exact .failed _ .receive _ [] _ rfl hawaiting rfl List.nil_prefix
      · exact .failed _ .receive _ [] _ rfl hawaiting rfl List.nil_prefix
      · exact .failed _ .receive _ [] _ rfl hawaiting rfl List.nil_prefix
      · exact .neverReceived course _ hawaiting

/-- Every step is one of the transitions. -/
theorem of_perform (c : Connection) (step : Step) : Transition c step (c.perform step) := by
  cases step with
  | connect attempt => exact of_connect c attempt
  | send writer request => exact of_send c writer request
  | receive course => exact of_receive c course
  | close => exact .closed

variable {c : Connection} {step : Step} {p : Performed (Option Message)}

/-- A call is refused exactly if its operation requires another state, and it names both. -/
theorem outcome_eq_invalidState_iff (h : Transition c step p) (operation : Operation)
    (state : CallState) :
    p.outcome = .error (.invalidState operation state) ↔
      step.operation? = some operation ∧ c.state = state ∧ state ≠ operation.required := by
  -- an operation in the state that it requires is not refused
  have hallowed : ∀ required, step.operation? = some required → c.state = required.required →
      ¬(step.operation? = some operation ∧ c.state = state ∧ state ≠ operation.required) := by
    rintro required hstep hstate ⟨hstep', rfl, hne⟩
    obtain rfl := Option.some.inj (hstep.symm.trans hstep')
    exact hne hstate
  -- only a step that is refused has this outcome; the others were in the state they require
  cases h with
  | refused step required hstep hstate =>
    constructor
    · rintro ⟨⟩
      exact ⟨hstep, rfl, hstate⟩
    · rintro ⟨hstep', rfl, -⟩
      obtain rfl := Option.some.inj (hstep.symm.trans hstep')
      rfl
  | connected attempt passed hstate => exact iff_of_false nofun (hallowed .connect rfl hstate)
  | sent writer request hstate => exact iff_of_false nofun (hallowed .send rfl hstate)
  | received course reply passed hstate => exact iff_of_false nofun (hallowed .receive rfl hstate)
  | failed step required e written passed hstep hstate hfatal =>
    refine iff_of_false ?_ (hallowed required hstep hstate)
    rintro ⟨⟩
    -- a failure leaves no call in its state, so it is never this refusal
    cases hfatal
  | neverConnected attempt passed hstate => exact iff_of_false nofun (hallowed .connect rfl hstate)
  | neverReceived course passed hstate => exact iff_of_false nofun (hallowed .receive rfl hstate)
  | closed => exact iff_of_false nofun (fun h => nomatch h.1)

/-- A refused call changes nothing, writes nothing and lets nothing come to pass. -/
theorem eq_of_invalidState (h : Transition c step p) (operation : Operation) (state : CallState)
    (hrefused : p.outcome = .error (.invalidState operation state)) :
    p.connection = c ∧ p.written = [] ∧ p.passed = 0 := by
  cases h with
  | refused step required hstep hstate => exact c.refuse_connection required
  | failed step required e written passed hstep hstate hfatal =>
    cases hrefused
    cases hfatal
  | _ => cases hrefused

/-- No step changes the options. -/
theorem options_eq (h : Transition c step p) : p.connection.options = c.options := by
  cases h <;> rfl

/-- What a step writes is a beginning of its frame. -/
theorem written_prefix (h : Transition c step p) : p.written <+: step.frame c.options.framing := by
  cases h with
  | sent writer request hstate hopen => exact List.prefix_refl _
  | failed step operation e written passed hstep hstate hfatal hwritten => exact hwritten
  | _ => exact List.nil_prefix

/-- An operation that is not let through writes nothing and lets nothing come to pass. -/
theorem eq_of_not_admitted (h : Transition c step p) (operation : Operation)
    (hstep : step.operation? = some operation)
    (hadmitted : step.admitted c.state ≠ some operation) :
    p.written = [] ∧ p.passed = 0 := by
  have hstate : c.state ≠ operation.required := fun hstate =>
    hadmitted ((step.admitted_eq_some_iff c.state operation).mpr ⟨hstep, hstate⟩)
  have hrefused := (h.outcome_eq_invalidState_iff operation c.state).mpr ⟨hstep, rfl, hstate⟩
  exact (h.eq_of_invalidState operation c.state hrefused).2

/-- Only a reception that was let through returns a reply. -/
theorem admitted_of_reply (h : Transition c step p) (reply : Message)
    (hreply : p.outcome = .ok (some reply)) : step.admitted c.state = some .receive := by
  cases h with
  | received course reply passed hstate =>
    exact (Step.admitted_eq_some_iff _ _ _).mpr ⟨rfl, hstate⟩
  | _ => cases hreply

/-- What a step that returns lets through is no longer ahead of the connection. -/
theorem ahead_prefix (h : Transition c step p) (hreturns : p.outcome ≠ .waiting) :
    (step.admitted c.state).toList ++ p.connection.state.ahead <+: c.state.ahead := by
  -- what is let through was first of those ahead, and the next state has the others or none at all
  cases h with
  | refused step operation hstep hstate =>
    -- nothing is let through, and nothing changes
    have hnone : step.admitted c.state = none := by
      rw [Step.admitted, hstep, Option.filter_some, if_neg (by simpa using hstate)]
    rw [hnone]
    exact List.prefix_refl _
  -- the three that succeed are first of those ahead of their state
  | connected attempt passed hstate =>
    rw [hstate]
    exact List.prefix_refl _
  | sent writer request hstate =>
    rw [hstate]
    exact List.prefix_refl _
  | received course reply passed hstate =>
    rw [hstate]
    exact List.prefix_refl _
  | failed step operation e written passed hstep hstate =>
    have hsome := (step.admitted_eq_some_iff c.state operation).mpr ⟨hstep, hstate⟩
    rw [hsome, hstate]
    exact operation.singleton_prefix_ahead
  | neverConnected attempt passed hstate => exact absurd rfl hreturns
  | neverReceived course passed hstate => exact absurd rfl hreturns
  | closed =>
    -- a closed call has none ahead
    cases hstate : c.state <;> simp only [close, hstate] <;> exact List.nil_prefix

end Transition

/-! ### Turns -/

/-- A step that was taken on a connection. -/
structure Turn where
  before : Connection
  step : Step

namespace Turn

/-- What the step came to. -/
def performed (t : Turn) : Performed (Option Message) := t.before.perform t.step

/-- The result of the call. -/
def outcome (t : Turn) : Outcome (Option Message) := t.performed.outcome

/-- The connection after the step. -/
def after (t : Turn) : Connection := t.performed.connection

/-- The bytes that the stream took. -/
def written (t : Turn) : Bytes := t.performed.written

/-- The bytes that were read from the stream. -/
def read (t : Turn) : Bytes := t.before.bytesRead t.step.course t.performed.passed

/-- The reply, if the call returned one. -/
def reply? (t : Turn) : Option Message :=
  match t.outcome with
  | .ok reply => reply
  | _ => none

/-- The operation, if the connection let it through. -/
def admitted (t : Turn) : Option Operation := t.step.admitted t.before.state

/-- What a step came to is one of the transitions. -/
theorem transition (t : Turn) : Transition t.before t.step t.performed :=
  .of_perform t.before t.step

/-- A turn that writes is a send, and what it writes is a beginning of its frame. -/
theorem exists_of_written (t : Turn) (h : t.written ≠ []) :
    ∃ writer request frame, t.step = .send writer request ∧
      t.before.options.framing.encode request.encode = .ok frame ∧ t.written <+: frame := by
  have hpart := t.transition.written_prefix
  -- there is a frame, or else nothing could be a beginning of it
  have hframe : t.step.frame t.before.options.framing ≠ [] := by
    intro hframe
    rw [hframe] at hpart
    exact h (List.prefix_nil.mp hpart)
  obtain ⟨writer, request, hstep, hencode⟩ := t.step.exists_of_frame _ hframe
  exact ⟨writer, request, _, hstep, hencode, hpart⟩

/-- A turn that reads is a reception, and what it reads is a beginning of what arrives in it. -/
theorem exists_of_read (t : Turn) (h : t.read ≠ []) :
    ∃ course, t.step = .receive course ∧ t.read <+: Course.arrived course := by
  have hcourse : t.step.course ≠ [] := by
    intro hcourse
    refine h ?_
    rw [read, bytesRead, hcourse, List.take_nil]
    rfl
  obtain ⟨course, hstep⟩ := t.step.exists_of_course hcourse
  refine ⟨course, hstep, (Reader.consumed_prefix _ _ _ _).trans ?_⟩
  rw [hstep]
  exact Course.arrived_take_prefix course _

/-- Only a send that was let through writes. -/
theorem admitted_of_written (t : Turn) (h : t.written ≠ []) : t.admitted = some .send := by
  obtain ⟨writer, request, frame, hstep, -, -⟩ := t.exists_of_written h
  by_contra hadmitted
  exact h (t.transition.eq_of_not_admitted .send (by rw [hstep]; rfl) hadmitted).1

/-- Only a reception that was let through reads. -/
theorem admitted_of_read (t : Turn) (h : t.read ≠ []) : t.admitted = some .receive := by
  obtain ⟨course, hstep, -⟩ := t.exists_of_read h
  by_contra hadmitted
  refine h ?_
  rw [read, (t.transition.eq_of_not_admitted .receive (by rw [hstep]; rfl) hadmitted).2]
  rfl

/-- A reply is the value of the call. -/
theorem reply?_eq_some_iff (t : Turn) (reply : Message) :
    t.reply? = some reply ↔ t.outcome = .ok (some reply) := by
  rw [reply?]
  cases t.outcome with
  | ok value => exact ⟨fun h => congrArg Outcome.ok h, fun h => Outcome.ok.inj h⟩
  | error e => exact iff_of_false nofun nofun
  | waiting => exact iff_of_false nofun nofun

/-- Only a reception that was let through returns a reply. -/
theorem admitted_of_reply? (t : Turn) (h : t.reply? ≠ none) : t.admitted = some .receive := by
  obtain ⟨reply, hreply⟩ := Option.ne_none_iff_exists'.mp h
  exact t.transition.admitted_of_reply reply ((t.reply?_eq_some_iff reply).mp hreply)

end Turn

end Connection

end OneShot
