import OneShot.Proofs.Server.Delivery
import OneShot.Proofs.Server.Slots

/-!
# Connections apart from each other

A server has many connections in flight, and what happens on them comes in any order. What one of
them meets can be told without a look at any stage: it is what the stream of the connection itself
brings about, its deadline and the end of the server, as the clock and the door of the server say
(`Watch`). Every step of the server does on a connection what the connection alone would come to,
and so does every run. So a connection that sends nothing, or nonsense, or takes no reply changes
nothing for the others.

## Key results

- `Place.step`: a step of the server is to a connection what the connection meets in it
- `Place.run`: what is done on a connection follows from what it meets
- `Watch.received_silence`: what the streams of others bring about is not among that
- `filter_isAtDoor_run`, `taken_run`: until it is told to stop, a server takes every connection, and
  one that could not be taken ends nothing
- `isolated_run`: each connection is served as if it were alone
-/

namespace OneShot.Server

open Stage (Act)

/-! ### What a connection meets -/

/-- A server as one of its connections sees it: the clock and the door, and no stage at all. -/
structure Watch where
  now : Nat := 0
  /-- How many connections were taken so far. -/
  accepted : Nat := 0
  /-- The instant at which the connection was taken. -/
  since? : Option Nat := none
  /-- The instant at which the server ends, once it takes no more connections. -/
  stopAt? : Option Nat := none

namespace Watch

/-- One event, as far as it concerns the clock and the door. -/
def step (number : Nat) (v : Watch) : Event → Watch
  | .connection =>
    match v.stopAt? with
    | none => { v with accepted := v.accepted + 1
                       since? := if v.accepted = number then some v.now else v.since? }
    | some _ => v
  | .missed _ => v
  | .stream _ _ => v
  | .shutdown => { v with stopAt? := v.stopAt?.or (some (v.now + grace)) }
  | .instant now => { v with now := max v.now now }

/-- What an event is for a connection that has been taken. -/
def incident? (o : ServerOptions) (number : Nat) (v : Watch) : Event → Option Incident
  | .stream k e => if k = number ∧ v.since?.isSome then some (.stream e) else none
  | .instant now =>
    match v.since? with
    | none => none
    | some since =>
      let overdue := o.readTimeout.any (since + · ≤ now)
      let ends := v.stopAt?.any (· ≤ now)
      if overdue || ends then some (.clock overdue ends) else none
  | _ => none

/-- What a connection meets in a course of events. -/
def received (o : ServerOptions) (number : Nat) (v : Watch) : List Event → List Incident
  | [] => []
  | e :: rest => (v.incident? o number e).toList ++ received o number (v.step number e) rest

/-- The watch after a course of events. -/
def after (number : Nat) (v : Watch) (events : List Event) : Watch :=
  events.foldl (step number) v

theorem received_append (o : ServerOptions) (number : Nat) (v : Watch)
    (first rest : List Event) : v.received o number (first ++ rest) =
      v.received o number first ++ (v.after number first).received o number rest := by
  induction first generalizing v with
  | nil => rfl
  | cons e first ih =>
    rw [List.cons_append, received, received, ih, List.append_assoc]
    rfl

/-- A connection that has been taken meets all that its stream brings about. -/
theorem received_map_stream (o : ServerOptions) (number : Nat) (v : Watch)
    (h : v.since?.isSome = true) (es : List Stage.Event) :
    v.received o number (es.map (.stream number)) = es.map .stream := by
  induction es with
  | nil => rfl
  | cons e es ih =>
    rw [List.map_cons, received, incident?, if_pos ⟨rfl, h⟩]
    exact congrArg _ ih

end Watch

/-! ### A server and the watch of a connection -/

/-- A watch that shows the clock and the door of a server as they are. -/
structure Agrees (o : ServerOptions) (s : Server) (v : Watch) : Prop where
  options_eq : s.options = o
  now_eq : s.now = v.now
  accepted_eq : s.accepted = v.accepted
  open_iff : s.phase = .accepting ↔ v.stopAt? = none
  stopAt_eq : ∀ stopAt, s.phase = .draining stopAt → v.stopAt? = some stopAt
  at_rest : s.phase = .stopped → s.stages = []

namespace Agrees

variable {o : ServerOptions} {s : Server} {v : Watch}

/-- A server that settles goes on to its end, and a watch shows no more of that. -/
theorem settle (h : Agrees o s v) : Agrees o s.settle.1 v := by
  rcases s.settle_cases with hsame | ⟨⟨stopAt, hphase⟩, hnone, hstopped⟩
  · rw [hsame]
    exact h
  · rw [hstopped]
    refine ⟨h.options_eq, h.now_eq, h.accepted_eq, ?_, by simp, fun _ => hnone⟩
    simp [h.stopAt_eq stopAt hphase]

/-- Whatever happens, a watch goes on to show the clock and the door. -/
theorem step (h : Agrees o s v) (number : Nat) (e : Event) :
    Agrees o (s.step e).1 (v.step number e) := by
  obtain ⟨hoptions, hnow, haccepted, hopen, hstop, hrest⟩ := h
  cases e with
  | connection =>
    -- both take the connection, or both keep the door closed
    simp only [Server.step, Watch.step, onConnection]
    cases hphase : s.phase with
    | accepting =>
      rw [hopen.mp hphase]
      exact ⟨hoptions, hnow, congrArg (· + 1) haccepted, by simp, by simp, by simp⟩
    | draining stopAt =>
      rw [hstop stopAt hphase]
      exact ⟨hoptions, hnow, haccepted, hopen, hstop, hrest⟩
    | stopped =>
      have hclosed : v.stopAt? ≠ none := by simp [← hopen, hphase]
      obtain ⟨stopAt, hstopAt⟩ := Option.ne_none_iff_exists'.mp hclosed
      rw [hstopAt]
      exact ⟨hoptions, hnow, haccepted, hopen, hstop, hrest⟩
  | missed failure =>
    rw [Server.step, onMissed_fst]
    exact ⟨hoptions, hnow, haccepted, hopen, hstop, hrest⟩
  | stream k e =>
    -- neither moves, but the last connection may be over, and then the server settles
    simp only [Server.step, Watch.step, onStream]
    cases s.stages.lookup k with
    | none => exact ⟨hoptions, hnow, haccepted, hopen, hstop, hrest⟩
    | some stage =>
      cases hstep : stage.step s.options e with
      | mk next? done =>
        cases next? with
        | some next =>
          simp only [hstep]
          refine ⟨hoptions, hnow, haccepted, hopen, hstop, fun hphase => ?_⟩
          simp [withStage, hrest hphase]
        | none =>
          simp only [hstep]
          refine settle ⟨hoptions, hnow, haccepted, hopen, hstop, fun hphase => ?_⟩
          simp [without, hrest hphase]
  | shutdown =>
    simp only [Server.step, Watch.step, onShutdown]
    -- the first signal closes the door at once and sets the end; later ones change nothing
    cases hphase : s.phase with
    | accepting =>
      rw [hopen.mp hphase]
      exact settle ⟨hoptions, hnow, haccepted, by simp, by simp [hnow], by simp⟩
    | draining stopAt =>
      rw [hphase] at hopen hstop
      rw [hstop stopAt rfl]
      exact ⟨hoptions, hnow, haccepted, by simp [hphase], by simp [hphase], by simp [hphase]⟩
    | stopped =>
      exact ⟨hoptions, hnow, haccepted, by simp [hphase], by simp [hphase],
        fun _ => hrest hphase⟩
  | instant now =>
    -- the clock goes on for both; when the grace is over, the server ends with nothing left
    have hlater : max s.now now = max v.now now := by rw [hnow]
    simp only [Server.step, Watch.step, onInstant]
    cases hphase : s.phase with
    | accepting =>
      rw [hphase] at hopen hstop
      exact ⟨hoptions, hlater, haccepted, hopen, hstop, by simp⟩
    | stopped =>
      rw [hphase] at hopen hstop
      exact ⟨hoptions, hlater, haccepted, hopen, hstop, fun _ => by simp [hrest hphase]⟩
    | draining stopAt =>
      rw [hphase] at hopen hstop
      by_cases hends : stopAt ≤ now
      · simp only [hends, if_true]
        exact ⟨hoptions, hlater, haccepted, by simp [hstop stopAt rfl], by simp, fun _ => rfl⟩
      · simp only [hends, if_false]
        exact settle ⟨hoptions, hlater, haccepted, hopen, hstop, by simp⟩

/-- While connections are in flight, a watch shows when the server ends. -/
theorem endsAt_eq (h : Agrees o s v) (hflight : s.stages ≠ []) (now : Nat) :
    s.endsAt now = v.stopAt?.any (· ≤ now) := by
  unfold endsAt
  cases hphase : s.phase with
  | accepting => rw [h.open_iff.mp hphase]; rfl
  | draining stopAt => rw [h.stopAt_eq stopAt hphase]; rfl
  | stopped => exact absurd (h.at_rest hphase) hflight

end Agrees

/-! ### What a step does on one connection -/

/-- How a connection that is not over stands with a server: it is still to be taken, or it is at a
stage. -/
inductive Place (number : Nat) (s : Server) (v : Watch) : Stage → Prop where
  | ahead (hsince : v.since? = none) (haccepted : v.accepted ≤ number)
      (hslot : slot number s.stages = []) : Place number s v Stage.opened
  | taken (since : Nat) (stage : Stage) (hsince : v.since? = some since)
      (haccepted : number < v.accepted) (hslot : slot number s.stages = [stage.takenAt since]) :
      Place number s v stage

/-- A connection that is over. -/
structure Departed (number : Nat) (s : Server) (v : Watch) : Prop where
  accepted : number < v.accepted
  slot_eq : slot number s.stages = []

/-- How a connection stands with a server, by its next stage. -/
def Stands (number : Nat) (s : Server) (v : Watch) : Option Stage → Prop
  | some stage => Place number s v stage
  | none => Departed number s v

/-- What a step comes to on a connection. -/
def Advances (number : Nat) (after : Server × List Effect) (v : Watch)
    (result : Option Stage × List Act) : Prop :=
  Stands number after.1 v result.1 ∧ acts number after.2 = result.2

/-- A request is overdue once the limit has passed since the connection was taken. -/
theorem expiry?_reading (o : ServerOptions) (since now : Nat) (h : Handler) :
    (Stage.takenAt since (.reading h)).expiry? o now =
      if o.readTimeout.any (since + · ≤ now) then
        some { result := .error (.silent (o.readTimeout.getD 0)) }
      else none := by
  simp only [Stage.takenAt, Stage.expiry?, Handler.expiry?]
  cases o.readTimeout with
  | none => rfl
  | some limit => simp

section Step

variable {o : ServerOptions} {number : Nat} {s : Server} {v : Watch} {stage : Stage}

/-- A connection without a stage takes nothing of what its stream brings about. -/
private theorem onStream_of_slot_nil (hslot : slot number s.stages = []) (e : Stage.Event) :
    s.onStream number e = (s, []) := by
  unfold onStream
  rw [lookup_eq_head?_slot, hslot]
  rfl

/-- A connection that is over stays so. -/
theorem Departed.step (hagrees : Agrees o s v) (h : Departed number s v) (e : Event) :
    Departed number (s.step e).1 (v.step number e) ∧ acts number (s.step e).2 = [] := by
  obtain ⟨haccepted, hslot⟩ := h
  cases e with
  | connection =>
    -- the number of the next connection is a later one
    have hlater : ¬(s.phase = .accepting ∧ s.accepted = number) := by
      rw [hagrees.accepted_eq]
      omega
    refine ⟨⟨?_, ?_⟩, acts_onConnection number s⟩
    · simp only [Watch.step]
      cases v.stopAt? with
      | none => exact Nat.lt_succ_of_lt haccepted
      | some stopAt => exact haccepted
    · rw [Server.step, slot_onConnection, hslot, if_neg hlater, List.append_nil]
  | missed failure =>
    refine ⟨⟨haccepted, ?_⟩, acts_onMissed number s failure⟩
    rw [Server.step, onMissed_fst, hslot]
  | stream k e =>
    -- an event on the number of a connection that is over finds nobody
    by_cases hk : k = number
    · rw [Server.step, hk, onStream_of_slot_nil hslot]
      exact ⟨⟨haccepted, hslot⟩, rfl⟩
    · obtain ⟨hsame, hnone⟩ := onStream_of_ne number s k e hk
      exact ⟨⟨haccepted, hsame.trans hslot⟩, hnone⟩
  | shutdown =>
    exact ⟨⟨haccepted, (slot_onShutdown number s).trans hslot⟩, acts_onShutdown number s⟩
  | instant now =>
    refine ⟨⟨haccepted, ?_⟩, ?_⟩
    · -- the clock drops connections that are left, and this is none of them
      rw [Server.step, slot_onInstant, hslot, List.filter_nil, ite_self]
    · rw [Server.step, acts_onInstant, hslot]
      simp

/-- A connection is taken when its number is due. -/
private theorem Place.onConnection (hagrees : Agrees o s v) (h : Place number s v stage) :
    Place number s.onConnection.1 (v.step number .connection) stage := by
  have hslot := slot_onConnection number s
  simp only [hagrees.accepted_eq, hagrees.open_iff] at hslot
  simp only [Watch.step]
  -- behind a closed door nobody is taken
  cases hstop : v.stopAt? with
  | some stopAt =>
    rw [if_neg (by simp [hstop]), List.append_nil] at hslot
    cases h with
    | ahead hsince haccepted hnil => exact .ahead hsince haccepted (hslot.trans hnil)
    | taken since stage hsince haccepted hone =>
      exact .taken since stage hsince haccepted (hslot.trans hone)
  | none =>
    cases h with
    | ahead hsince haccepted hnil =>
      -- the connection that comes is this one, or one before it
      by_cases hdue : v.accepted = number
      · rw [if_pos ⟨hstop, hdue⟩, hnil, hagrees.now_eq] at hslot
        have htaken : number < v.accepted + 1 := by omega
        exact .taken v.now Stage.opened (if_pos hdue) htaken hslot
      · rw [if_neg (fun h => hdue h.2), hnil] at hslot
        have hstill : v.accepted + 1 ≤ number := by omega
        exact .ahead (by simp [hdue, hsince]) hstill hslot
    | taken since stage hsince haccepted hone =>
      -- it was taken before, so the connection that comes is a later one
      have hpast : v.accepted ≠ number := by omega
      rw [if_neg (fun h => hpast h.2), hone] at hslot
      have htaken : number < v.accepted + 1 := Nat.lt_succ_of_lt haccepted
      exact .taken since stage (by simp [hpast, hsince]) htaken hslot

/-- What the stream of a connection brings about goes to its stage. -/
private theorem Place.onStream (hagrees : Agrees o s v) (h : Place number s v stage)
    (e : Stage.Event) :
    Advances number (s.onStream number e) v
      (o.meet? stage (v.incident? o number (.stream number e))) := by
  cases h with
  | ahead hsince haccepted hnil =>
    -- it was not taken yet, so the event is no incident of it
    have hearly : v.incident? o number (.stream number e) = none := by
      simp [Watch.incident?, hsince]
    rw [hearly, onStream_of_slot_nil hnil]
    exact ⟨.ahead hsince haccepted hnil, rfl⟩
  | taken since stage hsince haccepted hone =>
    have hincident : v.incident? o number (.stream number e) = some (.stream e) := by
      simp [Watch.incident?, hsince]
    -- the server finds the stage at which this connection stands
    have hlookup : s.stages.lookup number = some (stage.takenAt since) := by
      rw [lookup_eq_head?_slot, hone]
      rfl
    rw [hincident]
    simp only [Server.onStream, hlookup, hagrees.options_eq, Stage.step_takenAt,
      ServerOptions.meet?, ServerOptions.meet]
    cases hstep : stage.step o e with
    | mk next? done =>
      -- the server and the course take the same step; at its end the slot is empty
      cases next? with
      | some next =>
        refine ⟨.taken since next hsince haccepted ?_, ?_⟩
        · simp [withStage, slot_replace, hone]
        · simp [acts_map_does]
      | none =>
        refine ⟨⟨haccepted, ?_⟩, ?_⟩
        · simp [slot_without]
        · simp [acts_map_does]

/-- The clock drops a connection whose request is overdue, and cuts any short at the end of the
server. -/
private theorem Place.onInstant (hagrees : Agrees o s v) (h : Place number s v stage) (now : Nat) :
    Advances number (s.onInstant now) (v.step number (.instant now))
      (o.meet? stage (v.incident? o number (.instant now))) := by
  -- what the clock does to this connection, and what the server does for it
  have hslot := slot_onInstant number s now
  have hacts := acts_onInstant number s now
  -- before it is taken, the clock means nothing to a connection
  cases h with
  | ahead hsince haccepted hnil =>
    rw [hnil] at hslot hacts
    have hearly : v.incident? o number (.instant now) = none := by
      simp [Watch.incident?, hsince]
    rw [hearly]
    exact ⟨.ahead hsince haccepted (by simpa using hslot),
      by simpa [ServerOptions.meet?] using hacts⟩
  | taken since stage hsince haccepted hone =>
    -- it is in flight, so the end of the server is that of the watch
    have hflight : s.stages ≠ [] := by
      intro hnone
      rw [hnone] at hone
      simp [slot] at hone
    rw [hone, hagrees.options_eq, hagrees.endsAt_eq hflight] at hslot hacts
    simp only [Watch.incident?, hsince, ServerOptions.meet?_clock]
    generalize v.stopAt?.any (· ≤ now) = ends at hslot hacts ⊢
    -- a reply on its way is never late, but it can be cut short
    cases stage with
    | sending p =>
      have hexpiry : (Stage.takenAt since (.sending p)).expiry? o now = none := rfl
      cases ends with
      | true =>
        have hunread : (Stage.sending p).unread = p.unread := rfl
        exact ⟨⟨haccepted, by simpa using hslot⟩, by simpa [hexpiry, hunread] using hacts⟩
      | false =>
        exact ⟨.taken since _ hsince haccepted (by simpa [hexpiry] using hslot),
          by simpa [hexpiry] using hacts⟩
    | reading h =>
      have hexpiry := expiry?_reading o since now h
      generalize o.readTimeout.any (since + · ≤ now) = overdue at hexpiry ⊢
      cases overdue with
      | true =>
        -- also at the end of the server it is dropped, not cut short
        exact ⟨⟨haccepted, by simpa [hexpiry] using hslot⟩, by simpa [hexpiry] using hacts⟩
      | false =>
        cases ends with
        | true =>
          have hunread : (Stage.reading h).unread = [] := rfl
          exact ⟨⟨haccepted, by simpa using hslot⟩, by simpa [hexpiry, hunread] using hacts⟩
        | false =>
          exact ⟨.taken since _ hsince haccepted (by simpa [hexpiry] using hslot),
            by simpa [hexpiry] using hacts⟩

/-- A step of the server is to a connection what the connection meets in it. -/
theorem Place.step (hagrees : Agrees o s v) (h : Place number s v stage) (e : Event) :
    Advances number (s.step e) (v.step number e) (o.meet? stage (v.incident? o number e)) := by
  -- an event on its own stream and the clock move it; a signal and a missed one do not
  cases e with
  | connection => exact ⟨h.onConnection hagrees, acts_onConnection number s⟩
  | missed failure =>
    refine ⟨?_, acts_onMissed number s failure⟩
    rw [Server.step, onMissed_fst]
    exact h
  | instant now => exact h.onInstant hagrees now
  | shutdown =>
    -- the signal closes the door, and the connections are left as they are
    refine ⟨?_, acts_onShutdown number s⟩
    cases h with
    | ahead hsince haccepted hnil =>
      exact .ahead hsince haccepted ((slot_onShutdown number s).trans hnil)
    | taken since stage hsince haccepted hone =>
      exact .taken since stage hsince haccepted ((slot_onShutdown number s).trans hone)
  | stream k e =>
    by_cases hk : k = number
    · rw [hk]
      exact h.onStream hagrees e
    · -- what comes from elsewhere is no incident here
      obtain ⟨hsame, hnone⟩ := onStream_of_ne number s k e hk
      have helsewhere : v.incident? o number (.stream k e) = none := by
        simp [Watch.incident?, hk]
      rw [helsewhere]
      refine ⟨?_, hnone⟩
      cases h with
      | ahead hsince haccepted hnil => exact .ahead hsince haccepted (hsame.trans hnil)
      | taken since stage hsince haccepted hone =>
        exact .taken since stage hsince haccepted (hsame.trans hone)

end Step

/-! ### What a run does on one connection -/

section Run

variable {o : ServerOptions} {number : Nat} {s : Server} {v : Watch} {stage : Stage}

/-- Nothing more is done on a connection that is over. -/
theorem Departed.run (hagrees : Agrees o s v) (h : Departed number s v) (events : List Event) :
    Departed number (s.run events).1 (v.after number events) ∧
      acts number (s.run events).2 = [] := by
  induction events generalizing s v with
  | nil => exact ⟨h, rfl⟩
  | cons e rest ih =>
    obtain ⟨hafter, hnone⟩ := h.step hagrees e
    obtain ⟨hlast, hnothing⟩ := ih (hagrees.step number e) hafter
    rw [Server.run, acts_append, hnone, hnothing]
    exact ⟨hlast, rfl⟩

/-- What is done on a connection in a run, and how it stands then, follows from what it meets. -/
theorem Place.run (hagrees : Agrees o s v) (h : Place number s v stage) (events : List Event) :
    Advances number (s.run events) (v.after number events)
      (o.serve stage (v.received o number events)) := by
  -- induction on the events: the place is kept up to the incident that ends the connection
  induction events generalizing s v stage with
  | nil => exact ⟨h, rfl⟩
  | cons e rest ih =>
    obtain ⟨hstands, hacts⟩ := h.step hagrees e
    rw [Server.run, Watch.received, ServerOptions.serve_toList_append]
    cases hmeet : o.meet? stage (v.incident? o number e) with
    | mk next? done =>
      rw [hmeet] at hstands hacts
      cases next? with
      | some next =>
        -- it is still in flight, and the rest is done for it
        obtain ⟨hlast, hlater⟩ := ih (hagrees.step number e) hstands
        exact ⟨hlast, by rw [acts_append, hacts, hlater]; rfl⟩
      | none =>
        -- it is over, and nothing more is done for it
        obtain ⟨hlast, hnothing⟩ := hstands.run (hagrees.step number e) rest
        exact ⟨hlast, by rw [acts_append, hacts, hnothing, List.append_nil]; rfl⟩

end Run

/-- Nonsense comes on one connection while the reply to another one is on its way. -/
example :
    let request := Message.encode ⟨"x", 5⟩ ++ [Framing.lineEnd]
    let effects := (run { options := { framing := .newline } } [.connection, .connection,
      .stream 1 (.arrives (.bytes request)), .stream 1 (.takes (.takes 4)),
      .stream 0 (.arrives (.bytes [0x21, Framing.lineEnd])), .stream 1 (.takes (.takes 100)),
      .stream 1 (.flushes (.ok ()))]).2
    (acts 0 effects).flatMap Act.sent = [] ∧
      (acts 1 effects).flatMap Act.sent =
        Message.encode ⟨"Acknowledged: x", 5⟩ ++ [Framing.lineEnd] := by
  decide +kernel

/-! ### The other connections -/

/-- Whether the stream of a connection brings something about. -/
def Event.isOn (number : Nat) : Event → Bool
  | .stream k _ => k = number
  | _ => false

/-- A course of events without what the stream of a connection brings about. -/
def silence (number : Nat) (events : List Event) : List Event :=
  events.filter fun e => !e.isOn number

/-- A connection meets the same, whatever the stream of another one brings about. -/
theorem Watch.received_silence (o : ServerOptions) (number other : Nat) (h : other ≠ number)
    (v : Watch) (events : List Event) :
    v.received o number (silence other events) = v.received o number events := by
  -- induction on the events, those of the other connection left out one by one
  induction events generalizing v with
  | nil => rfl
  | cons e rest ih =>
    by_cases hon : e.isOn other = true
    · -- what is left out is no incident, and moves neither the clock nor the door
      cases e with
      | stream k e =>
        have hk : k ≠ number := by
          simp only [Event.isOn, decide_eq_true_eq] at hon
          omega
        have hnone : v.incident? o number (.stream k e) = none := by
          simp [Watch.incident?, hk]
        rw [silence, List.filter_cons_of_neg (by simp [hon]), received, hnone]
        exact ih v
      | connection => cases hon
      | missed failure => cases hon
      | shutdown => cases hon
      | instant now => cases hon
    · rw [silence, List.filter_cons_of_pos (by simp [hon]), received, received]
      exact congrArg _ (ih (v.step number e))

/-! ### The door -/

/-- The connection that an effect takes. -/
def Effect.accepted? : Effect → Option Nat
  | .accepts number => some number
  | _ => none

/-- The connections that are taken among effects. -/
def taken (effects : List Effect) : List Nat := effects.filterMap Effect.accepted?

/-- Whether a connection comes. -/
def Event.isConnection : Event → Bool
  | .connection => true
  | _ => false

/-- Whether the server is told to stop. -/
def Event.isShutdown : Event → Bool
  | .shutdown => true
  | _ => false

@[simp] theorem taken_append (first second : List Effect) :
    taken (first ++ second) = taken first ++ taken second := List.filterMap_append

/-- Whether an effect is on the door, and on no connection. -/
def Effect.isAtDoor : Effect → Bool
  | .accepts _ => true
  | .reports _ => true
  | _ => false

/-- What a server with an open door does at it, from its number of connections on. -/
def atDoor (accepted : Nat) : List Event → List Effect
  | [] => []
  | .connection :: rest => .accepts accepted :: atDoor (accepted + 1) rest
  | .missed failure :: rest => .reports failure :: atDoor accepted rest
  | _ :: rest => atDoor accepted rest

/-- A server with an open door takes every connection that comes. -/
theorem taken_atDoor (accepted : Nat) (events : List Event) :
    taken (atDoor accepted events) =
      List.range' accepted (events.countP (·.isConnection)) := by
  -- induction on the events: each connection is taken under the next number
  induction events generalizing accepted with
  | nil => rfl
  | cons e rest ih =>
    cases e with
    | connection =>
      rw [List.countP_cons_of_pos rfl, List.range'_succ, ← ih]
      rfl
    -- the other events take none
    | missed failure => exact ih accepted
    | stream k e => exact ih accepted
    | shutdown => exact ih accepted
    | instant now => exact ih accepted

/-- Connections are taken at the door. -/
theorem taken_filter_isAtDoor (effects : List Effect) :
    taken (effects.filter Effect.isAtDoor) = taken effects := by
  rw [taken, List.filterMap_filter]
  apply List.filterMap_congr
  intro effect _
  cases effect <;> rfl

/-- What is done on connections is not at the door. -/
private theorem filter_isAtDoor_map {α : Type} (number : α → Nat) (act : α → Act) (xs : List α) :
    (xs.map fun x => Effect.does (number x) (act x)).filter Effect.isAtDoor = [] := by
  simp [Effect.isAtDoor]

@[simp] theorem filter_isAtDoor_settle (s : Server) :
    s.settle.2.filter Effect.isAtDoor = [] := by
  rcases s.settle_cases with h | ⟨-, -, h⟩ <;> rw [h] <;> rfl

/-- A step takes or reports what comes while the door is open, and nothing else. -/
theorem filter_isAtDoor_step (s : Server) (e : Event) :
    (s.step e).2.filter Effect.isAtDoor =
      if s.phase = .accepting then atDoor s.accepted [e] else [] := by
  -- only a connection and a missed one are dealt with at the door
  cases e with
  | connection =>
    simp only [Server.step, onConnection]
    cases s.phase <;> rfl
  | missed failure =>
    simp only [Server.step, onMissed]
    cases s.phase <;> rfl
  | stream k e =>
    -- what is done for a connection is not done at the door
    have hdone := filter_isAtDoor_map (fun _ : Act => k) id
    show _ = if _ then [] else []
    rw [ite_self]
    simp only [Server.step, onStream]
    cases s.stages.lookup k with
    | none => rfl
    | some stage =>
      cases hstep : stage.step s.options e with
      | mk next? done =>
        cases next? with
        | some next => simpa [hstep] using hdone done
        | none => simpa [hstep] using hdone done
  | shutdown =>
    show _ = if _ then [] else []
    rw [ite_self]
    simp only [Server.step, onShutdown]
    cases s.phase with
    -- closing the door is not an act at it, nor is settling
    | accepting => exact filter_isAtDoor_settle _
    | draining stopAt => rfl
    | stopped => rfl
  | instant now =>
    -- what the clock does, it does for connections
    have hdropped := filter_isAtDoor_map (fun x : Nat × Closing => x.1) (fun x => .closes x.2)
      (s.overdue now)
    have hcut := filter_isAtDoor_map (fun x : Nat × Stage => x.1) (fun x => .aborts x.2.unread)
      (s.stages.filter fun x => (x.2.expiry? s.options now).isNone)
    show _ = if _ then [] else []
    rw [ite_self]
    simp only [Server.step, onInstant]
    cases s.phase with
    | accepting => exact hdropped
    | stopped => exact hdropped
    | draining stopAt =>
      by_cases hends : stopAt ≤ now
      · simp only [hends, if_true, List.filter_append, hdropped, hcut]
        rfl
      · simp only [hends, if_false, List.filter_append, hdropped, filter_isAtDoor_settle,
          List.append_nil]

/-- A step takes the connection that comes while the door is open, and no other. -/
theorem taken_step (s : Server) (e : Event) : taken (s.step e).2 =
    if e.isConnection = true ∧ s.phase = .accepting then [s.accepted] else [] := by
  rw [← taken_filter_isAtDoor, filter_isAtDoor_step]
  by_cases hphase : s.phase = .accepting
  · rw [if_pos hphase, taken_atDoor]
    cases e <;> simp [Event.isConnection, hphase]
  · rw [if_neg hphase, if_neg (fun h => hphase h.2)]
    rfl

/-- Once the door is closed, nothing is taken or reported at it. -/
private theorem filter_isAtDoor_run_of_closed {o : ServerOptions} {s : Server} {v : Watch}
    (hagrees : Agrees o s v) (hclosed : v.stopAt? ≠ none) (events : List Event) :
    (s.run events).2.filter Effect.isAtDoor = [] := by
  induction events generalizing s v with
  | nil => rfl
  | cons e rest ih =>
    -- a door that is closed stays closed
    have hafter : (v.step 0 e).stopAt? ≠ none := by
      obtain ⟨stopAt, hstopAt⟩ := Option.ne_none_iff_exists'.mp hclosed
      cases e <;> simp [Watch.step, hstopAt]
    have hphase : s.phase ≠ .accepting := fun h => hclosed (hagrees.open_iff.mp h)
    rw [run, List.filter_append, filter_isAtDoor_step, if_neg hphase,
      ih (hagrees.step 0 e) hafter]
    rfl

/-- Until the server is told to stop, the door stays open and counts the connections. -/
private theorem Watch.step_of_open (number : Nat) (v : Watch) (e : Event)
    (hopen : v.stopAt? = none) (he : e.isShutdown = false) :
    (v.step number e).stopAt? = none ∧ ∀ rest,
      atDoor v.accepted (e :: rest) =
        atDoor v.accepted [e] ++ atDoor (v.step number e).accepted rest := by
  cases e with
  | connection => simp [Watch.step, hopen, atDoor]
  | missed failure => exact ⟨hopen, fun _ => rfl⟩
  | stream k e => exact ⟨hopen, fun _ => rfl⟩
  | instant now => exact ⟨hopen, fun _ => rfl⟩
  | shutdown => cases he

/-- Until it is told to stop, a server takes every connection that comes and reports every one that
could not be taken; afterwards it does neither. -/
theorem filter_isAtDoor_run {o : ServerOptions} {s : Server} {v : Watch} (hagrees : Agrees o s v)
    (hopen : v.stopAt? = none) (events : List Event) :
    (s.run events).2.filter Effect.isAtDoor =
      atDoor s.accepted (events.takeWhile (!·.isShutdown)) := by
  -- induction on the events: until the server is told to stop, each leaves the door open
  induction events generalizing s v with
  | nil => rfl
  | cons e rest ih =>
    have hafter := hagrees.step 0 e
    have hphase := hagrees.open_iff.mpr hopen
    rw [run, List.filter_append, filter_isAtDoor_step, if_pos hphase]
    cases he : e.isShutdown with
    | true =>
      cases e with
      | shutdown =>
        -- the signal closes the door, and nothing is taken behind it
        have hclosed : (v.step 0 .shutdown).stopAt? ≠ none := by simp [Watch.step, hopen]
        rw [filter_isAtDoor_run_of_closed hafter hclosed]
        rfl
      | connection => cases he
      | missed failure => cases he
      | stream k e => cases he
      | instant now => cases he
    | false =>
      -- any other event leaves the door open and the numbers going on
      obtain ⟨hstill, hrest⟩ := v.step_of_open 0 e hopen he
      rw [ih hafter hstill, List.takeWhile_cons_of_pos (by simp [he]), hafter.accepted_eq,
        hagrees.accepted_eq]
      exact (hrest _).symm

/-- A server takes every connection that comes before it is told to stop. -/
theorem taken_run {o : ServerOptions} {s : Server} {v : Watch} (hagrees : Agrees o s v)
    (hopen : v.stopAt? = none) (events : List Event) :
    taken (s.run events).2 = List.range' s.accepted
      ((events.takeWhile (!·.isShutdown)).countP (·.isConnection)) := by
  rw [← taken_filter_isAtDoor, filter_isAtDoor_run hagrees hopen, taken_atDoor]

/-! ### All of it -/

/-- How a connection fares at a server in a course of events. -/
structure Isolated (o : ServerOptions) (number : Nat) (events : List Event) : Prop where
  /-- On it is done what it would come to by itself from what it meets. -/
  alone : acts number (run { options := o } events).2 =
    (o.serve Stage.opened (Watch.received o number {} events)).2
  /-- That is at most one answer, to a request that could be read. -/
  conduct : ServerOptions.Conduct o (Watch.received o number {} events)
    (o.serve Stage.opened (Watch.received o number {} events))
  /-- A reply that is on its way is written as its stream takes it, and then the connection is
  closed. -/
  goesOn : ∀ p, (o.serve Stage.opened (Watch.received o number {} events)).1 = some (.sending p) →
    ∀ w : Writer, ∃ parts : List Bytes, parts.flatten = (w.write p.left).taken ∧
      acts number (run { options := o } (events ++ (w.course 0 p.left).map (.stream number))).2 =
        acts number (run { options := o } events).2 ++ (parts.map .sends ++
          [.closes ({ p with taken := p.taken ++ (w.write p.left).taken }.close
            (w.write p.left).result)])
  /-- What the stream of another connection brings about, or does not, changes nothing. -/
  apart : ∀ other ≠ number, ∀ events', silence other events' = silence other events →
    acts number (run { options := o } events').2 = acts number (run { options := o } events).2
  /-- Every connection is taken that comes before the server is told to stop. -/
  accepted : taken (run { options := o } events).2 =
    List.range ((events.takeWhile (!·.isShutdown)).countP (·.isConnection))

/-- A server that has just started, as each of its connections sees it. -/
theorem agrees_start (o : ServerOptions) : Agrees o { options := o } {} :=
  ⟨rfl, rfl, rfl, by simp, by simp, by simp⟩

/-- At first each connection is still to be taken. -/
theorem place_start (o : ServerOptions) (number : Nat) :
    Place number { options := o } {} Stage.opened :=
  .ahead rfl (Nat.zero_le number) rfl

/-- On a connection is done what it would come to by itself. -/
theorem acts_run (o : ServerOptions) (number : Nat) (events : List Event) :
    acts number (run { options := o } events).2 =
      (o.serve Stage.opened (Watch.received o number {} events)).2 :=
  ((place_start o number).run (agrees_start o) events).2

/-- A reply that is on its way is written as its stream takes it. -/
private theorem acts_run_course (o : ServerOptions) (number : Nat) (events : List Event)
    (p : Sending)
    (h : (o.serve Stage.opened (Watch.received o number {} events)).1 = some (.sending p))
    (w : Writer) : ∃ parts : List Bytes, parts.flatten = (w.write p.left).taken ∧
      acts number (run { options := o } (events ++ (w.course 0 p.left).map (.stream number))).2 =
        acts number (run { options := o } events).2 ++ (parts.map .sends ++
          [.closes ({ p with taken := p.taken ++ (w.write p.left).taken }.close
            (w.write p.left).result)]) := by
  obtain ⟨hstands, -⟩ := (place_start o number).run (agrees_start o) events
  rw [h] at hstands
  -- a connection with a reply on its way has been taken
  have htaken : ((Watch.after number {} events).since?).isSome = true := by
    cases hstands with
    | taken since stage hsince haccepted hslot => rw [hsince]; rfl
  obtain ⟨parts, hparts, hserve⟩ := o.serve_course w p
  refine ⟨parts, hparts, ?_⟩
  -- the course of the reply is served behind what came in before
  rw [acts_run, acts_run, Watch.received_append, Watch.received_map_stream o number _ htaken,
    ServerOptions.serve_append]
  generalize o.serve Stage.opened (Watch.received o number {} events) = result at h ⊢
  obtain ⟨stage?, done⟩ := result
  cases h
  simp only [ServerOptions.andThen, hserve]

/-- Whatever happens at a server, on as many connections as there are and in whatever order, each is
served as if it were alone. -/
theorem isolated_run (o : ServerOptions) (number : Nat) (events : List Event) :
    Isolated o number events := by
  refine ⟨acts_run o number events, o.conduct_serve _, fun p h w =>
    acts_run_course o number events p h w, ?_, ?_⟩
  · intro other hother events' hsilence
    rw [acts_run, acts_run, ← Watch.received_silence o number other hother {} events', hsilence,
      Watch.received_silence o number other hother]
  · rw [List.range_eq_range']
    exact taken_run (agrees_start o) rfl events

end OneShot.Server
