import OneShot.Server.Stage

/-! # The reference server

A server takes connections until it is told to stop; then it goes on with those in flight for a
while, and ends. Every connection is numbered and has a stage of its own, and what happens on one
may come between any two events on another. The server answers each event with what it does to the
world.

* `Server.step`        one event
* `Server.run`         a course of events; `run_append` cuts it in two
* `Server.onInstant`   the clock: overdue connections, and the end of the grace period
-/

namespace OneShot

/-- How far a server is on its way to its end. -/
inductive Phase where
  | accepting
  /-- No more connections are taken; those in flight may go on until the instant. -/
  | draining (stopAt : Nat)
  | stopped
  deriving Repr, DecidableEq

/-- A server, with the stages of the connections in flight by number. -/
structure Server where
  options : ServerOptions
  now : Nat := 0
  phase : Phase := .accepting
  /-- How many connections were taken so far. -/
  accepted : Nat := 0
  stages : List (Nat × Stage) := []
  deriving Repr, DecidableEq

namespace Server

/-- What happens to a server. -/
inductive Event where
  | connection
  /-- A connection could not be taken. -/
  | missed (failure : Failure)
  /-- The stream of a connection brings something about. -/
  | stream (number : Nat) (e : Stage.Event)
  | shutdown
  /-- The clock reaches an instant. -/
  | instant (now : Nat)

/-- What a server does. -/
inductive Effect where
  | accepts (number : Nat)
  /-- Reports that a connection could not be taken. -/
  | reports (failure : Failure)
  /-- Something is done on a connection. -/
  | does (number : Nat) (act : Stage.Act)
  | stopsListening
  | stops

/-- How long connections in flight may go on, in milliseconds. -/
def grace : Nat := 5000

/-- The end of a server that takes no more connections and has none in flight. -/
def settle (s : Server) : Server × List Effect :=
  match s.phase with
  | .draining _ => if s.stages.isEmpty then ({ s with phase := .stopped }, [.stops]) else (s, [])
  | _ => (s, [])

/-- Takes a connection, if connections are still taken. -/
def onConnection (s : Server) : Server × List Effect :=
  match s.phase with
  | .accepting =>
    ({ s with accepted := s.accepted + 1
              stages := s.stages ++ [(s.accepted, .reading { since := s.now })] },
      [.accepts s.accepted])
  | _ => (s, [])

/-- A connection that could not be taken is reported, if connections are still taken. It ends
nothing. -/
def onMissed (s : Server) (failure : Failure) : Server × List Effect :=
  match s.phase with
  | .accepting => (s, [.reports failure])
  | _ => (s, [])

/-- Puts a stage in the place of the one with the same number. -/
def withStage (s : Server) (number : Nat) (stage : Stage) : Server :=
  { s with stages := s.stages.map fun (k, g) => (k, if k = number then stage else g) }

/-- Takes a connection away. -/
def without (s : Server) (number : Nat) : Server :=
  { s with stages := s.stages.filter (·.1 ≠ number) }

/-- Goes on with a connection whose stream brings something about. -/
def onStream (s : Server) (number : Nat) (e : Stage.Event) : Server × List Effect :=
  match s.stages.lookup number with
  | none => (s, [])
  | some stage =>
    match stage.step s.options e with
    | (some next, acts) => (s.withStage number next, acts.map (.does number))
    | (none, acts) =>
      let settled := (s.without number).settle
      (settled.1, acts.map (.does number) ++ settled.2)

/-- Takes no more connections from now on. -/
def onShutdown (s : Server) : Server × List Effect :=
  match s.phase with
  | .accepting =>
    let settled := settle { s with phase := .draining (s.now + grace) }
    (settled.1, .stopsListening :: settled.2)
  | _ => (s, [])

/-- The connections that are overdue at an instant, with their ends. -/
def overdue (s : Server) (now : Nat) : List (Nat × Closing) :=
  s.stages.filterMap fun (k, stage) => (stage.expiry? s.options now).map fun c => (k, c)

/-- The clock reaches an instant. Overdue connections are dropped; what is in flight when the grace
period is over is cut short. -/
def onInstant (s : Server) (now : Nat) : Server × List Effect :=
  let dropped := (s.overdue now).map fun (k, c) => Effect.does k (.closes c)
  let kept := s.stages.filter fun (_, stage) => (stage.expiry? s.options now).isNone
  let s := { s with now := max s.now now, stages := kept }
  match s.phase with
  | .draining stopAt =>
    if stopAt ≤ now then
      ({ s with phase := .stopped, stages := [] },
        dropped ++ kept.map (fun (k, stage) => Effect.does k (.aborts stage.unread)) ++ [.stops])
    else
      let settled := s.settle
      (settled.1, dropped ++ settled.2)
  | _ => (s, dropped)

/-- One event. -/
def step (s : Server) : Event → Server × List Effect
  | .connection => s.onConnection
  | .missed failure => s.onMissed failure
  | .stream number e => s.onStream number e
  | .shutdown => s.onShutdown
  | .instant now => s.onInstant now

/-- A course of events. -/
def run (s : Server) : List Event → Server × List Effect
  | [] => (s, [])
  | e :: rest =>
    let current := s.step e
    let later := run current.1 rest
    (later.1, current.2 ++ later.2)

@[simp] theorem run_nil (s : Server) : s.run [] = (s, []) := rfl

theorem run_append (s : Server) (first second : List Event) :
    s.run (first ++ second) =
      (((s.run first).1.run second).1, (s.run first).2 ++ ((s.run first).1.run second).2) := by
  induction first generalizing s with
  | nil => simp
  | cons e rest ih => simp [run, ih, List.append_assoc]

end Server

end OneShot
