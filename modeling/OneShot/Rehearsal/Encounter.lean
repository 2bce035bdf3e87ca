import OneShot.Exchange.Call
import OneShot.Rehearsal.Elapsed
import OneShot.Rehearsal.ScriptedListener

/-! # A client and a scripted listener

One client, with at most one connection of its own beside its calls, and one listener, taken through
a script of steps. Time passes only while an operation waits, and then not for ever.

* `Encounter.step`   one step
-/

namespace OneShot

/-- A step of the script. While an operation waits, it may be cancelled at instants counted from its
start. -/
inductive EncounterStep where
  | available
  | call (request : Message) (cancels : List Nat)
  | connect
  | send (request : Message)
  | receive (cancels : List Nat)
  | close
  /-- Waits for the end of the listener. -/
  | finish
  /-- Lets go of the listener. -/
  | drop

/-- What a step comes to. -/
inductive EncounterAnswer where
  | available (answer : Bool)
  | called (outcome : Outcome Message)
  | state (state : CallState)
  | refused (e : ExchangeError)
  | ok
  | received (bytes : Bytes)
  | failed (failure : Failure)
  | waiting
  deriving DecidableEq

/-- A client and a listener. -/
structure Encounter where
  listener : ScriptedListener
  client : Client
  /-- The connection of the client and its place among the links. -/
  connection : Option (Connection × Nat) := none
  cancelled : Bool := false

namespace Encounter

/-- How long an operation is waited for, in milliseconds. -/
def patience : Nat := 400

/-- The path of the listener. -/
def path : Bytes := Utf8.encodeString "fake.sock"

/-- The start of an encounter. -/
def start (script : ListenerScript) (options : ClientOptions) : Encounter :=
  { listener := .start path script, client := { path, options } }

/-- How connecting goes. -/
def attempt (v : Encounter) : List (Nat × Signal (Except Failure Unit)) :=
  if v.cancelled then [(0, .cancel)] else [(0, .done (v.listener.files.connect path))]

/-- The options for an operation that is not waited for longer than `patience`. -/
def patient (o : ClientOptions) : ClientOptions :=
  { o with readTimeout := o.readTimeout.filter (· ≤ patience) }

/-- Puts cancellations among other happenings, at their instants. -/
def merge (cancels : List Nat) (course : Course) : Course :=
  cancels.foldr (fun instant c =>
    c.takeWhile (·.1 < instant) ++ (instant, .cancel) :: c.dropWhile (·.1 < instant)) course

/-- What an operation meets that waits on a link. -/
def course (v : Encounter) (index : Nat) (cancels : List Nat) : Course :=
  (if v.cancelled then [(0, .cancel)] else []) ++
    merge (cancels.filter (· ≤ patience))
      ((v.listener.arrivals index (v.listener.now + patience)).map fun (instant, a) =>
        (instant, .arrival a))

/-- The encounter after an operation that waited on a link. -/
def pass (v : Encounter) (index : Nat) (cancels : List Nat) (p : Performed Message)
    (course : Course) (limit : Option Nat) : Encounter :=
  let elapsed := match p.outcome with
    | .waiting => patience
    | _ => p.elapsed limit course
  let moved := v.listener.moveTo (v.listener.now + elapsed)
  { v with
    listener := moved.onLink index Link.drain
    cancelled := v.cancelled || cancels.any (· ≤ elapsed) }

/-- Closes the stream of a connection that has none any more. -/
def settle (v : Encounter) (c : Connection) (index : Nat) : Encounter :=
  { v with
    listener := if c.isOpen then v.listener else v.listener.touch index Link.close
    connection := some (c, index) }

/-- A whole call. -/
def call (v : Encounter) (request : Message) (cancels : List Nat) : Encounter × Outcome Message :=
  let (index, taken) := v.listener.accept
  let options := patient v.client.options
  let frame := (options.framing.encode request.encode).toOption.getD []
  let asked := { v with listener := taken.touch index (·.send frame) }
  let course := asked.course index cancels
  let p := Client.call { v.client with options }
    { attempt := v.attempt, writer := ({} : Link).writer, course } request
  if p.written.isEmpty then (v, p.outcome)
  else
    let ended := asked.pass index cancels p course options.readTimeout
    ({ ended with listener := ended.listener.touch index Link.close }, p.outcome)

/-- Opens the connection of the client; an earlier one is closed. -/
def connect (v : Encounter) : Encounter × EncounterAnswer :=
  let p := v.client.connection.connect v.attempt
  match p.outcome with
  | .ok () =>
    let (index, taken) := v.listener.accept
    let listener :=
      match v.connection with
      | some (_, earlier) => taken.touch earlier Link.close
      | none => taken
    ({ v with listener, connection := some (p.connection, index) }, .state p.connection.state)
  | .error e => (v, .refused e)
  | .waiting => (v, .waiting)

/-- The connection, idle if there is none, and its place among the links. -/
def current (v : Encounter) : Connection × Nat :=
  v.connection.getD (v.client.connection, v.listener.links.length)

/-- Sends a request on the connection. -/
def send (v : Encounter) (request : Message) : Encounter × EncounterAnswer :=
  let (c, index) := v.current
  let p := c.send (v.listener.links.getD index {}).writer request
  let sent :=
    if p.written.isEmpty then v
    else { v with listener := v.listener.touch index (·.send p.written) }
  let answer :=
    match p.outcome with
    | .ok () => .ok
    | .error e => .refused e
    | .waiting => .waiting
  (sent.settle p.connection index, answer)

/-- Waits for the reply on the connection. -/
def receive (v : Encounter) (cancels : List Nat) : Encounter × EncounterAnswer :=
  let (c, index) := v.current
  let options := patient c.options
  let course := v.course index cancels
  let p := Connection.receive { c with options } course
  if c.state = .awaitingReply then
    let ended := v.pass index cancels p course options.readTimeout
    (ended.settle { p.connection with options := c.options } index, .called p.outcome)
  else (v, .called p.outcome)

/-- Waits for the end of the listener. -/
def finish (v : Encounter) : Encounter × EncounterAnswer :=
  let rec await : Nat → ScriptedListener → ScriptedListener
    | 0, l => l
    | fuel + 1, l =>
      match l.resumption? with
      | some resume =>
        if resume ≤ v.listener.now + patience then await fuel l.resume else l
      | none => l
  let listener := await v.listener.pauses v.listener
  match listener.stage with
  | .ended (.ok ()) => ({ v with listener := listener.release }, .received listener.received)
  | .ended (.error failure) => ({ v with listener := listener.release }, .failed failure)
  | _ => ({ v with listener := (listener.moveTo (v.listener.now + patience)).release }, .waiting)

/-- One step. -/
def step (v : Encounter) : EncounterStep → Encounter × EncounterAnswer
  | .available => (v, .available (v.listener.files.isAvailable path))
  | .call request cancels =>
    let (v, outcome) := v.call request cancels
    (v, .called outcome)
  | .connect => v.connect
  | .send request => v.send request
  | .receive cancels => v.receive cancels
  | .close =>
    let (c, index) := v.current
    (v.settle c.close index, .state c.close.state)
  | .finish => v.finish
  | .drop => ({ v with listener := v.listener.release }, .ok)

/-- All steps with what they come to. -/
def run (v : Encounter) : List EncounterStep → List EncounterAnswer
  | [] => []
  | s :: rest =>
    let (v, answer) := v.step s
    answer :: v.run rest

end Encounter

end OneShot
