import OneShot.Exchange.Call
import OneShot.Rehearsal.Peer
import OneShot.Rehearsal.Target

/-! # Rehearsing a connection

One connection and its peer, taken through a script of steps; and a whole call with a peer that acts
while it runs.

* `Conversation.step`   one step
* `rehearseCall`        a whole call
-/

namespace OneShot

/-- A step of the script. During an operation the peer may act, at instants counted from its
start. -/
inductive ConversationStep where
  | connect
  | send (request : Message)
  | receive (during : List (Nat × PeerAction))
  | close
  | peer (action : PeerAction)

/-- What a step comes to. -/
inductive StepAnswer where
  | ok
  | reply (m : Message)
  | error (e : ExchangeError)
  | waiting
  | peer (answer : PeerAnswer)

/-- A connection and its surroundings. -/
structure Conversation where
  files : FileSystem
  scene : Scene := {}
  connection : Connection

namespace Scene

/-- How connecting goes: not at all once the call is cancelled. -/
def attempt (s : Scene) (files : FileSystem) (path : Bytes) :
    List (Nat × Signal (Except Failure Unit)) :=
  if s.cancelled then [(0, .cancel)] else [(0, .done (files.connect path))]

/-- The scene with a fresh link, if the connection has a stream. -/
def opened (s : Scene) (c : Connection) : Scene :=
  if c.isOpen then { s with link := some {} } else s

/-- The scene after the client has sent bytes, and closed its end if its stream is gone. -/
def settle (s : Scene) (written : Bytes) (c : Connection) : Scene :=
  let sent := s.link.map (·.send written)
  { s with link := if c.isOpen then sent else sent.map Link.close }

/-- How the stream takes the bytes of the client. -/
def writer (s : Scene) : Writer := (s.link.getD {}).writer

end Scene

namespace Conversation

/-- The start of a conversation with a target. -/
def start (target : Target) (options : ClientOptions) : Conversation :=
  { files := target.files, connection := { path := target.pathOf, options } }

/-- What an operation without a value comes to. -/
def answerOf : Outcome Unit → StepAnswer
  | .ok () => .ok
  | .error e => .error e
  | .waiting => .waiting

/-- What the reception of a reply comes to. -/
def replyOf : Outcome Message → StepAnswer
  | .ok m => .reply m
  | .error e => .error e
  | .waiting => .waiting

/-- One step. -/
def step (v : Conversation) : ConversationStep → Conversation × StepAnswer
  | .connect =>
    let p := v.connection.connect (v.scene.attempt v.files v.connection.path)
    match p.outcome with
    | .ok () =>
      ({ v with connection := p.connection, scene := v.scene.opened p.connection }, .ok)
    | outcome => ({ v with connection := p.connection }, answerOf outcome)
  | .send request =>
    let p := v.connection.send v.scene.writer request
    ({ v with connection := p.connection, scene := v.scene.settle p.written p.connection },
      answerOf p.outcome)
  | .receive during =>
    let p := v.connection.receive (v.scene.course during)
    let scene :=
      if v.connection.state = .awaitingReply then v.scene.after during p.passed else v.scene
    ({ v with connection := p.connection, scene := scene.settle [] p.connection },
      replyOf p.outcome)
  | .close =>
    let c := v.connection.close
    ({ v with connection := c, scene := v.scene.settle [] c }, .ok)
  | .peer action =>
    let (scene, answer) := v.scene.act action
    ({ v with scene }, .peer answer)

/-- All steps, each with what it comes to and the state after it. -/
def run (v : Conversation) : List ConversationStep → List (StepAnswer × CallState)
  | [] => []
  | s :: rest =>
    let (v, answer) := v.step s
    (answer, v.connection.state) :: v.run rest

end Conversation

/-- What a rehearsed call comes to. -/
structure CallReport where
  outcome : Outcome Message
  /-- Whether something was at the path before. -/
  available : Bool
  /-- The bytes that reached the peer and that it did not take. -/
  sent : Bytes
  /-- Whether the peer has seen the end of the stream. -/
  peerEnded : Bool

/-- A whole call, while the peer acts. -/
def rehearseCall (target : Target) (options : ClientOptions) (cancelled : Bool) (request : Message)
    (during : List (Nat × PeerAction)) : CallReport :=
  let client : Client := { path := target.pathOf, options }
  let scene : Scene := { cancelled }
  let linked : Scene := { scene with link := some {} }
  -- the peer sees the request before it acts
  let requested : Scene :=
    match options.framing.encode request.encode with
    | .ok frame => { linked with link := linked.link.map (·.send frame) }
    | .error _ => linked
  let p := client.call
    { attempt := scene.attempt target.files client.path
      writer := linked.writer
      course := requested.course during } request
  let left : Option Link :=
    if p.written.isEmpty then none else ((requested.after during p.passed).link.map Link.close)
  let peer := left.filter (!·.far.closed)
  { outcome := p.outcome
    available := target.files.isAvailable target.pathOf
    sent := (peer.map (·.far.arrived)).getD []
    peerEnded := peer.isSome }

end OneShot
