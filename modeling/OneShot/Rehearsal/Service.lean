import OneShot.Exchange.Call
import OneShot.Rehearsal.Elapsed
import OneShot.Rehearsal.Target
import OneShot.Server
import OneShot.Server.SocketFile
import OneShot.Socket.Link

/-! # Rehearsing a server

A server at its path, taken through a script of steps: raw connections under names, whole calls, the
clock, and the end. After each step everything that can go on at that instant has gone on.

* `Service.start`   the server at a place that was set up for it
* `Service.step`    one step
-/

namespace OneShot

/-- What is at the path of the server before it starts. -/
inductive ServicePlace where
  | free
  | plainFile
  | staleSocket
  | directory
  /-- The path leads through directories that are missing. -/
  | missingParent
  /-- The path leads through a file. -/
  | belowFile
  | path (path : Bytes)
  deriving Repr, DecidableEq

namespace ServicePlace

def standardPath : Bytes := Target.bytes "server.sock"

def pathOf : ServicePlace → Bytes
  | .missingParent => Target.bytes "a/b/server.sock"
  | .belowFile => Target.bytes "plain-file/server.sock"
  | .path p => p
  | _ => standardPath

/-- The working directory that the place needs. -/
def files : ServicePlace → FileSystem
  | .plainFile => ({} : FileSystem).insert [standardPath] (.file [])
  | .staleSocket => ({} : FileSystem).insert [standardPath] (.socket none)
  | .directory => ({} : FileSystem).insert [standardPath] .directory
  | .belowFile => ({} : FileSystem).insert [Target.bytes "plain-file"] (.file [])
  | _ => {}

end ServicePlace

/-- A step of the script; raw connections go by names. -/
inductive ServiceStep where
  | connect (name : String)
  | write (name : String) (bytes : Bytes)
  | endWriting (name : String)
  | drop (name : String)
  | read (name : String)
  | advance (ms : Nat)
  | call (options : ClientOptions) (request : Message)
  | shutdown
  | join

/-- What a step comes to. -/
inductive ServiceAnswer where
  | ok
  | refused (failure : Failure)
  | brokenPipe
  /-- The bytes that had come back, and whether the server has closed. -/
  | took (bytes : Bytes) (closed : Bool)
  | called (outcome : Outcome Message)
  /-- How many servers have heard the signal. -/
  | signalled (count : Nat)
  | joined (stopped waited fileLeft : Bool)

/-- A server and its surroundings. -/
structure Service where
  files : FileSystem
  path : Bytes
  server : Server
  /-- The links of all connections by number, each seen from the client. -/
  links : List (Nat × Link) := []
  /-- The numbers of the raw connections by name. -/
  names : List (String × Nat) := []
  /-- Everything that the server has done. -/
  history : List Server.Effect := []

namespace Service

/-- The number of the server as a listener. -/
def listener : Nat := 0

/-- Starts a server among files. -/
def startAmong (files : FileSystem) (path : Bytes) (options : ServerOptions) :
    Except ServerError Service :=
  match files.settleIn listener path with
  | .ok files => .ok { files, path, server := { options } }
  | .error e => .error e

/-- Starts a server at a place. -/
def start (place : ServicePlace) (options : ServerOptions) : Except ServerError Service :=
  startAmong place.files place.pathOf options

/-- Changes the link of a connection. -/
def onLink (v : Service) (number : Nat) (f : Link → Link) : Service :=
  { v with links := v.links.map fun (k, l) => (k, if k = number then f l else l) }

/-- How a link is left by a server that closes its end with bytes unread. -/
def hangUp (unread : Bytes) (l : Link) : Link :=
  let server := l.flip
  (Link.close { server with near := { server.near with arrived := unread } }).flip

/-- What the server does to the link of a connection. -/
def act (a : Stage.Act) (l : Link) : Link :=
  match a with
  | .receives _ => l
  | .sends bytes => (l.flip.send bytes).flip
  | .closes c => hangUp c.unread l
  | .aborts unread => hangUp unread l

/-- What the server does to its surroundings. -/
def apply (v : Service) : Server.Effect → Service
  | .accepts number => { v with links := (number, {}) :: v.links }
  | .reports _ => v
  | .does number a => v.onLink number (act a)
  | .stopsListening => { v with files := (Tenure.withdraw listener (.listening, v.files)).2 }
  | .stops => { v with files := (Tenure.advance listener v.path (.leaving, v.files)).2 }

/-- One event. -/
def happen (v : Service) (e : Server.Event) : Service :=
  let stepped := v.server.step e
  stepped.2.foldl apply { v with server := stepped.1, history := v.history ++ stepped.2 }

/-- The stream of a connection takes a reply that is on its way. -/
def takeReply (v : Service) (number : Nat) (w : Writer) : Service :=
  match v.server.stages.lookup number with
  | some (.sending p) => (w.course 0 p.left).foldl (fun v e => v.happen (.stream number e)) v
  | _ => v

/-- The server reads what has arrived for it on a connection. -/
def deliver (v : Service) (number : Nat) : Service :=
  match v.links.lookup number with
  | none => v
  | some l =>
    let server := l.flip
    server.backlog.foldl
      (fun v a => (v.happen (.stream number (.arrives a))).takeReply number server.writer)
      (v.onLink number fun l => l.flip.drain.flip)

/-- A change that a client makes to its link, and what the server makes of it. -/
def touch (v : Service) (number : Nat) (f : Link → Link) : Service :=
  (v.onLink number f).deliver number

/-- The clock reaches an instant. -/
def moveTo (v : Service) (instant : Nat) : Service := v.happen (.instant instant)

/-- The number that a new connection gets, and the service after it. -/
def accept (v : Service) : Nat × Service := (v.server.accepted, v.happen .connection)

/-- The link and the number of a raw connection. -/
def client? (v : Service) (name : String) : Option (Nat × Link) :=
  (v.names.lookup name).bind fun k => (v.links.lookup k).map fun l => (k, l)

/-- Opens a raw connection; an earlier one of the same name is closed. -/
def connect (v : Service) (name : String) : Service × ServiceAnswer :=
  match v.files.connect v.path with
  | .error failure => (v, .refused failure)
  | .ok () =>
    let (number, opened) := v.accept
    let opened :=
      match v.names.lookup name with
      | some earlier => opened.touch earlier Link.close
      | none => opened
    ({ opened with names := (name, number) :: opened.names.filter (·.1 ≠ name) }, .ok)

/-- The course of a call whose request the server has read at once: its answer, and if there is none
its end at the deadline of the handler. The client's own deadline comes first. -/
def courseOf (v : Service) (number : Nat) (limit : Option Nat) : Course :=
  let now := v.server.now
  let atOnce := ((v.links.lookup number).map Link.backlog).getD []
  let later :=
    match (v.server.stages.lookup number).bind (·.deadline? v.server.options) with
    | none => []
    | some deadline =>
      if limit.any (now + · ≤ deadline) then []
      else
        let after := v.moveTo deadline
        (((after.links.lookup number).bind Link.ending?).map fun a =>
          (deadline - now, Happening.arrival a)).toList
  atOnce.map (fun a => (0, .arrival a)) ++ later

/-- A whole call. -/
def call (v : Service) (options : ClientOptions) (request : Message) : Service × Outcome Message :=
  let client : Client := { path := v.path, options }
  let attempt := v.files.connect v.path
  let (number, opened) := v.accept
  let frame := (options.framing.encode request.encode).toOption.getD []
  let asked := opened.touch number (·.send frame)
  let course := asked.courseOf number options.readTimeout
  let p := client.call
    { attempt := [(0, .done attempt)], writer := ({} : Link).writer, course } request
  match attempt with
  | .error _ => (v, p.outcome)
  | .ok () =>
    let ended := asked.moveTo (v.server.now + p.elapsed options.readTimeout course)
    (ended.touch number Link.close, p.outcome)

/-- Waits for the end of the server, a second at a time. -/
def awaitEnd : Nat → Service → Service
  | 0, v => v
  | fuel + 1, v =>
    match v.server.phase with
    | .draining _ => awaitEnd fuel (v.moveTo (v.server.now + 1000))
    | _ => v

/-- One step. -/
def step (v : Service) : ServiceStep → Service × ServiceAnswer
  | .connect name => v.connect name
  | .write name bytes =>
    match v.client? name with
    | none => (v, .ok)
    | some (number, l) =>
      if bytes.isEmpty then (v, .ok)
      else if l.far.closed ∨ l.near.ended then (v, .brokenPipe)
      else (v.touch number (·.send bytes), .ok)
  | .endWriting name =>
    match v.client? name with
    | none => (v, .ok)
    | some (number, _) => (v.touch number Link.endWriting, .ok)
  | .drop name =>
    match v.client? name with
    | none => (v, .ok)
    | some (number, _) =>
      ({ v.touch number Link.close with names := v.names.filter (·.1 ≠ name) }, .ok)
  | .read name =>
    match v.client? name with
    | none => (v, .took [] false)
    | some (number, l) => (v.onLink number Link.drain, .took l.near.arrived l.far.closed)
  | .advance ms => (v.moveTo (v.server.now + ms), .ok)
  | .call options request =>
    let (v, outcome) := v.call options request
    (v, .called outcome)
  | .shutdown =>
    (v.happen .shutdown, .signalled (if v.server.phase = .stopped then 0 else 1))
  | .join =>
    let ended := awaitEnd (Server.grace / 1000 + 1) v
    (ended, .joined (ended.server.phase = .stopped) (v.server.now < ended.server.now)
      (ended.files.isAvailable v.path))

/-- All steps with what they come to. -/
def run (v : Service) : List ServiceStep → List ServiceAnswer
  | [] => []
  | s :: rest =>
    let (v, answer) := v.step s
    answer :: v.run rest

end Service

end OneShot
