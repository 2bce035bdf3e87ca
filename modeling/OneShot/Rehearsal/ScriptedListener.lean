import OneShot.Socket.Address
import OneShot.Socket.Link

/-! # A scripted listener

A listener that takes one connection, reads once and then does what its script says. Later
connections wait in vain and are reset when it ends.

* `ScriptedListener.settle`   everything that it does at the present instant
* `ScriptedListener.moveTo`   everything up to an instant
-/

namespace OneShot

/-- What a scripted listener does after it has read. -/
inductive ListenerScript where
  /-- Writes the chunks, with a pause after each, and closes. -/
  | reply (chunks : List Bytes)
  | close
  /-- Waits until it is released, and closes. -/
  | hang
  deriving Repr, DecidableEq

/-- How far the script is. -/
inductive ListenerStage where
  | listening
  | reading
  /-- The chunks that are left, to go on with at the instant. -/
  | pausing (left : List Bytes) (resume : Nat)
  | hanging
  | ended (result : Except Failure Unit)

/-- A scripted listener and its surroundings. -/
structure ScriptedListener where
  files : FileSystem
  path : Bytes
  script : ListenerScript
  now : Nat := 0
  stage : ListenerStage := .listening
  released : Bool := false
  /-- What it has read. -/
  received : Bytes := []
  /-- The links of all connections in their order, each seen from the client; the listener has taken
  the first. -/
  links : List Link := []

namespace ScriptedListener

/-- The number of the listener. -/
def number : Nat := 0

/-- The most that it reads. -/
def readLimit : Nat := 65536

/-- The pause after a chunk, in milliseconds. -/
def pause : Nat := 5

/-- Starts a listener at a path where nothing is. -/
def start (path : Bytes) (script : ListenerScript) : ScriptedListener :=
  { files := ({} : FileSystem).insert [path] (.socket (some number)), path, script }

/-- Changes the link of one connection. -/
def onLink (v : ScriptedListener) (index : Nat) (f : Link → Link) : ScriptedListener :=
  { v with links := v.links.modify index f }

/-- A link that waited when the listener ended. -/
def resetLink (l : Link) : Link :=
  { near := { l.near with reset := true }, far := { l.far with ended := true, closed := true } }

/-- The end of the script: the connection is closed, those that wait are reset. -/
def finish (v : ScriptedListener) (result : Except Failure Unit) : ScriptedListener :=
  { v with
    stage := .ended result
    files := v.files.abandon number
    links := match v.links with
      | [] => []
      | taken :: waiting => taken.flip.close.flip :: waiting.map resetLink }

/-- Goes on with a reply. -/
def goOn (v : ScriptedListener) : List Bytes → ScriptedListener
  | [] => v.finish (.ok ())
  | chunk :: left =>
    if !chunk.isEmpty && (v.links.head?.map (·.near.closed)).getD true then
      v.finish (.error SystemError.brokenPipe.failure)
    else
      { v.onLink 0 (fun l => (l.flip.send chunk).flip) with stage := .pausing left (v.now + pause) }

/-- What it does after it has read. -/
def perform (v : ScriptedListener) : ScriptedListener :=
  match v.script with
  | .reply chunks => v.goOn chunks
  | .close => v.finish (.ok ())
  | .hang => if v.released then v.finish (.ok ()) else { v with stage := .hanging }

/-- Reads once, if there is something to read. -/
def read (v : ScriptedListener) (l : Link) : ScriptedListener :=
  if l.far.arrived.isEmpty && !l.near.ended then v
  else
    let rest := l.far.arrived.drop readLimit
    perform { v.onLink 0 (fun l => { l with far := { l.far with arrived := rest } }) with
      received := l.far.arrived.take readLimit }

/-- Does what can be done at the present instant. -/
def settle (v : ScriptedListener) : ScriptedListener :=
  match v.stage, v.links with
  | .listening, l :: _ => read { v with stage := .reading } l
  | .reading, l :: _ => v.read l
  | .hanging, _ => if v.released then v.finish (.ok ()) else v
  | _, _ => v

/-- The next instant at which it goes on by itself. -/
def resumption? (v : ScriptedListener) : Option Nat :=
  match v.stage with
  | .pausing _ resume => some resume
  | _ => none

/-- The end of a pause. -/
def resume (v : ScriptedListener) : ScriptedListener :=
  match v.stage with
  | .pausing left resume => goOn { v with now := resume } left
  | _ => v

/-- How many pauses there can still be. -/
def pauses (v : ScriptedListener) : Nat :=
  match v.stage, v.script with
  | .pausing left _, _ => left.length + 1
  | _, .reply chunks => chunks.length + 1
  | _, _ => 0

/-- Everything up to an instant, with at most `fuel` pauses. -/
def advance : Nat → ScriptedListener → Nat → ScriptedListener
  | 0, v, instant => { v with now := max v.now instant }
  | fuel + 1, v, instant =>
    match v.resumption? with
    | some resume =>
      if resume ≤ instant then advance fuel v.resume instant
      else { v with now := max v.now instant }
    | none => { v with now := max v.now instant }

/-- Everything up to an instant. -/
def moveTo (v : ScriptedListener) (instant : Nat) : ScriptedListener := advance v.pauses v instant

/-- What has come to a client between two views of its link. -/
def news (earlier later : Link) : List Arrival :=
  let fresh := later.near.arrived.drop earlier.near.arrived.length
  (if fresh.isEmpty then [] else [.bytes fresh]) ++
    (if earlier.ending?.isNone then later.ending?.toList else [])

/-- Everything that comes to a client up to an instant, with at most `fuel` pauses; instants count
from `origin`. -/
def outlook (origin index instant : Nat) : Nat → ScriptedListener → List (Nat × Arrival)
  | 0, _ => []
  | fuel + 1, v =>
    match v.resumption? with
    | none => []
    | some resume =>
      if instant < resume then []
      else
        let later := v.resume
        (news (v.links.getD index {}) (later.links.getD index {})).map
            (fun a => (resume - origin, a)) ++
          outlook origin index instant fuel later

/-- Everything that a client meets from now on up to an instant. -/
def arrivals (v : ScriptedListener) (index instant : Nat) : List (Nat × Arrival) :=
  ((v.links.getD index {}).backlog).map (fun a => (0, a)) ++
    outlook v.now index instant v.pauses v

/-- A change that a client makes to its link, and what comes of it at once. -/
def touch (v : ScriptedListener) (index : Nat) (f : Link → Link) : ScriptedListener :=
  (v.onLink index f).settle

/-- A new connection, and its place among the links. -/
def accept (v : ScriptedListener) : Nat × ScriptedListener :=
  (v.links.length, settle { v with links := v.links ++ [{}] })

/-- Lets go of the listener: its file is removed, and it waits no more. -/
def release (v : ScriptedListener) : ScriptedListener :=
  settle { v with files := (v.files.unlink v.path).toOption.getD v.files, released := true }

end ScriptedListener

end OneShot
