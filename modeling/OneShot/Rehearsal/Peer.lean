import OneShot.Socket.Link

/-! # A scripted peer

The other end of a connection, played from a script of actions in whole milliseconds.

* `Scene.act`      one action
* `Scene.course`   what the actions of a script are to an operation that waits meanwhile
-/

namespace OneShot

/-- What the peer does. -/
inductive PeerAction where
  | write (bytes : Bytes)
  /-- Takes all bytes that have arrived. -/
  | read
  | endWriting
  | close
  /-- Cancels the call instead of touching the stream. -/
  | cancel
  deriving Repr, DecidableEq

/-- What an action of the peer comes to. -/
inductive PeerAnswer where
  | done
  | took (bytes : Bytes) (ended : Bool)
  | brokenPipe
  | noPeer
  deriving Repr, DecidableEq

/-- The link, seen from the client, if there is one, and whether the call is cancelled. -/
structure Scene where
  link : Option Link := none
  cancelled : Bool := false
  deriving Repr, DecidableEq

namespace Scene

/-- The link while the peer is still there. -/
def peer? (s : Scene) : Option Link := s.link.filter (!·.far.closed)

/-- One action. -/
def act (s : Scene) : PeerAction → Scene × PeerAnswer
  | .cancel => ({ s with cancelled := true }, .done)
  | .write bytes =>
    match s.peer? with
    | none => (s, .noPeer)
    | some l =>
      if bytes.isEmpty then (s, .done)
      else if l.near.closed ∨ l.far.ended then (s, .brokenPipe)
      else ({ s with link := some (l.flip.send bytes).flip }, .done)
  | .read =>
    match s.peer? with
    | none => (s, .took [] false)
    | some l =>
      ({ s with link := some l.flip.drain.flip },
        .took l.far.arrived (l.near.closed || l.near.ended))
  | .endWriting => ({ s with link := s.peer?.map (·.flip.endWriting.flip) <|> s.link }, .done)
  | .close => ({ s with link := s.peer?.map (·.flip.close.flip) <|> s.link }, .done)

/-- All actions, without their answers. -/
def actAll (s : Scene) (actions : List PeerAction) : Scene :=
  actions.foldl (fun s a => (s.act a).1) s

/-- What the end of the peer's writing is to the client after an action. -/
def endingAfter (before after : Scene) : Happening :=
  match before.link.bind Link.ending?, after.link.bind Link.ending? with
  | none, some a => .arrival a
  | _, _ => .nothing

/-- What an action is to an operation of the client that waits. -/
def happening (s : Scene) (a : PeerAction) : Happening :=
  match a with
  | .cancel => .cancel
  | .write bytes =>
    if (s.act a).2 = .done ∧ !bytes.isEmpty then .arrival (.bytes bytes) else .nothing
  | .read => .nothing
  | .endWriting | .close => endingAfter s (s.act a).1

/-- What the actions of a script are to an operation of the client that waits. -/
def courseOf (s : Scene) : List (Nat × PeerAction) → Course
  | [] => []
  | (instant, a) :: rest => (instant, s.happening a) :: (s.act a).1.courseOf rest

/-- What an operation of the client meets at once. -/
def backlog (s : Scene) : Course :=
  (if s.cancelled then [(0, .cancel)] else []) ++
    ((s.link.map Link.backlog).getD []).map fun a => (0, .arrival a)

/-- Everything that an operation of the client meets while it waits. -/
def course (s : Scene) (script : List (Nat × PeerAction)) : Course :=
  s.backlog ++ s.courseOf script

/-- The scene after as many happenings of its course as came to pass: the client has read what had
arrived. -/
def after (s : Scene) (script : List (Nat × PeerAction)) (passed : Nat) : Scene :=
  let s := s.actAll ((script.take (passed - s.backlog.length)).map (·.2))
  { s with link := s.link.map Link.drain }

end Scene

end OneShot
