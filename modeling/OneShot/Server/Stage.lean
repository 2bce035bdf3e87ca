import OneShot.Server.Handler

/-! # The stages of a connection

A connection that was taken is read until its request is there, and then takes the reply, in as many
parts as its stream likes. Other connections go on in between.

* `Stage.step`      what the stream of a connection brings about, and what the server does then
* `Writer.course`   how a stream goes on that takes a reply as a writer says
-/

namespace OneShot

/-- How far a connection is. -/
inductive Stage where
  | reading (h : Handler)
  | sending (p : Sending)
  deriving Repr, DecidableEq

namespace Stage

/-- What the stream of a connection brings about. -/
inductive Event where
  | arrives (a : Arrival)
  /-- The stream answers the offer of what is left of the reply. -/
  | takes (answer : Writer.Answer)
  /-- The stream answers the flush behind the reply. -/
  | flushes (result : Except Failure Unit)

/-- What a server does on a connection. -/
inductive Act where
  | receives (request : Message)
  | sends (bytes : Bytes)
  | closes (c : Closing)
  /-- Cuts the connection short, with bytes that were not read. -/
  | aborts (unread : Bytes)

/-- Starts the reply to the payload of a request. -/
def start (o : ServerOptions) (payload unread : Bytes) : Option Stage × List Act :=
  match o.prepare payload unread with
  | .ok p => (some (.sending p), [.receives p.request])
  | .error c => (none, c.request.toList.map .receives ++ [.closes c])

/-- The stream answers the offer of what is left of a reply. -/
def onTake (p : Sending) : Writer.Answer → Option Stage × List Act
  | .fails failure => (none, [.closes (p.close (.error failure))])
  | .takes count =>
    if count = 0 then (none, [.closes (p.close (.error Writer.writeZero))])
    else
      (some (.sending { p with taken := p.taken ++ p.left.take count, left := p.left.drop count }),
        [.sends (p.left.take count)])

/-- The stream of a connection brings something about. There is no next stage when the connection
is over. -/
def step (o : ServerOptions) : Stage → Event → Option Stage × List Act
  | reading h, .arrives a =>
    match h.read o a with
    | .waiting h => (some (.reading h), [])
    | .request payload unread => start o payload unread
    | .done c => (none, [.closes c])
  -- nothing was offered yet
  | reading h, _ => (some (.reading h), [])
  | sending p, .arrives (.bytes chunk) =>
    (some (.sending { p with unread := p.unread ++ chunk }), [])
  -- nobody reads
  | sending p, .arrives _ => (some (.sending p), [])
  | sending p, .takes answer =>
    if p.left = [] then (some (.sending p), []) else onTake p answer
  | sending p, .flushes result =>
    if p.left = [] then (none, [.closes (p.close result)]) else (some (.sending p), [])

/-- The end of a connection whose request is overdue. -/
def expiry? (o : ServerOptions) (now : Nat) : Stage → Option Closing
  | reading h => h.expiry? o now
  | sending _ => none

/-- The instant at which the request is overdue. -/
def deadline? (o : ServerOptions) : Stage → Option Nat
  | reading h => h.deadline? o
  | sending _ => none

/-- The bytes that have arrived and were not read. -/
def unread : Stage → Bytes
  | reading _ => []
  | sending p => p.unread

end Stage

/-- How a stream goes on that takes bytes as a writer says, from the offer number `turn` on. -/
def Writer.course (w : Writer) (turn : Nat) (bytes : Bytes) : List Stage.Event :=
  if _hb : bytes = [] then [.flushes w.flush]
  else
    .takes (w.answer turn) ::
      match w.answer turn with
      | .fails _ => []
      | .takes count =>
        if _hc : count = 0 then [] else w.course (turn + 1) (bytes.drop count)
termination_by bytes.length
decreasing_by
  have := List.length_pos_iff.2 _hb
  simp only [List.length_drop]
  omega

end OneShot
