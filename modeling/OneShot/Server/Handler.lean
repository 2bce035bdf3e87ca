import OneShot.Exchange.Arrival
import OneShot.Framing.Writer
import OneShot.Message.Decode
import OneShot.Options
import OneShot.Server.Error

/-! # Serving one connection

A handler reads one request, writes one reply and closes. It sees only what arrives on its own
connection and the clock.

* `Handler.read`            what an arrival comes to while the request is read
* `ServerOptions.prepare`   the reply to the payload of a request, before any byte of it is written
* `ServerOptions.answer`    what the payload of a request comes to
* `Handler.onArrival`       what an arrival comes to, the reply included
* `Handler.expiry?`         what the clock comes to
-/

namespace OneShot

/-- The end of a served connection. -/
structure Closing where
  /-- The request, if one was understood. -/
  request : Option Message := none
  /-- The bytes that the connection took. -/
  written : Bytes := []
  /-- The bytes that had arrived and were not read. -/
  unread : Bytes := []
  /-- The reply that was sent, or why the connection was dropped. -/
  result : Except ServerError Message

/-- A connection whose request has not come yet. -/
structure Handler where
  /-- The instant at which the connection was accepted. -/
  since : Nat
  reader : Reader := {}
  deriving Repr, DecidableEq

/-- What an arrival comes to. -/
inductive Handling where
  | waiting (h : Handler)
  | done (c : Closing)

/-- A reply on its way. -/
structure Sending where
  request : Message
  reply : Message
  /-- The bytes of the frame that the connection has taken. -/
  taken : Bytes := []
  /-- The bytes of the frame that it has not taken yet. -/
  left : Bytes
  /-- The bytes that have arrived behind the request. -/
  unread : Bytes
  deriving Repr, DecidableEq

/-- The end of a reply, by what its writing came to. -/
def Sending.close (p : Sending) : Except Failure Unit → Closing
  | .ok () =>
    { request := some p.request, written := p.taken, unread := p.unread, result := .ok p.reply }
  | .error failure =>
    { request := some p.request, written := p.taken, unread := p.unread,
      result := .error (.io failure) }

@[simp] theorem Sending.close_written (p : Sending) (result : Except Failure Unit) :
    (p.close result).written = p.taken := by
  cases result <;> rfl

namespace ServerOptions

/-- The reply to the payload of a request, before any byte of it is written. -/
def prepare (o : ServerOptions) (payload unread : Bytes) : Except Closing Sending :=
  match Message.decode payload with
  | .error e => .error { unread, result := .error (.malformed e) }
  | .ok request =>
    let reply := request.reply o.replyPrefix
    match o.framing.encode reply.encode with
    | .error e => .error { request := some request, unread, result := .error (.io e.failure) }
    | .ok frame => .ok { request, reply, left := frame, unread }

/-- Answers the payload of a request; `w` is how the connection takes the reply. -/
def answer (o : ServerOptions) (w : Writer) (payload unread : Bytes) : Closing :=
  match o.prepare payload unread with
  | .error c => c
  | .ok p =>
    let sent := w.write p.left
    { p with taken := sent.taken }.close sent.result

end ServerOptions

namespace Handler

/-- What an arrival comes to while the request is read. -/
inductive Reading where
  | waiting (h : Handler)
  /-- The request is there, with what has arrived behind it. -/
  | request (payload unread : Bytes)
  | done (c : Closing)

/-- Reads what arrives. -/
def read (o : ServerOptions) (h : Handler) : Arrival → Reading
  | .bytes chunk =>
    match Reader.absorb o.framing o.maxRequestBytes h.reader chunk with
    | ⟨.more r, _⟩ => .waiting { h with reader := r }
    | ⟨.frame payload, unread⟩ => .request payload unread
    | ⟨.failed e, unread⟩ => .done { unread, result := .error (.io e.failure) }
  | .closed =>
    match Reader.finish o.framing o.maxRequestBytes h.reader with
    | .ok payload => .request payload []
    | .error e => .done { result := .error (.io e.failure) }
  | .failed failure =>
    .done { result := .error (.io (Reader.interrupted o.framing failure).failure) }

/-- What an arrival comes to; `w` is how the connection takes the reply. -/
def onArrival (o : ServerOptions) (w : Writer) (h : Handler) (a : Arrival) : Handling :=
  match h.read o a with
  | .waiting h => .waiting h
  | .request payload unread => .done (o.answer w payload unread)
  | .done c => .done c

/-- The end of a connection whose request is overdue. -/
def expiry? (o : ServerOptions) (now : Nat) (h : Handler) : Option Closing :=
  match o.readTimeout with
  | some limit =>
    if h.since + limit ≤ now then some { result := .error (.silent limit) } else none
  | none => none

/-- The instant at which the request is overdue. -/
def deadline? (o : ServerOptions) (h : Handler) : Option Nat := o.readTimeout.map (h.since + ·)

end Handler

end OneShot
