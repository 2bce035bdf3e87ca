import OneShot.Exchange.Arrival
import OneShot.Framing.Writer

/-! # Links

A link joins two ends, each with the bytes that have arrived for it and were not read. It is seen
from the near end; `Link.flip` is the view of the far end.

An end that is closed with bytes unread resets the link: the other end still reads what has arrived
for it, and then fails.

* `Link.flip_flip`   both views are of one link
* `Link.backlog`     what the near end meets when it starts to read
-/

namespace OneShot

/-- One end of a link. -/
structure LinkEnd where
  arrived : Bytes := []
  /-- Whether this end writes no more. -/
  ended : Bool := false
  closed : Bool := false
  /-- Whether the other end was closed with bytes of this end unread. -/
  reset : Bool := false
  deriving Repr, DecidableEq

/-- A link, seen from the near end. -/
structure Link where
  near : LinkEnd := {}
  far : LinkEnd := {}
  deriving Repr, DecidableEq

namespace Link

/-- The view of the far end. -/
def flip (l : Link) : Link := ⟨l.far, l.near⟩

@[simp] theorem flip_flip (l : Link) : l.flip.flip = l := rfl

/-- Sends bytes to the far end. -/
def send (l : Link) (bytes : Bytes) : Link :=
  { l with far := { l.far with arrived := l.far.arrived ++ bytes } }

/-- How the near end writes: all at once, or not at all once the far end is closed. -/
def writer (l : Link) : Writer where
  answer _ :=
    if l.far.closed then .fails SystemError.brokenPipe.failure else .takes Writer.unlimited
  flush := .ok ()

/-- Ends the writing of the near end. -/
def endWriting (l : Link) : Link := { l with near := { l.near with ended := true } }

/-- Closes the near end. -/
def close (l : Link) : Link :=
  { near := { l.near with arrived := [], ended := true, closed := true }
    far := { l.far with reset := l.far.reset || !l.near.arrived.isEmpty } }

/-- Forgets what has arrived at the near end. -/
def drain (l : Link) : Link := { l with near := { l.near with arrived := [] } }

/-- What the near end meets when it has read everything that arrived. -/
def ending? (l : Link) : Option Arrival :=
  if l.far.closed ∧ l.near.reset then some (.failed SystemError.connectionReset.failure)
  else if l.far.closed ∨ l.far.ended then some .closed
  else none

/-- What the near end meets when it starts to read. -/
def backlog (l : Link) : List Arrival :=
  (if l.near.arrived.isEmpty then [] else [.bytes l.near.arrived]) ++ l.ending?.toList

end Link

end OneShot
