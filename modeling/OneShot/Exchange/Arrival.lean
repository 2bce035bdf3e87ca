import OneShot.Exchange.Guard
import OneShot.Framing.Reader

/-! # Arrivals

What a stream brings to the end that reads from it, and what a reader makes of it while it waits.

* `Reader.onArrival`   one arrival
* `Reader.signals`     a whole course of events, as seen by an operation that waits for a frame
-/

namespace OneShot

/-- What a stream brings. -/
inductive Arrival where
  | bytes (chunk : Bytes)
  /-- The other end writes no more. -/
  | closed
  | failed (failure : Failure)
  deriving Repr, DecidableEq

/-- What happens while an operation waits. -/
inductive Happening where
  | arrival (a : Arrival)
  | cancel
  /-- Something that does not concern the stream. -/
  | nothing
  deriving Repr, DecidableEq

/-- Happenings in their order, each at its instant. -/
abbrev Course := List (Nat × Happening)

namespace Reader

/-- What an arrival comes to. -/
def onArrival (f : Framing) (limit : Nat) (r : Reader) : Arrival → Progress
  | .bytes chunk => (absorb f limit r chunk).progress
  | .closed =>
    match finish f limit r with
    | .ok payload => .frame payload
    | .error e => .failed e
  | .failed failure => .failed (interrupted f failure)

/-- What a course of events means for an operation that waits for a frame. -/
def signals (f : Framing) (limit : Nat) (r : Reader) :
    Course → List (Nat × Signal (Except ReadError Bytes))
  | [] => []
  | (instant, .nothing) :: rest => (instant, .quiet) :: signals f limit r rest
  | (instant, .cancel) :: rest => (instant, .cancel) :: signals f limit r rest
  | (instant, .arrival a) :: rest =>
    match onArrival f limit r a with
    | .more r => (instant, .quiet) :: signals f limit r rest
    | .frame payload => [(instant, .done (.ok payload))]
    | .failed e => [(instant, .done (.error e))]

/-- Waits for a frame. -/
def await (f : Framing) (limit : Nat) (deadline : Option Nat) (course : Course) :
    Verdict (Except ReadError Bytes) × Nat :=
  guarded deadline (signals f limit {} course)

end Reader

end OneShot
