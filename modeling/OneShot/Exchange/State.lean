/-! # The states of a call

A call goes from `idle` through `connecting`, `connected`, `sending` and `awaitingReply` to
`completed`; any state that is not terminal can turn into `failed`.
-/

namespace OneShot

/-- How far a call has come. -/
inductive CallState where
  | idle
  | connecting
  | connected
  | sending
  | awaitingReply
  | completed
  | failed
  deriving Repr, DecidableEq

namespace CallState

def name : CallState → String
  | .idle => "idle"
  | .connecting => "connecting"
  | .connected => "connected"
  | .sending => "sending"
  | .awaitingReply => "awaiting reply"
  | .completed => "completed"
  | .failed => "failed"

/-- Whether the call is over. -/
def isTerminal : CallState → Bool
  | .completed | .failed => true
  | _ => false

/-- Whether a call in this state has an open stream between two operations. -/
def hasStream : CallState → Bool
  | .connected | .awaitingReply => true
  | _ => false

end CallState

/-- The operations that have to come in order. -/
inductive Operation where
  | connect
  | send
  | receive
  deriving Repr, DecidableEq

namespace Operation

def name : Operation → String
  | .connect => "connect"
  | .send => "send"
  | .receive => "receive"

/-- The state in which an operation is allowed. -/
def required : Operation → CallState
  | .connect => .idle
  | .send => .connected
  | .receive => .awaitingReply

end Operation

end OneShot
