import OneShot.Config.Build
import OneShot.Exchange.State
import OneShot.Json.Fault

/-! # Why a call fails

The first step that fails decides: connecting, sending the request, reading the reply, or making
sense of it. An operation out of order is refused.
-/

namespace OneShot

/-- Why a call has no reply. -/
inductive ExchangeError where
  | connect (path : Bytes) (failure : Failure)
  | write (failure : Failure)
  | read (failure : Failure)
  | parse (error : Json.Error)
  | invalidState (operation : Operation) (state : CallState)
  deriving Repr, DecidableEq

namespace ExchangeError

/-- The failure of the transport, if that is what went wrong. -/
def failure? : ExchangeError → Option Failure
  | .connect _ failure | .write failure | .read failure => some failure
  | .parse _ | .invalidState _ _ => none

/-- The kind of that failure. -/
def kind? (e : ExchangeError) : Option FailureKind := e.failure?.map Failure.kind

/-- What went wrong, without the reason. -/
def headline : ExchangeError → String
  | .connect path _ => "failed to connect to socket at " ++ pathText path
  | .write _ => "failed to send request"
  | .read _ => "failed to read reply"
  | .parse _ => "failed to parse reply"
  | .invalidState operation state =>
    "cannot " ++ operation.name ++ " while the connection is " ++ state.name

/-- The reason, where there is one beside the headline. -/
def reason? : ExchangeError → Option String
  | .connect _ failure | .write failure | .read failure => some failure.message
  | .parse error => some error.message
  | .invalidState _ _ => none

/-- The wording. -/
def message (e : ExchangeError) : String :=
  match e.reason? with
  | some reason => e.headline ++ ": " ++ reason
  | none => e.headline

end ExchangeError

end OneShot
