import OneShot.Config.Build
import OneShot.Duration
import OneShot.Failure
import OneShot.Json.Fault

/-! # Why a server gives up

A server gives up its start when the socket cannot be put at its path, and a single connection when
no request comes of it or the reply cannot be sent.
-/

namespace OneShot

/-- Why a server does not start, or drops a connection. -/
inductive ServerError where
  | bind (path : Bytes) (failure : Failure)
  | io (failure : Failure)
  | malformed (error : Json.Error)
  /-- No request has come within the limit, in milliseconds. -/
  | silent (limit : Nat)
  deriving Repr, DecidableEq

/-- The wording. -/
def ServerError.message : ServerError → String
  | .bind path failure => "failed to bind socket at " ++ pathText path ++ ": " ++ failure.message
  | .io failure => "IO error: " ++ failure.message
  | .malformed error => "malformed message: " ++ error.message
  | .silent limit => "no request within " ++ Duration.text limit

end OneShot
