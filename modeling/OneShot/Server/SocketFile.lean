import OneShot.Server.Error
import OneShot.Socket.Address

/-! # The socket file of a server

A server takes its path in four steps, between which others can change the files: it looks whether
something is there, clears it away, makes the directories that are missing and puts its socket
there. On its way out it first stops listening and at last removes whatever is at the path.

* `Tenure.advance`   one step
* `Tenure.withdraw`  the end of listening
* `FileSystem.settleIn`   the steps up to listening in one go
-/

namespace OneShot

/-- How far a server is with its path. -/
inductive Tenure where
  | looking
  | clearing
  | preparing
  | binding
  | listening
  /-- The server listens no more; its file is still there. -/
  | leaving
  | gone
  | failed (e : ServerError)
  deriving Repr, DecidableEq

namespace Tenure

/-- Whether something is at the path; a path with a zero byte is refused. -/
def look (fs : FileSystem) (path : Bytes) : Except Failure Bool :=
  if path.contains 0 then .error FileSystem.zeroByte
  else (fs.tryExists path).mapError SystemError.failure

/-- One step of a server with its number as a listener. -/
def advance (listener : Nat) (path : Bytes) : Tenure × FileSystem → Tenure × FileSystem
  | (.looking, fs) =>
    match look fs path with
    | .ok true => (.clearing, fs)
    | .ok false => (.preparing, fs)
    | .error failure => (.failed (.io failure), fs)
  | (.clearing, fs) =>
    match fs.unlink path with
    | .ok fs => (.preparing, fs)
    | .error e => (.failed (.io e.failure), fs)
  | (.preparing, fs) => (.binding, fs.makeDirectories path)
  | (.binding, fs) =>
    match fs.listen listener path with
    | .ok fs => (.listening, fs)
    | .error failure => (.failed (.bind path failure), fs)
  | (.leaving, fs) => (.gone, (fs.unlink path).toOption.getD fs)
  | other => other

/-- The end of listening. -/
def withdraw (listener : Nat) : Tenure × FileSystem → Tenure × FileSystem
  | (.listening, fs) => (.leaving, fs.abandon listener)
  | other => other

end Tenure

namespace FileSystem

/-- All steps up to listening, if none fails. -/
def settleIn (fs : FileSystem) (listener : Nat) (path : Bytes) : Except ServerError FileSystem :=
  match Nat.repeat (Tenure.advance listener path) 4 (.looking, fs) with
  | (.failed e, _) => .error e
  | (_, fs) => .ok fs

end FileSystem

end OneShot
