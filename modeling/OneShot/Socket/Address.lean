import OneShot.Socket.FileSystem

/-! # Socket addresses

A path is an address if it is short enough and holds no zero byte, except that a zero byte in front
marks a name outside the file system.

* `FileSystem.connect`   whether a listener is reached
* `FileSystem.listen`    puts a listener at a path
-/

namespace OneShot

/-- The length at which a path no longer fits into an address. -/
def addressLimit : Nat := 108

/-- Why a path is no address. -/
def addressFailure? (path : Bytes) : Option Failure :=
  if path.contains 0 then some ⟨.invalidInput, "paths must not contain interior null bytes"⟩
  else if addressLimit ≤ path.length then
    some ⟨.invalidInput, "path must be shorter than SUN_LEN"⟩
  else none

namespace FileSystem

/-- The failure to connect to a name outside the file system, where nobody listens. -/
def outsideFailure (path : Bytes) : Failure :=
  if addressLimit < path.length then
    ⟨.invalidInput, "abstract socket name must be shorter than SUN_LEN"⟩
  else SystemError.connectionRefused.failure

/-- Connects to the listener at a path. -/
def connect (fs : FileSystem) (path : Bytes) : Except Failure Unit :=
  if path.head? = some 0 then .error (outsideFailure path)
  else
    match addressFailure? path with
    | some failure => .error failure
    | none =>
      if path = [] then .error SystemError.invalidArgument.failure
      else
        match fs.find path with
        | .error e => .error e.failure
        | .ok (.socket (some _)) => .ok ()
        | .ok _ => .error SystemError.connectionRefused.failure

/-- Puts a listener at a path. The empty path gives a listener that has no path. -/
def listen (fs : FileSystem) (listener : Nat) (path : Bytes) : Except Failure FileSystem :=
  match addressFailure? path with
  | some failure => .error failure
  | none =>
    if path = [] then .ok fs
    else (fs.bind listener path).mapError SystemError.failure

/-- Whether something is at a path, as far as one can tell. -/
def isAvailable (fs : FileSystem) (path : Bytes) : Bool :=
  !path.contains 0 && (fs.find path).toOption.isSome

end FileSystem

end OneShot
