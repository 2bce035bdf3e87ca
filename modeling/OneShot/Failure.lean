/-! # Failures of input and output

A `Failure` has a kind, on which callers decide, and a message for people. Failures that the
operating system reports are the values of `SystemError`, each with its number, kind and wording.
-/

namespace OneShot

/-- The kinds of failure. -/
inductive FailureKind where
  | notFound
  | permissionDenied
  | connectionRefused
  | connectionReset
  | hostUnreachable
  | networkUnreachable
  | connectionAborted
  | notConnected
  | addressInUse
  | addressNotAvailable
  | networkDown
  | brokenPipe
  | alreadyExists
  | wouldBlock
  | notADirectory
  | isADirectory
  | directoryNotEmpty
  | readOnlyFilesystem
  | staleNetworkFileHandle
  | invalidInput
  | invalidData
  | timedOut
  | writeZero
  | storageFull
  | notSeekable
  | quotaExceeded
  | fileTooLarge
  | resourceBusy
  | executableFileBusy
  | deadlock
  | crossesDevices
  | tooManyLinks
  | invalidFilename
  | argumentListTooLong
  | interrupted
  | unsupported
  | unexpectedEnd
  | outOfMemory
  /-- A failure that whoever reports it calls so. -/
  | other
  /-- An error of the operating system that has no kind. -/
  | uncategorized
  deriving Repr, DecidableEq

/-- What went wrong with an operation on a stream or a file. -/
structure Failure where
  kind : FailureKind
  message : String
  deriving Repr, DecidableEq

/-- The errors of the operating system that a call can meet. -/
inductive SystemError where
  | noSuchFile
  | noSuchDevice
  | notADirectory
  | isADirectory
  | invalidArgument
  | brokenPipe
  | nameTooLong
  | addressInUse
  | connectionReset
  | connectionRefused
  deriving Repr, DecidableEq

namespace SystemError

def number : SystemError → Nat
  | .noSuchFile => 2
  | .noSuchDevice => 6
  | .notADirectory => 20
  | .isADirectory => 21
  | .invalidArgument => 22
  | .brokenPipe => 32
  | .nameTooLong => 36
  | .addressInUse => 98
  | .connectionReset => 104
  | .connectionRefused => 111

def wording : SystemError → String
  | .noSuchFile => "No such file or directory"
  | .noSuchDevice => "No such device or address"
  | .notADirectory => "Not a directory"
  | .isADirectory => "Is a directory"
  | .invalidArgument => "Invalid argument"
  | .brokenPipe => "Broken pipe"
  | .nameTooLong => "File name too long"
  | .addressInUse => "Address already in use"
  | .connectionReset => "Connection reset by peer"
  | .connectionRefused => "Connection refused"

def kind : SystemError → FailureKind
  | .noSuchFile => .notFound
  | .noSuchDevice => .uncategorized
  | .notADirectory => .notADirectory
  | .isADirectory => .isADirectory
  | .invalidArgument => .invalidInput
  | .brokenPipe => .brokenPipe
  | .nameTooLong => .invalidFilename
  | .addressInUse => .addressInUse
  | .connectionReset => .connectionReset
  | .connectionRefused => .connectionRefused

/-- The failure that reports the error. -/
def failure (e : SystemError) : Failure :=
  ⟨e.kind, e.wording ++ " (os error " ++ toString e.number ++ ")"⟩

end SystemError

end OneShot
