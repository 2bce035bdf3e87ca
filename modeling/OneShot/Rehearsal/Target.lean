import OneShot.Socket.Address

/-! # Places to connect to

The file systems that a rehearsal sets up, and the path used in each.
-/

namespace OneShot

/-- Where a rehearsed client connects to. -/
inductive Target where
  | listener
  /-- A listener below two directories. -/
  | nestedListener
  | missing
  | plainFile
  /-- A path that goes on below a file. -/
  | belowFile
  | directory
  /-- A socket without a listener. -/
  | staleSocket
  /-- A path in an empty directory. -/
  | path (path : Bytes)
  deriving Repr, DecidableEq

namespace Target

def bytes (s : String) : Bytes := Utf8.encodeString s

/-- The path of the target. -/
def pathOf : Target → Bytes
  | .listener => bytes "peer.sock"
  | .nestedListener => bytes "deep/er/peer.sock"
  | .missing => bytes "missing.sock"
  | .plainFile => bytes "plain-file"
  | .belowFile => bytes "plain-file/x.sock"
  | .directory => bytes "adir"
  | .staleSocket => bytes "stale.sock"
  | .path p => p

/-- The working directory that the target needs. -/
def files : Target → FileSystem
  | .listener => ({} : FileSystem).insert [bytes "peer.sock"] (.socket (some 0))
  | .nestedListener =>
    ((({} : FileSystem).insert [bytes "deep"] .directory).insert [bytes "deep", bytes "er"]
      .directory).insert [bytes "deep", bytes "er", bytes "peer.sock"] (.socket (some 0))
  | .missing => {}
  | .path _ => {}
  | .plainFile | .belowFile => ({} : FileSystem).insert [bytes "plain-file"] (.file [])
  | .directory => ({} : FileSystem).insert [bytes "adir"] .directory
  | .staleSocket => ({} : FileSystem).insert [bytes "stale.sock"] (.socket none)

end Target

end OneShot
