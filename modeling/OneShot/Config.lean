import OneShot.Framing
import OneShot.Text.Blank

/-! # Configuration

The settings of clients, of the reference server and of logging, their defaults, and the rules that
a configuration keeps.

* `Config.validate`   the first rule that is broken, in a fixed order
* `Violation.message` the wording
-/

namespace OneShot

/-- The socket path used where none is given. -/
def standardSocketPath : String := "/tmp/unix_socket"

/-- The name of the framing used where none is given. -/
def standardFraming : String := "unframed"

/-- The limit on payloads used where none is given. -/
def standardLimit : UInt64 := 65536

/-- What the reference server puts in front of a text where nothing is given. -/
def standardReplyPrefix : String := "Acknowledged: "

/-- The timeout of the reference server used where none is given. -/
def standardServerTimeoutMs : UInt64 := 300000

/-- The log level used where none is given. -/
def standardLevel : String := "info"

/-- The section `client`. Timeouts are in milliseconds, zero waits for ever. -/
structure ClientConfig where
  socketPath : String := standardSocketPath
  framing : String := standardFraming
  maxReplyBytes : UInt64 := standardLimit
  connectTimeoutMs : UInt64 := 0
  readTimeoutMs : UInt64 := 0
  deriving Repr, DecidableEq

/-- The section `server`. -/
structure ServerConfig where
  socketPath : String := standardSocketPath
  framing : String := standardFraming
  replyPrefix : String := standardReplyPrefix
  maxRequestBytes : UInt64 := standardLimit
  readTimeoutMs : UInt64 := standardServerTimeoutMs
  deriving Repr, DecidableEq

/-- The section `logging`. -/
structure LoggingConfig where
  level : String := standardLevel
  deriving Repr, DecidableEq

/-- A whole configuration. -/
structure Config where
  client : ClientConfig := {}
  server : ServerConfig := {}
  logging : LoggingConfig := {}
  deriving Repr, DecidableEq

/-- The sections whose rules are alike. -/
inductive Endpoint where
  | client
  | server
  deriving Repr, DecidableEq

def Endpoint.name : Endpoint → String
  | .client => "client"
  | .server => "server"

/-- The key that limits the payload that the endpoint reads. -/
def Endpoint.limitKey : Endpoint → String
  | .client => "client.max_reply_bytes"
  | .server => "server.max_request_bytes"

/-- The names of framings that a configuration may hold. -/
def framingNames : List String := ["unframed", "newline", "length-prefixed"]

/-- A rule that a configuration breaks. -/
inductive Violation where
  | emptyPath (endpoint : Endpoint)
  | unknownFraming (endpoint : Endpoint) (name : String)
  | zeroLimit (endpoint : Endpoint)
  | limitTooLarge (endpoint : Endpoint)
  | blankLevel
  deriving Repr, DecidableEq

/-- The wording of a broken rule. -/
def Violation.message : Violation → String
  | .emptyPath e => e.name ++ ".socket_path must not be empty"
  | .unknownFraming e name =>
    e.name ++ ".framing must be one of [" ++ ", ".intercalate (framingNames.map Text.quote) ++
      "], got " ++ Text.quote name
  | .zeroLimit e => e.limitKey ++ " must be non-zero"
  | .limitTooLarge e => e.limitKey ++ " must not exceed " ++ toString Framing.greatestLength
  | .blankLevel => "logging.level must not be empty"

/-- Whether a text holds nothing but white space. -/
def isBlankText (s : String) : Bool := s.toList.all Text.isBlank

namespace Config

/-- The rules in the order in which they are checked, each with whether it is broken. -/
def checks (c : Config) : List (Bool × Violation) :=
  [(c.client.socketPath == "", .emptyPath .client),
   (c.server.socketPath == "", .emptyPath .server),
   (!framingNames.contains c.client.framing, .unknownFraming .client c.client.framing),
   (!framingNames.contains c.server.framing, .unknownFraming .server c.server.framing),
   (c.client.maxReplyBytes == 0, .zeroLimit .client),
   (c.server.maxRequestBytes == 0, .zeroLimit .server),
   (Framing.greatestLength < c.client.maxReplyBytes.toNat, .limitTooLarge .client),
   (Framing.greatestLength < c.server.maxRequestBytes.toNat, .limitTooLarge .server),
   (isBlankText c.logging.level, .blankLevel)]

/-- The first rule that is broken. -/
def violation? (c : Config) : Option Violation := (c.checks.find? (·.1)).map (·.2)

/-- Accepts a configuration that keeps all rules. -/
def validate (c : Config) : Except Violation Unit :=
  match c.violation? with
  | none => .ok ()
  | some v => .error v

theorem violation?_default : violation? {} = none := by decide

end Config

end OneShot
