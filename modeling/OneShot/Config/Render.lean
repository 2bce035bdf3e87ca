import OneShot.Config
import OneShot.Toml.Printer

/-! # Writing a configuration

The text of a configuration holds all settings, in their order, below the headers of the three
sections.

* `Config.render`   the text
-/

namespace OneShot.Config

/-- A setting on its line. -/
def line (key : String) (value : List Char) : List Char :=
  key.toList ++ [' ', '=', ' '] ++ value ++ ['\n']

def stringLine (key value : String) : List Char := line key (Toml.writeString value)

def numberLine (key : String) (value : UInt64) : List Char :=
  line key (Nat.toDigits 10 value.toNat)

/-- The header of a section on its line. -/
def headerLine (name : String) : List Char := '[' :: (name.toList ++ [']', '\n'])

def clientLines (c : ClientConfig) : List Char :=
  headerLine "client" ++ stringLine "socket_path" c.socketPath ++ stringLine "framing" c.framing ++
    numberLine "max_reply_bytes" c.maxReplyBytes ++
    numberLine "connect_timeout_ms" c.connectTimeoutMs ++
    numberLine "read_timeout_ms" c.readTimeoutMs

def serverLines (c : ServerConfig) : List Char :=
  headerLine "server" ++ stringLine "socket_path" c.socketPath ++ stringLine "framing" c.framing ++
    stringLine "reply_prefix" c.replyPrefix ++
    numberLine "max_request_bytes" c.maxRequestBytes ++
    numberLine "read_timeout_ms" c.readTimeoutMs

def loggingLines (c : LoggingConfig) : List Char :=
  headerLine "logging" ++ stringLine "level" c.level

/-- The text of a configuration. -/
def render (c : Config) : String :=
  String.ofList
    (clientLines c.client ++ '\n' :: (serverLines c.server ++ '\n' :: loggingLines c.logging))

end OneShot.Config
