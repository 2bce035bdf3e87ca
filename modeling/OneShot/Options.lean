import OneShot.Config

/-! # Options

What a client and the reference server need at run time, made from their sections of the
configuration. Only the name of the framing can be wrong.
-/

namespace OneShot

/-- A timeout in milliseconds, `none` for the zero that waits for ever. -/
def timeout (ms : UInt64) : Option Nat := if ms = 0 then none else some ms.toNat

/-- The options of one call. -/
structure ClientOptions where
  framing : Framing := .standard
  maxReplyBytes : Nat := standardLimit.toNat
  connectTimeout : Option Nat := none
  readTimeout : Option Nat := none
  deriving Repr, DecidableEq

/-- The options of the reference server. -/
structure ServerOptions where
  framing : Framing := .standard
  replyPrefix : String := "Acknowledged: "
  maxRequestBytes : Nat := standardLimit.toNat
  readTimeout : Option Nat := some 300000
  deriving Repr, DecidableEq

def ClientConfig.options (c : ClientConfig) : Except UnknownFraming ClientOptions :=
  match Framing.parse c.framing with
  | .error e => .error e
  | .ok framing =>
    .ok { framing, maxReplyBytes := c.maxReplyBytes.toNat,
          connectTimeout := timeout c.connectTimeoutMs, readTimeout := timeout c.readTimeoutMs }

def ServerConfig.options (c : ServerConfig) : Except UnknownFraming ServerOptions :=
  match Framing.parse c.framing with
  | .error e => .error e
  | .ok framing =>
    .ok { framing, replyPrefix := c.replyPrefix, maxRequestBytes := c.maxRequestBytes.toNat,
          readTimeout := timeout c.readTimeoutMs }

/-- A section without settings makes the standard options. -/
theorem ClientConfig.options_default : ({} : ClientConfig).options = .ok {} := rfl

theorem ServerConfig.options_default : ({} : ServerConfig).options = .ok {} := rfl

end OneShot
