import OneShot.Config
import OneShot.Text.Utf8

/-! # Settings that both ends share

Changes to a configuration that concern the client and the server alike. A path is kept as text, so
bytes in it that are no text are replaced.
-/

namespace OneShot

/-- A path as it is shown. -/
def pathText (path : Bytes) : String := String.ofList (Utf8.decodeLossy path)

namespace Config

/-- Both ends at one socket path. -/
def withSocketPath (c : Config) (path : Bytes) : Config :=
  { c with
    client := { c.client with socketPath := pathText path }
    server := { c.server with socketPath := pathText path } }

/-- Both ends with one framing. -/
def withFraming (c : Config) (name : String) : Config :=
  { c with
    client := { c.client with framing := name }
    server := { c.server with framing := name } }

end Config

end OneShot
