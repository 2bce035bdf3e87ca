import OneShot.Config.Schema
import OneShot.Failure
import OneShot.Toml.Excerpt
import OneShot.Toml.Parser

/-! # Reading a configuration

A configuration is read from the text of a document or from the bytes of a file, and then checked.

* `Config.parse`   from a text
* `Config.load`    from a file
-/

namespace OneShot

/-- Why there is no configuration. -/
inductive ConfigError where
  /-- The file cannot be read. -/
  | unreadable (failure : Failure)
  /-- The text is no document. -/
  | malformed
  /-- A value of the document does not fit; `excerpt` shows it. -/
  | misfit (excerpt : String)
  | invalid (violation : Violation)
  deriving Repr, DecidableEq

/-- The wording. What breaks a malformed document is not said. -/
def ConfigError.message : ConfigError → String
  | .unreadable failure => "failed to read config file: " ++ failure.message
  | .malformed => "failed to parse TOML: "
  | .misfit excerpt => "failed to parse TOML: " ++ excerpt
  | .invalid violation => "validation error: " ++ violation.message

namespace Config

/-- The configuration that a text describes. A document with numbers beyond 64 bits is taken as it
is if it fits, and as malformed if it does not. -/
def ofText (text : String) : Except ConfigError Config :=
  match Toml.read? text.toList with
  | none => .error .malformed
  | some root =>
    match Schema.config root with
    | .ok config => if Schema.readable root then .ok config else .error .malformed
    | .error e =>
      if root.all fun (_, item) => item.isPlain then
        .error (.misfit (Toml.excerpt text.toList e.span e.misfit.message))
      else .error .malformed

/-- The valid configuration that a text describes. -/
def parse (text : String) : Except ConfigError Config :=
  match ofText text with
  | .error e => .error e
  | .ok config =>
    match config.violation? with
    | none => .ok config
    | some violation => .error (.invalid violation)

/-- The failure to read a file whose bytes are no text. -/
def notText : Failure := ⟨.invalidData, "stream did not contain valid UTF-8"⟩

/-- The valid configuration in a file, given its bytes or the failure to read them. -/
def load (file : Except Failure Bytes) : Except ConfigError Config :=
  match file with
  | .error failure => .error (.unreadable failure)
  | .ok bytes =>
    match Utf8.decodeString bytes with
    | .ok text => parse text
    | .error _ => .error (.unreadable notText)

end Config

end OneShot
