import OneShot.Config
import OneShot.Toml.Document

/-! # From a document to a configuration

A section is a table, whose unknown keys are ignored, or a list, whose elements are the settings in
their order. A setting that its section does not give has a default of its own, and a section that
the document does not give is the default of its record. The keys of a table are looked at in
ascending order, so that of two misfits the one with the smaller key is reported.

* `Schema.config`     the configuration of a document
* `Schema.readable`   whether everything that is looked at can be read
* `Schema.client_read_nil`, `server_read_nil`, `logging_read_nil`   both kinds of defaults agree
-/

namespace OneShot

/-- An item that does not fit, and where it stands. -/
structure SchemaError where
  span : Toml.Span
  misfit : Misfit
  deriving Repr, DecidableEq

namespace Schema

open Toml (Item Entries)

def wrongType (item : Item) (expected : String) : SchemaError :=
  ⟨item.span, .wrongType item.found expected⟩

/-- An item that has to be a string. -/
def string : Item → Except SchemaError String
  | .string _ s => .ok s
  | item => .error (wrongType item "a string")

/-- An item that has to be an unsigned integer of 64 bits, called `expected` in messages. -/
def unsigned (expected : String) (item : Item) : Except SchemaError UInt64 :=
  match item with
  | .integer span n =>
    if 0 ≤ n ∧ n < 0x10000000000000000 then .ok (UInt64.ofNat n.toNat)
    else .error ⟨span, .wrongValue item.found expected⟩
  | item => .error (wrongType item expected)

/-- A count of bytes. -/
def size : Item → Except SchemaError UInt64 := unsigned "usize"

/-- A count of milliseconds. -/
def milliseconds : Item → Except SchemaError UInt64 := unsigned "u64"

/-- A setting of a section `σ`: its key, how an item sets it, and its default. -/
structure Setting (σ : Type) where
  key : String
  set : σ → Item → Except SchemaError σ
  fill : σ → σ

/-- A setting of type `α`. -/
def setting {σ α : Type} (key : String) (read : Item → Except SchemaError α) (standard : α)
    (put : σ → α → σ) : Setting σ where
  key := key
  set s item := (read item).map (put s)
  fill s := put s standard

/-- The settings of a table: each from the item under its key, or at its default. -/
def ofTable {σ : Type} (entries : Entries) : List (Setting σ) → σ → Except SchemaError σ
  | [], s => .ok s
  | f :: fs, s =>
    match entries.get? f.key with
    | none => ofTable entries fs (f.fill s)
    | some item =>
      match f.set s item with
      | .ok s => ofTable entries fs s
      | .error e => .error e

/-- The settings in the order of the elements of a list, those behind its end at their defaults. -/
def ofElements {σ : Type} : List (Setting σ) → List Item → σ → Except SchemaError σ
  | [], _, s => .ok s
  | f :: fs, [], s => ofElements fs [] (f.fill s)
  | f :: fs, item :: items, s =>
    match f.set s item with
    | .ok s => ofElements fs items s
    | .error e => .error e

/-- A section: its name in messages, its settings in their order, and the same by ascending key. -/
structure Section (σ : Type) where
  expected : String
  declared : List (Setting σ)
  sorted : List (Setting σ)

/-- The section that an item describes, read over `s`. -/
def Section.read {σ : Type} (sec : Section σ) (s : σ) (item : Item) : Except SchemaError σ :=
  match item with
  | .table _ _ entries => ofTable entries sec.sorted s
  | .array _ items | .tables _ items => ofElements sec.declared items s
  -- a table without any of the keys
  | .dateTime _ => ofTable [] sec.sorted s
  | item => .error (wrongType item sec.expected)

/-- The part of an item that is looked at when a section is read from it. -/
def Section.seen {σ : Type} (sec : Section σ) : Item → Item
  | .array span items => .array span (items.take sec.declared.length)
  | .tables span items => .tables span (items.take sec.declared.length)
  | item => item

namespace Client

def socketPath : Setting ClientConfig :=
  setting "socket_path" string standardSocketPath fun c v => { c with socketPath := v }
def framing : Setting ClientConfig :=
  setting "framing" string standardFraming fun c v => { c with framing := v }
def maxReplyBytes : Setting ClientConfig :=
  setting "max_reply_bytes" size standardLimit fun c v => { c with maxReplyBytes := v }
def connectTimeoutMs : Setting ClientConfig :=
  setting "connect_timeout_ms" milliseconds 0 fun c v => { c with connectTimeoutMs := v }
def readTimeoutMs : Setting ClientConfig :=
  setting "read_timeout_ms" milliseconds 0 fun c v => { c with readTimeoutMs := v }

end Client

/-- The section `client`. -/
def client : Section ClientConfig where
  expected := "struct ClientConfig"
  declared := [Client.socketPath, Client.framing, Client.maxReplyBytes, Client.connectTimeoutMs,
    Client.readTimeoutMs]
  sorted := [Client.connectTimeoutMs, Client.framing, Client.maxReplyBytes, Client.readTimeoutMs,
    Client.socketPath]

namespace Server

def socketPath : Setting ServerConfig :=
  setting "socket_path" string standardSocketPath fun c v => { c with socketPath := v }
def framing : Setting ServerConfig :=
  setting "framing" string standardFraming fun c v => { c with framing := v }
def replyPrefix : Setting ServerConfig :=
  setting "reply_prefix" string standardReplyPrefix fun c v => { c with replyPrefix := v }
def maxRequestBytes : Setting ServerConfig :=
  setting "max_request_bytes" size standardLimit fun c v => { c with maxRequestBytes := v }
def readTimeoutMs : Setting ServerConfig :=
  setting "read_timeout_ms" milliseconds standardServerTimeoutMs
    fun c v => { c with readTimeoutMs := v }

end Server

/-- The section `server`. -/
def server : Section ServerConfig where
  expected := "struct ServerConfig"
  declared := [Server.socketPath, Server.framing, Server.replyPrefix, Server.maxRequestBytes,
    Server.readTimeoutMs]
  sorted := [Server.framing, Server.maxRequestBytes, Server.readTimeoutMs, Server.replyPrefix,
    Server.socketPath]

namespace Logging

def level : Setting LoggingConfig :=
  setting "level" string standardLevel fun c v => { c with level := v }

end Logging

/-- The section `logging`. -/
def logging : Section LoggingConfig where
  expected := "struct LoggingConfig"
  declared := [Logging.level]
  sorted := [Logging.level]

section Defaults

variable (span : Toml.Span) (origin : Toml.Origin)

/-- A section that gives no setting is what a missing section is, whatever it is read over. -/
theorem client_read_nil (c : ClientConfig) : client.read c (.table span origin []) = .ok {} := rfl

theorem server_read_nil (c : ServerConfig) : server.read c (.table span origin []) = .ok {} := rfl

theorem logging_read_nil (c : LoggingConfig) : logging.read c (.table span origin []) = .ok {} :=
  rfl

end Defaults

/-- A section of the document, which may be missing; then it is the default `s`. -/
def sectionOf {σ : Type} (root : Entries) (name : String) (sec : Section σ) (s : σ) :
    Except SchemaError σ :=
  match root.get? name with
  | none => .ok s
  | some item => sec.read s item

/-- Whether everything that is looked at below the root can be read. -/
def readable (root : Entries) : Bool :=
  root.all fun (name, item) =>
    Item.isReadable
      (if name = "client" then client.seen item
       else if name = "server" then server.seen item
       else if name = "logging" then logging.seen item
       else item)

/-- The configuration of a document. -/
def config (root : Entries) : Except SchemaError Config := do
  let client ← sectionOf root "client" client {}
  let logging ← sectionOf root "logging" logging {}
  let server ← sectionOf root "server" server {}
  pure { client, server, logging }

end Schema

end OneShot
