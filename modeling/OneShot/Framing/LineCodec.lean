import OneShot.Framing.Reader

/-! # Lines without a second look

`Reader.attempt` looks at all bytes held each time. A `LineCodec` keeps in mind how far it has looked
for a newline, and begins there the next time. After a line that was too long it drops all bytes up
to the next newline, for whoever goes on with it.

* `LineCodec.decode`      one attempt
* `LineCodec.decodeEnd`   the attempt at the end of the stream
* `LineCodec.readLine`    a whole stream, up to the first line
-/

namespace OneShot

/-- The bytes held for the line being read, and what is known of them. -/
structure LineCodec where
  held : Bytes := []
  /-- How many of the bytes were looked at without a newline among them. -/
  searched : Nat := 0
  /-- Whether the line was too long, and its rest is to be dropped. -/
  discarding : Bool := false
  deriving Repr, DecidableEq

namespace LineCodec

/-- Where the first newline is within the limit, among the bytes that were not looked at yet. -/
def newline? (limit : Nat) (c : LineCodec) : Option Nat :=
  (Reader.beforeNewline ((c.held.take (limit + 1)).drop c.searched)).map (c.searched + ·.length)

/-- Drops the bytes up to the next newline and says what is behind it, `none` if there is none. -/
def discard (limit : Nat) (c : LineCodec) : Option Bytes :=
  match c.newline? limit with
  | some i => some (c.held.drop (i + 1))
  | none =>
    if c.held.length ≤ limit + 1 then none
    else discard limit { held := c.held.drop (limit + 1), discarding := true }
termination_by c.held.length

/-- Looks for a line; says also how the codec goes on. -/
def look (limit : Nat) (c : LineCodec) : Except ReadError (Option Bytes) × LineCodec :=
  match c.newline? limit with
  | some i => ((Reader.line (c.held.take i)).map some, { held := c.held.drop (i + 1) })
  | none =>
    if limit < c.held.length then (.error (.payloadTooLarge limit), { c with discarding := true })
    else (.ok none, { c with searched := min (limit + 1) c.held.length })

/-- One attempt to decode a line. -/
def decode (limit : Nat) (c : LineCodec) : Except ReadError (Option Bytes) × LineCodec :=
  if c.discarding then
    match discard limit c with
    | some rest => look limit { held := rest }
    | none => (.ok none, { discarding := true })
  else look limit c

/-- The attempt at the end of the stream, where a newline may be missing. -/
def decodeEnd (limit : Nat) (c : LineCodec) : Except ReadError (Option Bytes) :=
  match decode limit c with
  | (.ok none, rest) =>
    if rest.held = [] ∨ rest.held = [0x0D] then .ok none else (Reader.line rest.held).map some
  | (result, _) => result

/-- What the end of the stream comes to. -/
def atEnd (limit : Nat) (c : LineCodec) : Reader.Ending → Reader.Outcome
  | .closed =>
    match decodeEnd limit c with
    | .ok (some content) => .payload content
    | .ok none => .failed .nothingSent
    | .error e => .failed e
  | .silent => .waiting
  | .failed failure => .failed (.transport failure)

/-- Reads the first line of a stream. -/
def readLine (limit : Nat) (ending : Reader.Ending) (c : LineCodec) : List Bytes → Reader.Outcome
  | [] => atEnd limit c ending
  | chunk :: chunks =>
    match decode limit { c with held := c.held ++ chunk } with
    | (.ok (some content), _) => .payload content
    | (.ok none, next) => readLine limit ending next chunks
    | (.error e, _) => .failed e

end LineCodec

end OneShot
