import OneShot.Framing
import OneShot.Json.Skip

/-! # Reading one frame

A `Reader` holds the bytes that have come in for the frame being read. After every read it makes an
attempt: the frame is whole, or more bytes are needed, or no frame can come of it. When the stream
ends, `finish` says whether what is held still counts as a frame.

* `room_pos`              there is always room for another read
* `absorb`                reads a queue of bytes, as much at a time as there is room for
* `absorb_nil`            nothing is read from an empty queue
* `readFrame`             a whole stream, given as the chunks that arrive and how it ends
-/

namespace OneShot

/-- Why no frame was read. -/
inductive ReadError where
  /-- The stream ended and no byte of a frame was held. -/
  | nothingSent
  /-- The stream ended or failed inside a frame. -/
  | midFrame (detail : String)
  | payloadTooLarge (limit : Nat)
  | announcedTooLarge
  | emptyFrame
  | notText
  | transport (failure : Failure)
  deriving Repr, DecidableEq

/-- The failure that callers see. -/
def ReadError.failure : ReadError → Failure
  | .nothingSent => ⟨.unexpectedEnd, "peer closed the connection before sending any data"⟩
  | .midFrame detail => ⟨.unexpectedEnd, "peer closed the connection mid-frame: " ++ detail⟩
  | .payloadTooLarge limit =>
    ⟨.invalidData, "payload exceeds the " ++ toString limit ++ " byte limit"⟩
  | .announcedTooLarge => ⟨.invalidData, "frame size too big"⟩
  | .emptyFrame => ⟨.invalidData, "received zero-length frame"⟩
  | .notText => ⟨.invalidData, "Unable to decode input as UTF8"⟩
  | .transport failure => failure

/-- The bytes held for the frame being read, and its length once the header has been taken off. -/
structure Reader where
  held : Bytes := []
  announced : Option Nat := none
  deriving Repr, DecidableEq

namespace Reader

/-- What an attempt to complete the frame comes to. -/
inductive Progress where
  | frame (payload : Bytes)
  | more (r : Reader)
  | failed (e : ReadError)
  deriving Repr, DecidableEq

/-- A line without the carriage return at its end, if it is text. -/
def line (bs : Bytes) : Except ReadError Bytes :=
  let content := if bs.getLast? == some 0x0D then bs.dropLast else bs
  match Utf8.decode content with
  | .ok _ => .ok content
  | .error _ => .error .notText

/-- The payload that `line` finds. -/
def lineProgress (bs : Bytes) : Progress :=
  match line bs with
  | .ok payload => .frame payload
  | .error e => .failed e

/-- The bytes before the first newline, `none` without one. -/
def beforeNewline (bs : Bytes) : Option Bytes :=
  let before := bs.takeWhile (· != Framing.lineEnd)
  if before.length < bs.length then some before else none

/-- The body of a frame whose length is known. -/
def body (length : Nat) (held : Bytes) : Progress :=
  if held.length < length then .more ⟨held, some length⟩
  else if length = 0 then .failed .emptyFrame
  else .frame (held.take length)

/-- Tries to complete the frame from the bytes held. -/
def attempt (f : Framing) (limit : Nat) (r : Reader) : Progress :=
  match f with
  | .unframed =>
    if limit < r.held.length then .failed (.payloadTooLarge limit)
    else if Json.isPrefix r.held then .more r
    else .frame r.held
  | .newline =>
    match beforeNewline (r.held.take (limit + 1)) with
    | some bs => lineProgress bs
    | none => if limit < r.held.length then .failed (.payloadTooLarge limit) else .more r
  | .lengthPrefixed =>
    match r.announced with
    | some length => body length r.held
    | none =>
      if r.held.length < 4 then .more r
      else
        let length := Framing.ofBigEndian (r.held.take 4)
        if limit < length then .failed .announcedTooLarge else body length (r.held.drop 4)

/-- What the bytes held come to when the stream has ended. -/
def finish (f : Framing) (limit : Nat) (r : Reader) : Except ReadError Bytes :=
  match f with
  | .unframed =>
    if limit < r.held.length then .error (.payloadTooLarge limit)
    else if r.held = [] then .error .nothingSent
    else .ok r.held
  | .newline => if r.held = [] ∨ r.held = [0x0D] then .error .nothingSent else line r.held
  | .lengthPrefixed =>
    if r.held = [] then .error .nothingSent else .error (.midFrame "bytes remaining on stream")

/-- What a failure of the stream comes to. Where the frame has no text of its own, a failure of no
particular kind is reported as an interrupted frame. -/
def interrupted (f : Framing) (failure : Failure) : ReadError :=
  if failure.kind = .other ∧ f ≠ .newline then .midFrame failure.message else .transport failure

/-- The space for bytes that a reader starts with. -/
def initialRoom : Nat := 8192

/-- The space left when `held` bytes are held: it starts at `initialRoom` and doubles when full. -/
def room (held : Nat) : Nat :=
  if held < initialRoom then initialRoom - held
  else initialRoom * Nat.pow 2 (Nat.log2 (held / initialRoom) + 1) - held

theorem room_pos (held : Nat) : 0 < room held := by
  unfold room
  split
  · omega
  · have h : held / initialRoom < Nat.pow 2 (Nat.log2 (held / initialRoom) + 1) :=
      Nat.lt_log2_self
    have := (Nat.div_lt_iff_lt_mul (by decide : 0 < initialRoom)).1 h
    rw [Nat.mul_comm] at this
    omega

/-- What reading a queue comes to, and the bytes that were left in it. -/
structure Absorbed where
  progress : Progress
  unread : Bytes

/-- Reads a queue of bytes as far as the frame goes, as much at a time as there is room for. -/
def absorb (f : Framing) (limit : Nat) (r : Reader) (queue : Bytes) : Absorbed :=
  if _hq : queue = [] then ⟨.more r, []⟩
  else
    let n := room r.held.length
    match attempt f limit { r with held := r.held ++ queue.take n } with
    | .more next => absorb f limit next (queue.drop n)
    | progress => ⟨progress, queue.drop n⟩
termination_by queue.length
decreasing_by
  have := room_pos r.held.length
  have := List.length_pos_iff.2 _hq
  simp only [List.length_drop]
  omega

@[simp] theorem absorb_nil (f : Framing) (limit : Nat) (r : Reader) :
    absorb f limit r [] = ⟨.more r, []⟩ := by
  unfold absorb; simp

/-- How a stream ends. -/
inductive Ending where
  | closed
  /-- Nothing more ever comes. -/
  | silent
  | failed (failure : Failure)
  deriving Repr, DecidableEq

/-- What reading a frame from a whole stream comes to. -/
inductive Outcome where
  | payload (bs : Bytes)
  | failed (e : ReadError)
  /-- The reader waits for bytes that never come. -/
  | waiting
  deriving Repr, DecidableEq

/-- The outcome when all bytes have been read. -/
def atEnd (f : Framing) (limit : Nat) (r : Reader) : Ending → Outcome
  | .closed =>
    match finish f limit r with
    | .ok bs => .payload bs
    | .error e => .failed e
  | .silent => .waiting
  | .failed failure => .failed (interrupted f failure)

/-- Reads one frame from the chunks of a stream, one after the other, and says which bytes were
never read. -/
def readChunks (f : Framing) (limit : Nat) (ending : Ending) (r : Reader) :
    List Bytes → Outcome × Bytes
  | [] => (atEnd f limit r ending, [])
  | chunk :: chunks =>
    match absorb f limit r chunk with
    | ⟨.more r, _⟩ => readChunks f limit ending r chunks
    | ⟨.frame bs, unread⟩ => (.payload bs, unread ++ chunks.flatten)
    | ⟨.failed e, unread⟩ => (.failed e, unread ++ chunks.flatten)

end Reader

/-- Reads one frame from a stream. -/
def Framing.readFrame (f : Framing) (limit : Nat) (chunks : List Bytes) (ending : Reader.Ending) :
    Reader.Outcome :=
  (Reader.readChunks f limit ending {} chunks).1

end OneShot
