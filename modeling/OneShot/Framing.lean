import OneShot.Failure
import OneShot.Text.Quoted
import OneShot.Text.Utf8

/-! # Framing

How the end of a payload is found on a stream of bytes: by the payload itself, which is one JSON
value, by a newline after it, or by its length before it.

* `parse_name`             the names are read back
* `Framing.encode`         the bytes of one frame
* `bigEndian_length`       a length takes four bytes
-/

namespace OneShot

/-- The ways to mark the end of a payload. -/
inductive Framing where
  /-- The payload alone. -/
  | unframed
  /-- The payload and a newline. -/
  | newline
  /-- The length of the payload in four bytes, the high one first, then the payload. -/
  | lengthPrefixed
  deriving Repr, DecidableEq

namespace Framing

/-- The name in configurations. -/
def name : Framing → String
  | .unframed => "unframed"
  | .newline => "newline"
  | .lengthPrefixed => "length-prefixed"

def all : List Framing := [.unframed, .newline, .lengthPrefixed]

/-- The framing used where none is named. -/
def standard : Framing := .unframed

/-- The framing with a name. -/
def ofName? (s : String) : Option Framing := all.find? (·.name == s)

theorem ofName?_name (f : Framing) : ofName? f.name = some f := by cases f <;> decide

end Framing

/-- A name that no framing has. -/
structure UnknownFraming where
  name : String
  deriving Repr, DecidableEq

/-- The wording for an unknown name. -/
def UnknownFraming.message (e : UnknownFraming) : String :=
  "unknown framing mode " ++ Text.quote e.name ++
    ", expected \"unframed\", \"newline\" or \"length-prefixed\""

namespace Framing

/-- The framing with a name, or the name. -/
def parse (s : String) : Except UnknownFraming Framing :=
  match ofName? s with
  | some f => .ok f
  | none => .error ⟨s⟩

theorem parse_name (f : Framing) : parse f.name = .ok f := by simp [parse, ofName?_name]

/-- The greatest length that four bytes hold. -/
def greatestLength : Nat := 0xFFFFFFFF

/-- A number in four bytes, the high one first. -/
def bigEndian (n : Nat) : Bytes :=
  [(n / 0x1000000).toUInt8, (n / 0x10000).toUInt8, (n / 0x100).toUInt8, n.toUInt8]

@[simp] theorem bigEndian_length (n : Nat) : (bigEndian n).length = 4 := rfl

/-- The number that bytes stand for, the high one first. -/
def ofBigEndian (bs : Bytes) : Nat := bs.foldl (fun n b => n * 256 + b.toNat) 0

/-- The byte after a payload that is framed as a line. -/
def lineEnd : UInt8 := 0x0A

/-- Why a payload cannot be framed. -/
inductive EncodeError where
  /-- A line has to be text. -/
  | notText (fault : Utf8.Fault)
  | tooLong
  deriving Repr, DecidableEq

def EncodeError.failure : EncodeError → Failure
  | .notText fault => ⟨.invalidInput, fault.message⟩
  | .tooLong => ⟨.invalidInput, "frame size too big"⟩

/-- The frame of a payload. -/
def encode (f : Framing) (payload : Bytes) : Except EncodeError Bytes :=
  match f with
  | .unframed => .ok payload
  | .newline =>
    match Utf8.decode payload with
    | .ok _ => .ok (payload ++ [lineEnd])
    | .error fault => .error (.notText fault)
  | .lengthPrefixed =>
    if payload.length ≤ greatestLength then .ok (bigEndian payload.length ++ payload)
    else .error .tooLong

end Framing

end OneShot
