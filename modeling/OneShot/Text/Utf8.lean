/-! # UTF-8

Bytes are lists of `UInt8` throughout the library, text is a list of characters, and this file
carries one to the other. `encode` writes one to four bytes for each character. `decode` accepts
exactly the well-formed sequences and otherwise reports the first fault: where the faulty character
starts, and how long its ill-formed part is, or that the bytes end inside it.

* `encode_append`       encoding distributes over `++`
* `head_length_lt`      taking a character off the front shortens the bytes
-/

namespace OneShot

/-- A run of bytes. -/
abbrev Bytes := List UInt8

namespace Utf8

/-- The bytes of one character. -/
def encodeChar (c : Char) : Bytes :=
  let n := c.toNat
  if n < 0x80 then [n.toUInt8]
  else if n < 0x800 then [(0xC0 + n / 0x40).toUInt8, (0x80 + n % 0x40).toUInt8]
  else if n < 0x10000 then
    [(0xE0 + n / 0x1000).toUInt8, (0x80 + n / 0x40 % 0x40).toUInt8, (0x80 + n % 0x40).toUInt8]
  else
    [(0xF0 + n / 0x40000).toUInt8, (0x80 + n / 0x1000 % 0x40).toUInt8,
      (0x80 + n / 0x40 % 0x40).toUInt8, (0x80 + n % 0x40).toUInt8]

/-- The number of bytes of one character. -/
def width (c : Char) : Nat :=
  let n := c.toNat
  if n < 0x80 then 1 else if n < 0x800 then 2 else if n < 0x10000 then 3 else 4

/-- The bytes of a text. -/
def encode (text : List Char) : Bytes := text.flatMap encodeChar

@[simp] theorem encode_nil : encode [] = [] := rfl

@[simp] theorem encode_cons (c : Char) (text : List Char) :
    encode (c :: text) = encodeChar c ++ encode text := rfl

theorem encode_append (a b : List Char) : encode (a ++ b) = encode a ++ encode b := by
  simp [encode]

/-- What stands at the front of a run of bytes. -/
inductive Head where
  /-- A whole character, and the bytes after it. -/
  | char (c : Char) (rest : Bytes)
  /-- An ill-formed character whose first `length` bytes can be given up together. -/
  | invalid (length : Nat)
  /-- The start of a character, cut off by the end of the bytes. -/
  | truncated
  deriving Repr, DecidableEq

/-- Reads the `owed` bytes that a character still lacks. The next of them lies in `low..high`, any
later one in `0x80..0xBF`; `value` holds the bits read so far and `seen` counts the bytes. -/
def continuation : (owed low high value seen : Nat) → Bytes → Head
  | 0, _, _, value, _, rest => .char (Char.ofNat value) rest
  | _ + 1, _, _, _, _, [] => .truncated
  | owed + 1, low, high, value, seen, b :: rest =>
    if low ≤ b.toNat ∧ b.toNat ≤ high then
      continuation owed 0x80 0xBF (value * 0x40 + b.toNat % 0x40) (seen + 1) rest
    else .invalid seen

/-- The character that starts with byte `b`. The range of the second byte excludes overlong forms,
surrogates and values above U+10FFFF. -/
def head (b : UInt8) (rest : Bytes) : Head :=
  let n := b.toNat
  if n < 0x80 then .char (Char.ofNat n) rest
  else if n < 0xC2 then .invalid 1
  else if n < 0xE0 then continuation 1 0x80 0xBF (n % 0x20) 1 rest
  else if n < 0xF0 then
    continuation 2 (if n = 0xE0 then 0xA0 else 0x80) (if n = 0xED then 0x9F else 0xBF)
      (n % 0x10) 1 rest
  else if n < 0xF5 then
    continuation 3 (if n = 0xF0 then 0x90 else 0x80) (if n = 0xF4 then 0x8F else 0xBF)
      (n % 0x08) 1 rest
  else .invalid 1

theorem continuation_length_le {owed low high value seen : Nat} {bs : Bytes} {c : Char}
    {rest : Bytes} (h : continuation owed low high value seen bs = .char c rest) :
    rest.length ≤ bs.length := by
  induction owed generalizing low high value seen bs with
  | zero => simp_all [continuation]
  | succ owed ih =>
    cases bs with
    | nil => simp [continuation] at h
    | cons b bs =>
      simp only [continuation] at h
      split at h
      · exact Nat.le_succ_of_le (ih h)
      · cases h

/-- Taking a character off the front shortens the bytes. -/
theorem head_length_lt {b : UInt8} {bs rest : Bytes} {c : Char} (h : head b bs = .char c rest) :
    rest.length < (b :: bs).length := by
  simp only [List.length_cons, Nat.lt_succ_iff]
  simp only [head] at h
  repeat' split at h
  all_goals first
    | exact continuation_length_le h
    | (cases h; exact Nat.le_refl _)
    | cases h

/-- Why bytes are no text. -/
structure Fault where
  /-- The bytes before the faulty character. -/
  validUpTo : Nat
  /-- The length of its ill-formed part, `none` if the bytes end inside it. -/
  length : Option Nat
  deriving Repr, DecidableEq

/-- The wording of a fault. -/
def Fault.message (f : Fault) : String :=
  match f.length with
  | some n => s!"invalid utf-8 sequence of {n} bytes from index {f.validUpTo}"
  | none => s!"incomplete utf-8 byte sequence from index {f.validUpTo}"

/-- Decodes from byte offset `start` on, with the characters before it in `done`, last first. -/
def decodeFrom (start : Nat) (done : List Char) : Bytes → Except Fault (List Char)
  | [] => .ok done.reverse
  | b :: bs =>
    match _h : head b bs with
    | .char c rest => decodeFrom (start + width c) (c :: done) rest
    | .invalid n => .error ⟨start, some n⟩
    | .truncated => .error ⟨start, none⟩
termination_by bs => bs.length
decreasing_by exact head_length_lt _h

/-- The text that the bytes spell, or the first fault in them. -/
def decode (bs : Bytes) : Except Fault (List Char) := decodeFrom 0 [] bs

@[simp] theorem decode_nil : decode [] = .ok [] := by simp [decode, decodeFrom]

/-- The bytes of a string. -/
def encodeString (s : String) : Bytes := encode s.toList

/-- The string that the bytes spell, or the first fault in them. -/
def decodeString (bs : Bytes) : Except Fault String := (decode bs).map String.ofList

/-- Decodes with U+FFFD for each ill-formed part, so that every run of bytes can be shown. -/
def decodeLossy : Bytes → List Char
  | [] => []
  | b :: bs =>
    match h : head b bs with
    | .char c rest => c :: decodeLossy rest
    | .invalid n => Char.ofNat 0xFFFD :: decodeLossy (bs.drop (n - 1))
    | .truncated => [Char.ofNat 0xFFFD]
termination_by bs => bs.length
decreasing_by
  · exact head_length_lt h
  · simp only [List.length_drop, List.length_cons]; omega

end Utf8

end OneShot
