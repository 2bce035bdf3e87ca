import OneShot.Json.Byte

/-! # Strings

`StringBody.scan` reads the bytes of a string up to the closing quote and resolves the escapes;
`StringBody.read` also decodes them. In the other direction `StringBody.encode` spells a text with
the shortest escapes, so that no byte below 0x20 is left in it.

* `fourDigits_length`   a numeric escape takes four bytes
* `read_length_lt`      reading a string takes at least the closing quote
-/

namespace OneShot.Json.StringBody

/-- Takes the four hexadecimal digits of a numeric escape. Fewer than four bytes are an unfinished
string, whatever they are. -/
def fourDigits : Bytes → Result Nat
  | a :: b :: c :: d :: rest =>
    match hexValue? a, hexValue? b, hexValue? c, hexValue? d with
    | some a, some b, some c, some d => .ok (((a * 16 + b) * 16 + c) * 16 + d, rest)
    | _, _, _, _ => .error ⟨.invalidEscape, rest, 0⟩
  | _ => .error ⟨.endInString, [], 0⟩

theorem fourDigits_length {bs rest : Bytes} {n : Nat} (h : fourDigits bs = .ok (n, rest)) :
    bs.length = rest.length + 4 := by
  unfold fourDigits at h
  split at h
  · split at h
    · cases h; rfl
    · cases h
  · cases h

/-- Takes one expected byte inside a surrogate pair. -/
def pairByte (wanted : UInt8) : Bytes → Except Fault Bytes
  | [] => .error ⟨.endInString, [], 0⟩
  | b :: rest => if b == wanted then .ok rest else .error ⟨.unfinishedSurrogatePair, rest, 0⟩

theorem pairByte_length {wanted : UInt8} {bs rest : Bytes} (h : pairByte wanted bs = .ok rest) :
    bs.length = rest.length + 1 := by
  cases bs with
  | nil => cases h
  | cons b bs =>
    simp only [pairByte] at h
    split at h <;> cases h
    rfl

/-- The second half of a surrogate pair, after the leading surrogate `high`. -/
def trailing (high : Nat) (bs : Bytes) : Except Fault (Char × Bytes) := do
  let afterBackslash ← pairByte backslash bs
  let afterLetter ← pairByte 0x75 afterBackslash
  let (low, rest) ← fourDigits afterLetter
  if low < 0xDC00 ∨ 0xDFFF < low then throw ⟨.loneSurrogate, rest, 0⟩
  pure (Char.ofNat (0x10000 + (high - 0xD800) * 0x400 + (low - 0xDC00)), rest)

theorem trailing_length {high : Nat} {bs rest : Bytes} {c : Char}
    (h : trailing high bs = .ok (c, rest)) : rest.length < bs.length := by
  cases h₁ : pairByte backslash bs with
  | error f => simp [trailing, h₁, bind, Except.bind] at h
  | ok r₁ =>
    cases h₂ : pairByte 0x75 r₁ with
    | error f => simp [trailing, h₁, h₂, bind, Except.bind] at h
    | ok r₂ =>
      cases h₃ : fourDigits r₂ with
      | error f => simp [trailing, h₁, h₂, h₃, bind, Except.bind] at h
      | ok p =>
        obtain ⟨low, r₃⟩ := p
        have l₁ := pairByte_length h₁
        have l₂ := pairByte_length h₂
        have l₃ := fourDigits_length h₃
        simp only [trailing, h₁, h₂, h₃, bind, Except.bind] at h
        split at h
        · cases h
        · simp only [pure, Except.pure, Except.ok.injEq, Prod.mk.injEq] at h
          obtain ⟨-, rfl⟩ := h
          omega

/-- The numeric escape after its `u`. A leading surrogate needs a trailing one in a second
escape. -/
def numeric (bs : Bytes) : Result Char :=
  match fourDigits bs with
  | .error f => .error f
  | .ok (n, rest) =>
    if n < 0xD800 ∨ 0xDFFF < n then .ok (Char.ofNat n, rest)
    else if 0xDC00 ≤ n then .error ⟨.loneSurrogate, rest, 0⟩
    else trailing n rest

theorem numeric_length {bs rest : Bytes} {c : Char} (h : numeric bs = .ok (c, rest)) :
    rest.length < bs.length := by
  simp only [numeric] at h
  split at h
  · cases h
  next heq =>
    have := fourDigits_length heq
    split at h
    · cases h; omega
    · split at h
      · cases h
      · have := trailing_length h; omega

/-- The character of an escape of one letter. -/
def simple? (b : UInt8) : Option Char :=
  if b == quoteByte then some '"'
  else if b == backslash then some '\\'
  else if b == 0x2F then some '/'
  else if b == 0x62 then some '\x08'
  else if b == 0x66 then some '\x0c'
  else if b == 0x6E then some '\n'
  else if b == 0x72 then some '\r'
  else if b == 0x74 then some '\t'
  else none

/-- The escape after its backslash. -/
def escape : Bytes → Result Char
  | [] => .error ⟨.endInString, [], 0⟩
  | b :: rest =>
    if b == 0x75 then numeric rest
    else match simple? b with
      | some c => .ok (c, rest)
      | none => .error ⟨.invalidEscape, rest, 0⟩

theorem escape_length {bs rest : Bytes} {c : Char} (h : escape bs = .ok (c, rest)) :
    rest.length < bs.length := by
  cases bs with
  | nil => cases h
  | cons b bs =>
    simp only [escape] at h
    split at h
    · exact Nat.lt_succ_of_lt (numeric_length h)
    · split at h
      · cases h; exact Nat.lt_succ_self _
      · cases h

/-- The unescaped bytes up to the closing quote, after those in `done`, last first. -/
def scan (done : Bytes) : Bytes → Result Bytes
  | [] => .error ⟨.endInString, [], 0⟩
  | b :: bs =>
    if b == quoteByte then .ok (done.reverse, bs)
    else if b == backslash then
      match _h : escape bs with
      | .ok (c, rest) => scan ((Utf8.encodeChar c).reverse ++ done) rest
      | .error f => .error f
    else if isControl b then .error ⟨.controlCharacter, bs, 0⟩
    else scan (b :: done) bs
termination_by bs => bs.length
decreasing_by
  · have := escape_length _h; simp only [List.length_cons]; omega
  · simp

/-- The text up to the closing quote. Bytes that are no text are placed where they start, counted
back from the closing quote in unescaped bytes. -/
def read (bs : Bytes) : Result String :=
  match scan [] bs with
  | .error f => .error f
  | .ok (content, rest) =>
    match Utf8.decodeString content with
    | .ok text => .ok (text, rest)
    | .error f => .error ⟨.invalidCodePoint, rest, content.length - f.validUpTo⟩

theorem scan_length_lt {done bs content rest : Bytes} (h : scan done bs = .ok (content, rest)) :
    rest.length < bs.length := by
  fun_induction scan done bs with
  | case1 => cases h
  | case2 => cases h; exact Nat.lt_succ_self _
  | case3 done b bs _ _ c rest' he ih => have := escape_length he; have := ih h; simp; omega
  | case4 => cases h
  | case5 => cases h
  | case6 done b bs _ _ _ ih => exact Nat.lt_succ_of_lt (ih h)

theorem read_length_lt {bs rest : Bytes} {text : String} (h : read bs = .ok (text, rest)) :
    rest.length < bs.length := by
  simp only [read] at h
  split at h
  · cases h
  next heq =>
    split at h <;> cases h
    exact scan_length_lt heq

/-- A hexadecimal digit in lower case. -/
def hexDigit (n : Nat) : UInt8 := if n < 10 then (0x30 + n).toUInt8 else (0x61 + n - 10).toUInt8

/-- The spelling of one character. -/
def encodeChar (c : Char) : Bytes :=
  match c with
  | '"' => [backslash, quoteByte]
  | '\\' => [backslash, backslash]
  | '\x08' => [backslash, 0x62]
  | '\x0c' => [backslash, 0x66]
  | '\n' => [backslash, 0x6E]
  | '\r' => [backslash, 0x72]
  | '\t' => [backslash, 0x74]
  | c =>
    if c.toNat < 0x20 then
      [backslash, 0x75, 0x30, 0x30, hexDigit (c.toNat / 16), hexDigit (c.toNat % 16)]
    else Utf8.encodeChar c

/-- The spelling of a text between the quotes. -/
def encode (text : List Char) : Bytes := text.flatMap encodeChar

end OneShot.Json.StringBody
