import OneShot.Text.Utf8

/-!
# Decoding UTF-8

`Utf8.decode` inverts `Utf8.encode`: each character is read off the front of its own bytes, whatever
follows them, and so a text is read back one character at a time. In the other direction only the
bytes of a text are read as one, so that bytes spell at most one text and a text has one spelling.

## Key results

- `head_encodeChar`, `encodeChar_of_head`: a character is read from its own bytes and no others
- `decode_encode`: the bytes of a text are read back as that text
- `decode_eq_ok_iff`: no other bytes are
- `decodeString_eq_ok_iff`: the same for strings
-/

namespace OneShot.Utf8

/-! ### One character -/

/-- A character is a scalar value: it is no surrogate and at most U+10FFFF. -/
private theorem toNat_isScalar (c : Char) :
    c.toNat < 0xD800 ∨ (0xDFFF < c.toNat ∧ c.toNat < 0x110000) :=
  c.valid

/-- Reading one byte that lies in the expected range takes its six low bits. -/
private theorem continuation_cons (owed low high value seen : Nat) (b : UInt8) (rest : Bytes)
    (hlow : low ≤ b.toNat) (hhigh : b.toNat ≤ high) :
    continuation (owed + 1) low high value seen (b :: rest) =
      continuation owed 0x80 0xBF (value * 0x40 + b.toNat % 0x40) (seen + 1) rest := by
  simp only [continuation, if_pos (And.intro hlow hhigh)]

/-- A byte made from a small number has that number as its value. -/
theorem toNat_toUInt8 (n : Nat) (h : n < 0x100) : n.toUInt8.toNat = n :=
  UInt8.toNat_ofNat_of_lt h

/-- A character below U+0080 is read from its single byte. -/
private theorem head_ascii (c : Char) (rest : Bytes) (h : c.toNat < 0x80) :
    head c.toNat.toUInt8 rest = .char c rest := by
  have hb := toNat_toUInt8 c.toNat (by omega)
  simp only [head, hb, if_pos h, Char.ofNat_toNat]

/-- A character from U+0080 to U+07FF is read from its two bytes. -/
private theorem head_two (c : Char) (rest : Bytes) (hlow : 0x80 ≤ c.toNat)
    (hhigh : c.toNat < 0x800) :
    head (0xC0 + c.toNat / 0x40).toUInt8 ((0x80 + c.toNat % 0x40).toUInt8 :: rest) =
      .char c rest := by
  have hlead := toNat_toUInt8 (0xC0 + c.toNat / 0x40) (by omega)
  have hlast := toNat_toUInt8 (0x80 + c.toNat % 0x40) (by omega)
  simp only [head, hlead]
  rw [if_neg (by omega), if_neg (by omega), if_pos (by omega),
    continuation_cons _ _ _ _ _ _ _ (by omega) (by omega)]
  -- the bits that were read make up the number of the character
  have hvalue : (0xC0 + c.toNat / 0x40) % 0x20 * 0x40 +
      (0x80 + c.toNat % 0x40).toUInt8.toNat % 0x40 = c.toNat := by omega
  simp only [continuation, hvalue, Char.ofNat_toNat]

/-- A character from U+0800 to U+FFFF is read from its three bytes. -/
private theorem head_three (c : Char) (rest : Bytes) (hlow : 0x800 ≤ c.toNat)
    (hhigh : c.toNat < 0x10000) :
    head (0xE0 + c.toNat / 0x1000).toUInt8 ((0x80 + c.toNat / 0x40 % 0x40).toUInt8 ::
      (0x80 + c.toNat % 0x40).toUInt8 :: rest) = .char c rest := by
  -- the number is no surrogate, which the range of the second byte asks for
  have hscalar := toNat_isScalar c
  have hlead := toNat_toUInt8 (0xE0 + c.toNat / 0x1000) (by omega)
  have hmiddle := toNat_toUInt8 (0x80 + c.toNat / 0x40 % 0x40) (by omega)
  have hlast := toNat_toUInt8 (0x80 + c.toNat % 0x40) (by omega)
  simp only [head, hlead]
  rw [if_neg (by omega), if_neg (by omega), if_neg (by omega), if_pos (by omega),
    continuation_cons _ _ _ _ _ _ _ (by split <;> omega) (by split <;> omega),
    continuation_cons _ _ _ _ _ _ _ (by omega) (by omega)]
  -- the six bits of each byte behind the first, put together
  have hvalue : ((0xE0 + c.toNat / 0x1000) % 0x10 * 0x40 +
      (0x80 + c.toNat / 0x40 % 0x40).toUInt8.toNat % 0x40) * 0x40 +
      (0x80 + c.toNat % 0x40).toUInt8.toNat % 0x40 = c.toNat := by omega
  simp only [continuation, hvalue, Char.ofNat_toNat]

/-- A character from U+10000 on is read from its four bytes. -/
private theorem head_four (c : Char) (rest : Bytes) (hlow : 0x10000 ≤ c.toNat) :
    head (0xF0 + c.toNat / 0x40000).toUInt8 ((0x80 + c.toNat / 0x1000 % 0x40).toUInt8 ::
      (0x80 + c.toNat / 0x40 % 0x40).toUInt8 :: (0x80 + c.toNat % 0x40).toUInt8 :: rest) =
      .char c rest := by
  -- at most U+10FFFF, which bounds the first two bytes
  have hscalar := toNat_isScalar c
  have hlead := toNat_toUInt8 (0xF0 + c.toNat / 0x40000) (by omega)
  have hsecond := toNat_toUInt8 (0x80 + c.toNat / 0x1000 % 0x40) (by omega)
  have hthird := toNat_toUInt8 (0x80 + c.toNat / 0x40 % 0x40) (by omega)
  have hlast := toNat_toUInt8 (0x80 + c.toNat % 0x40) (by omega)
  simp only [head, hlead]
  rw [if_neg (by omega), if_neg (by omega), if_neg (by omega), if_neg (by omega),
    if_pos (by omega),
    continuation_cons _ _ _ _ _ _ _ (by split <;> omega) (by split <;> omega),
    continuation_cons _ _ _ _ _ _ _ (by omega) (by omega),
    continuation_cons _ _ _ _ _ _ _ (by omega) (by omega)]
  -- the bits of the four bytes, put together
  have hvalue : (((0xF0 + c.toNat / 0x40000) % 0x08 * 0x40 +
      (0x80 + c.toNat / 0x1000 % 0x40).toUInt8.toNat % 0x40) * 0x40 +
      (0x80 + c.toNat / 0x40 % 0x40).toUInt8.toNat % 0x40) * 0x40 +
      (0x80 + c.toNat % 0x40).toUInt8.toNat % 0x40 = c.toNat := by omega
  simp only [continuation, hvalue, Char.ofNat_toNat]

/-- The bytes of a character are read back as that character, whatever follows them. -/
theorem head_encodeChar (c : Char) (rest : Bytes) :
    ∃ b tail, encodeChar c = b :: tail ∧ head b (tail ++ rest) = .char c rest := by
  simp only [encodeChar]
  -- one, two, three or four bytes
  split
  · rename_i h
    exact ⟨_, _, rfl, head_ascii c rest h⟩
  · split
    · exact ⟨_, _, rfl, head_two c rest (by omega) (by omega)⟩
    · split
      · exact ⟨_, _, rfl, head_three c rest (by omega) (by omega)⟩
      · exact ⟨_, _, rfl, head_four c rest (by omega)⟩

/-- What the bytes after the first one of a character have to be. -/
private theorem exists_of_continuation_succ (owed low high value seen : Nat) (bs rest : Bytes)
    (c : Char) (h : continuation (owed + 1) low high value seen bs = .char c rest) :
    ∃ b tail, bs = b :: tail ∧ low ≤ b.toNat ∧ b.toNat ≤ high ∧
      continuation owed 0x80 0xBF (value * 0x40 + b.toNat % 0x40) (seen + 1) tail =
        .char c rest := by
  cases bs with
  | nil => cases h
  | cons b tail =>
    simp only [continuation] at h
    split at h
    · rename_i hrange
      exact ⟨b, tail, rfl, hrange.1, hrange.2, h⟩
    · cases h

/-- The character that a scalar value stands for has that value. -/
theorem toNat_ofNat (n : Nat)
    (h : n < 0xD800 ∨ (0xDFFF < n ∧ n < 0x110000)) : (Char.ofNat n).toNat = n := by
  have hvalid : n.isValidChar := h
  exact congrArg Char.toNat (dif_pos hvalid)

/-- A byte is made from its value. -/
private theorem toUInt8_eq_of_toNat (n : Nat) (b : UInt8) (h : n = b.toNat) : n.toUInt8 = b := by
  rw [h, Nat.toUInt8, UInt8.ofNat_toNat]

/-- Two bytes in their ranges are those of the character that they are read as. -/
private theorem encodeChar_two (b b₂ : UInt8) (hlead : 0xC2 ≤ b.toNat ∧ b.toNat < 0xE0)
    (h₂ : 0x80 ≤ b₂.toNat ∧ b₂.toNat ≤ 0xBF) :
    encodeChar (Char.ofNat (b.toNat % 0x20 * 0x40 + b₂.toNat % 0x40)) = [b, b₂] := by
  have hc := toNat_ofNat (b.toNat % 0x20 * 0x40 + b₂.toNat % 0x40) (by omega)
  simp only [encodeChar, hc]
  rw [if_neg (by omega), if_pos (by omega), toUInt8_eq_of_toNat _ b (by omega),
    toUInt8_eq_of_toNat _ b₂ (by omega)]

/-- Three bytes in their ranges are those of the character that they are read as. -/
private theorem encodeChar_three (b b₂ b₃ : UInt8) (hlead : 0xE0 ≤ b.toNat ∧ b.toNat < 0xF0)
    (hlow : (if b.toNat = 0xE0 then 0xA0 else 0x80) ≤ b₂.toNat)
    (hhigh : b₂.toNat ≤ if b.toNat = 0xED then 0x9F else 0xBF)
    (h₃ : 0x80 ≤ b₃.toNat ∧ b₃.toNat ≤ 0xBF) :
    encodeChar (Char.ofNat ((b.toNat % 0x10 * 0x40 + b₂.toNat % 0x40) * 0x40 +
      b₃.toNat % 0x40)) = [b, b₂, b₃] := by
  -- the narrower ranges keep overlong spellings and surrogates out
  have hlow' : 0x80 ≤ b₂.toNat ∧ (b.toNat = 0xE0 → 0xA0 ≤ b₂.toNat) := by
    split at hlow <;> omega
  have hhigh' : b₂.toNat ≤ 0xBF ∧ (b.toNat = 0xED → b₂.toNat ≤ 0x9F) := by
    split at hhigh <;> omega
  -- the number is that of a character
  have hc := toNat_ofNat
    ((b.toNat % 0x10 * 0x40 + b₂.toNat % 0x40) * 0x40 + b₃.toNat % 0x40) (by omega)
  simp only [encodeChar, hc]
  rw [if_neg (by omega), if_neg (by omega), if_pos (by omega),
    toUInt8_eq_of_toNat _ b (by omega), toUInt8_eq_of_toNat _ b₂ (by omega),
    toUInt8_eq_of_toNat _ b₃ (by omega)]

/-- Four bytes in their ranges are those of the character that they are read as. -/
private theorem encodeChar_four (b b₂ b₃ b₄ : UInt8) (hlead : 0xF0 ≤ b.toNat ∧ b.toNat < 0xF5)
    (hlow : (if b.toNat = 0xF0 then 0x90 else 0x80) ≤ b₂.toNat)
    (hhigh : b₂.toNat ≤ if b.toNat = 0xF4 then 0x8F else 0xBF)
    (h₃ : 0x80 ≤ b₃.toNat ∧ b₃.toNat ≤ 0xBF) (h₄ : 0x80 ≤ b₄.toNat ∧ b₄.toNat ≤ 0xBF) :
    encodeChar (Char.ofNat (((b.toNat % 0x08 * 0x40 + b₂.toNat % 0x40) * 0x40 +
      b₃.toNat % 0x40) * 0x40 + b₄.toNat % 0x40)) = [b, b₂, b₃, b₄] := by
  -- the narrower ranges keep overlong spellings and numbers beyond the last one out
  have hlow' : 0x80 ≤ b₂.toNat ∧ (b.toNat = 0xF0 → 0x90 ≤ b₂.toNat) := by
    split at hlow <;> omega
  have hhigh' : b₂.toNat ≤ 0xBF ∧ (b.toNat = 0xF4 → b₂.toNat ≤ 0x8F) := by
    split at hhigh <;> omega
  -- the number is that of a character
  have hc := toNat_ofNat
    (((b.toNat % 0x08 * 0x40 + b₂.toNat % 0x40) * 0x40 + b₃.toNat % 0x40) * 0x40 +
      b₄.toNat % 0x40) (by omega)
  simp only [encodeChar, hc]
  rw [if_neg (by omega), if_neg (by omega), if_neg (by omega),
    toUInt8_eq_of_toNat _ b (by omega), toUInt8_eq_of_toNat _ b₂ (by omega),
    toUInt8_eq_of_toNat _ b₃ (by omega), toUInt8_eq_of_toNat _ b₄ (by omega)]

/-- Only the bytes of a character are read as that character. -/
theorem encodeChar_of_head (b : UInt8) (bs rest : Bytes) (c : Char)
    (h : head b bs = .char c rest) : b :: bs = encodeChar c ++ rest := by
  simp only [head] at h
  -- one branch for each number of bytes; in the refused ranges there is no character
  split at h
  · obtain ⟨rfl, rfl⟩ := h
    have hc := toNat_ofNat b.toNat (by omega)
    simp only [encodeChar, hc]
    -- one byte
    rw [if_pos (by omega), toUInt8_eq_of_toNat b.toNat b rfl, List.singleton_append]
  split at h
  · cases h
  split at h
  · obtain ⟨b₂, tail, rfl, hlow, hhigh, h⟩ := exists_of_continuation_succ _ _ _ _ _ _ _ _ h
    obtain ⟨rfl, rfl⟩ := h
    -- two bytes
    rw [encodeChar_two b b₂ (by omega) ⟨hlow, hhigh⟩]
    rfl
  split at h
  · obtain ⟨b₂, tail, rfl, hlow, hhigh, h⟩ := exists_of_continuation_succ _ _ _ _ _ _ _ _ h
    obtain ⟨b₃, tail, rfl, hlow₃, hhigh₃, h⟩ := exists_of_continuation_succ _ _ _ _ _ _ _ _ h
    obtain ⟨rfl, rfl⟩ := h
    -- three bytes
    rw [encodeChar_three b b₂ b₃ (by omega) hlow hhigh ⟨hlow₃, hhigh₃⟩]
    rfl
  split at h
  · obtain ⟨b₂, tail, rfl, hlow, hhigh, h⟩ := exists_of_continuation_succ _ _ _ _ _ _ _ _ h
    obtain ⟨b₃, tail, rfl, hlow₃, hhigh₃, h⟩ := exists_of_continuation_succ _ _ _ _ _ _ _ _ h
    obtain ⟨b₄, tail, rfl, hlow₄, hhigh₄, h⟩ := exists_of_continuation_succ _ _ _ _ _ _ _ _ h
    obtain ⟨rfl, rfl⟩ := h
    -- four bytes
    rw [encodeChar_four b b₂ b₃ b₄ (by omega) hlow hhigh ⟨hlow₃, hhigh₃⟩ ⟨hlow₄, hhigh₄⟩]
    rfl
  · cases h

/-- A character below U+0080 is its own byte. -/
theorem encodeChar_of_lt (c : Char) (h : c.toNat < 0x80) :
    encodeChar c = [c.toNat.toUInt8] := by
  rw [encodeChar, if_pos h]

/-- All bytes of a character from U+0080 on lie from 0x80 on. -/
theorem le_toNat_of_mem_encodeChar (c : Char) (h : 0x80 ≤ c.toNat) (b : UInt8)
    (hb : b ∈ encodeChar c) : 0x80 ≤ b.toNat := by
  have hscalar := toNat_isScalar c
  simp only [encodeChar, if_neg (Nat.not_lt.mpr h)] at hb
  -- a leading byte has its first bit, and so have those behind it
  split at hb
  · simp only [List.mem_cons, List.not_mem_nil, or_false] at hb
    rcases hb with rfl | rfl <;> rw [toNat_toUInt8 _ (by omega)] <;> omega
  · split at hb
    · simp only [List.mem_cons, List.not_mem_nil, or_false] at hb
      rcases hb with rfl | rfl | rfl <;> rw [toNat_toUInt8 _ (by omega)] <;> omega
    · simp only [List.mem_cons, List.not_mem_nil, or_false] at hb
      rcases hb with rfl | rfl | rfl | rfl <;> rw [toNat_toUInt8 _ (by omega)] <;> omega

/-! ### A text -/

/-- Decoding takes the bytes of a character off the front. -/
private theorem decodeFrom_encodeChar (start : Nat) (done : List Char) (c : Char) (rest : Bytes) :
    decodeFrom start done (encodeChar c ++ rest) =
      decodeFrom (start + width c) (c :: done) rest := by
  obtain ⟨b, tail, henc, hhead⟩ := head_encodeChar c rest
  rw [henc, List.cons_append, decodeFrom]
  -- the first character is the encoded one, so the other two branches do not apply
  split
  · rename_i heq
    rw [hhead] at heq
    obtain ⟨rfl, rfl⟩ := heq
    rfl
  · rename_i heq
    rw [hhead] at heq
    cases heq
  · rename_i heq
    rw [hhead] at heq
    cases heq

/-- Decoding the bytes of a text adds its characters to those read before. -/
private theorem decodeFrom_encode (start : Nat) (done text : List Char) :
    decodeFrom start done (encode text) = .ok (done.reverse ++ text) := by
  -- induction on the text: each character goes to the front of `done`
  induction text generalizing start done with
  | nil => simp only [encode_nil, decodeFrom, List.append_nil]
  | cons c text ih =>
    rw [encode_cons, decodeFrom_encodeChar, ih]
    simp only [List.reverse_cons, List.append_assoc, List.singleton_append]

/-- The bytes of a text are read back as that text. -/
@[simp] theorem decode_encode (text : List Char) : decode (encode text) = .ok text := by
  rw [decode, decodeFrom_encode, List.reverse_nil, List.nil_append]

/-- What is decoded are the characters read before and those that the bytes spell. -/
private theorem encode_of_decodeFrom (start : Nat) (done text : List Char) (bs : Bytes)
    (h : decodeFrom start done bs = .ok text) : encode text = encode done.reverse ++ bs := by
  -- one case for each way a character is read; the faulty ones give no text
  fun_induction decodeFrom start done bs with
  | case1 start done =>
    obtain rfl := Except.ok.inj h
    rw [List.append_nil]
  -- the bytes of the character are those that were read
  | case2 start done b bs c rest hhead ih =>
    rw [ih h, List.reverse_cons, encode_append, List.append_assoc,
      encodeChar_of_head b bs rest c hhead]
    simp only [encode_cons, encode_nil, List.append_nil]
  | case3 => cases h
  | case4 => cases h

/-- Bytes are read as a text exactly if they are its bytes. -/
theorem decode_eq_ok_iff (bs : Bytes) (text : List Char) :
    decode bs = .ok text ↔ bs = encode text := by
  constructor
  · intro h
    have := encode_of_decodeFrom 0 [] text bs h
    rw [this, List.reverse_nil, encode_nil, List.nil_append]
  · rintro rfl
    exact decode_encode text

/-- The bytes of a string are read back as that string. -/
@[simp] theorem decodeString_encodeString (s : String) :
    decodeString (encodeString s) = .ok s := by
  simp only [decodeString, encodeString, decode_encode, Except.map, String.ofList_toList]

/-- Bytes are read as a string exactly if they are its bytes. -/
theorem decodeString_eq_ok_iff (bs : Bytes) (s : String) :
    decodeString bs = .ok s ↔ bs = encodeString s := by
  constructor
  · intro h
    cases hd : decode bs with
    | error f => simp only [decodeString, hd, Except.map] at h; cases h
    | ok text =>
      simp only [decodeString, hd, Except.map, Except.ok.injEq] at h
      -- the text that was decoded encodes to the bytes
      rw [encodeString, ← h, String.toList_ofList, (decode_eq_ok_iff bs text).mp hd]
  · rintro rfl
    exact decodeString_encodeString s

/-- Whether bytes are those of a text. -/
def IsText (bs : Bytes) : Prop := ∃ text, bs = encode text

instance (bs : Bytes) : Decidable (IsText bs) :=
  match h : decode bs with
  | .ok text => isTrue ⟨text, (decode_eq_ok_iff bs text).mp h⟩
  | .error _ => isFalse fun ⟨text, htext⟩ => by
    rw [htext, decode_encode] at h
    cases h

/-- Bytes that are no text are not decoded. -/
theorem exists_fault_of_not_isText (bs : Bytes) (h : ¬IsText bs) :
    ∃ fault, decode bs = .error fault := by
  cases hdecode : decode bs with
  | error fault => exact ⟨fault, rfl⟩
  | ok text => exact absurd ⟨text, (decode_eq_ok_iff bs text).mp hdecode⟩ h

end OneShot.Utf8
