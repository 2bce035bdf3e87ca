import OneShot.Message
import OneShot.Proofs.Json.Integers
import OneShot.Proofs.Text.Utf8

/-!
# Payloads are text without control characters

The payload of a message is well-formed text, and none of its characters is a control character:
those of the text are spelled by escapes. So a payload is a line, whatever the message says.

## Key results

- `plain_encode`: the payload of a message is text without control characters
- `Plain.le_toNat`: no byte of such a text is a control character either
-/

namespace OneShot

/-- Whether bytes are a text without control characters. -/
def Plain (bs : Bytes) : Prop :=
  ∃ text : List Char, bs = Utf8.encode text ∧ ∀ c ∈ text, 0x20 ≤ c.toNat

/-! ### Plain bytes -/

theorem plain_nil : Plain [] := ⟨[], rfl, List.forall_mem_nil _⟩

theorem Plain.append {a b : Bytes} (ha : Plain a) (hb : Plain b) : Plain (a ++ b) := by
  obtain ⟨text, rfl, htext⟩ := ha
  obtain ⟨text', rfl, htext'⟩ := hb
  refine ⟨text ++ text', (Utf8.encode_append text text').symm, ?_⟩
  exact List.forall_mem_append.mpr ⟨htext, htext'⟩

/-- A plain text is read as text. -/
theorem Plain.exists_decode {bs : Bytes} (h : Plain bs) : ∃ text, Utf8.decode bs = .ok text := by
  obtain ⟨text, rfl, -⟩ := h
  exact ⟨text, Utf8.decode_encode text⟩

/-- No byte of a plain text is a control character. -/
theorem Plain.le_toNat {bs : Bytes} (h : Plain bs) (b : UInt8) (hb : b ∈ bs) : 0x20 ≤ b.toNat := by
  obtain ⟨text, rfl, htext⟩ := h
  obtain ⟨c, hc, hb⟩ := List.mem_flatMap.mp hb
  have hcontrol := htext c hc
  by_cases hlt : c.toNat < 0x80
  · rw [Utf8.encodeChar_of_lt c hlt, List.mem_singleton] at hb
    rw [hb, Utf8.toNat_toUInt8 _ (by omega)]
    exact hcontrol
  · have := Utf8.le_toNat_of_mem_encodeChar c (by omega) b hb
    omega

/-- A character that is no control character is plain. -/
private theorem plain_encodeChar_of_le (c : Char) (h : 0x20 ≤ c.toNat) :
    Plain (Utf8.encodeChar c) := by
  refine ⟨[c], ?_, ?_⟩
  · rw [Utf8.encode_cons, Utf8.encode_nil, List.append_nil]
  · intro c' hc'
    rwa [List.mem_singleton.mp hc']

/-- The character of a byte below 0x80 is spelled by that byte. -/
private theorem encodeChar_ofNat (b : UInt8) (h : b.toNat < 0x80) :
    Utf8.encodeChar (Char.ofNat b.toNat) = [b] ∧ (Char.ofNat b.toNat).toNat = b.toNat := by
  have hnat : (Char.ofNat b.toNat).toNat = b.toNat := Utf8.toNat_ofNat b.toNat (.inl (by omega))
  refine ⟨?_, hnat⟩
  rw [Utf8.encodeChar_of_lt _ (by rw [hnat]; exact h), hnat]
  exact congrArg (· :: []) (UInt8.ofNat_toNat)

/-- Whether a byte is an ASCII character, and no control character. -/
def isPlainAscii (b : UInt8) : Bool := 0x20 ≤ b.toNat && b.toNat < 0x80

/-- ASCII text is plain. -/
theorem plain_of_ascii (bs : Bytes) (h : bs.all isPlainAscii = true) : Plain bs := by
  induction bs with
  | nil => exact plain_nil
  | cons b bs ih =>
    rw [List.all_cons, Bool.and_eq_true] at h
    have hrange := h.1
    simp only [isPlainAscii, Bool.and_eq_true, decide_eq_true_eq] at hrange
    obtain ⟨hbyte, hnat⟩ := encodeChar_ofNat b hrange.2
    have hb := plain_encodeChar_of_le (Char.ofNat b.toNat) (by rw [hnat]; exact hrange.1)
    rw [hbyte] at hb
    exact hb.append (ih h.2)

/-! ### Payloads -/

/-- A hexadecimal digit is plain. -/
private theorem isPlainAscii_hexDigit (n : Nat) (h : n < 16) :
    isPlainAscii (Json.StringBody.hexDigit n) = true := by
  have : ∀ n : Fin 16, isPlainAscii (Json.StringBody.hexDigit n.val) = true := by decide
  exact this ⟨n, h⟩

/-- The spelling of a character in a string is plain. -/
private theorem plain_encodeChar (c : Char) : Plain (Json.StringBody.encodeChar c) := by
  unfold Json.StringBody.encodeChar
  -- the seven letters are plain, so are the digits of a code and every other character
  split
  · exact plain_of_ascii _ rfl
  · exact plain_of_ascii _ rfl
  · exact plain_of_ascii _ rfl
  · exact plain_of_ascii _ rfl
  · exact plain_of_ascii _ rfl
  · exact plain_of_ascii _ rfl
  · exact plain_of_ascii _ rfl
  · split
    · rename_i hcontrol
      -- a control character is spelled by its two digits
      have hhigh := isPlainAscii_hexDigit (c.toNat / 16) (by omega)
      have hlow := isPlainAscii_hexDigit (c.toNat % 16) (by omega)
      have hstart : [Json.backslash, 0x75, 0x30, 0x30].all isPlainAscii = true := rfl
      simp only [List.all_cons, List.all_nil, Bool.and_true, Bool.and_eq_true] at hstart
      refine plain_of_ascii _ ?_
      simp only [List.all_cons, List.all_nil, hstart, hhigh, hlow, Bool.and_self]
    · rename_i hcontrol
      exact plain_encodeChar_of_le c (by omega)

/-- The spelling of a text in a string is plain. -/
private theorem plain_encode_text (text : List Char) : Plain (Json.StringBody.encode text) := by
  induction text with
  | nil => exact plain_nil
  | cons c text ih => exact (plain_encodeChar c).append ih

/-- An integer in decimal is plain. -/
private theorem plain_encode_int (n : Int) : Plain (Json.Numeral.encode n) := by
  have hdigits : Plain (Json.Numeral.encodeNat n.natAbs) := by
    refine plain_of_ascii _ (List.all_eq_true.mpr fun b hb => ?_)
    have hb := (Json.Numeral.natural_encodeNat n.natAbs).isDigit_of_mem b hb
    simp only [Json.isDigit, Bool.and_eq_true, decide_eq_true_eq, UInt8.le_iff_toNat_le] at hb
    simp only [isPlainAscii, Bool.and_eq_true, decide_eq_true_eq]
    exact ⟨Nat.le_trans (by decide) hb.1, Nat.lt_of_le_of_lt hb.2 (by decide)⟩
  rw [Json.Numeral.encode]
  split
  · exact Plain.append (plain_of_ascii [Json.minus] rfl) hdigits
  · exact hdigits

/-- The payload of a message is text without control characters. -/
theorem Message.plain_encode (m : Message) : Plain m.encode := by
  rw [encode]
  refine .append (.append (.append (.append ?_ (plain_encode_text _)) ?_) (plain_encode_int _)) ?_
  · exact plain_of_ascii _ rfl
  · exact plain_of_ascii _ rfl
  · exact plain_of_ascii _ rfl

end OneShot
