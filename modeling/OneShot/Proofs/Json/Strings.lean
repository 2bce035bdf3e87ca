import OneShot.Json.StringBody
import OneShot.Proofs.Text.Utf8

/-!
# The language of strings

A string between its quotes is a run of raw bytes and escapes. `Unescapes` says which bytes it
stands for, and `Denotes` which text. Reading accepts exactly this language, and writing spells
every text in it.

## Key results

- `read_eq_ok_iff`: a string is read exactly if its spelling denotes a text, up to the quote
- `denotes_encode`: the spelling of a text denotes that text
-/

namespace OneShot.Json.StringBody

/-! ### The language -/

/-- Four hexadecimal digits and their number. -/
inductive HexQuad : Bytes → Nat → Prop
  | mk {p q r s : UInt8} {a b c d : Nat} (hp : hexValue? p = some a) (hq : hexValue? q = some b)
      (hr : hexValue? r = some c) (hs : hexValue? s = some d) :
      HexQuad [p, q, r, s] (((a * 16 + b) * 16 + c) * 16 + d)

/-- What an escape spells, after its backslash. -/
inductive Escape : Bytes → Char → Prop
  | letter {b : UInt8} {c : Char} (h : simple? b = some c) : Escape [b] c
  | scalar {digits : Bytes} {n : Nat} (hquad : HexQuad digits n) (hn : n < 0xD800 ∨ 0xDFFF < n) :
      Escape (0x75 :: digits) (Char.ofNat n)
  /-- Two surrogates, the leading one first. -/
  | pair {digits digits' : Bytes} {high low : Nat} (hquad : HexQuad digits high)
      (hhigh : 0xD800 ≤ high ∧ high < 0xDC00) (hquad' : HexQuad digits' low)
      (hlow : 0xDC00 ≤ low ∧ low ≤ 0xDFFF) :
      Escape (0x75 :: (digits ++ backslash :: 0x75 :: digits'))
        (Char.ofNat (0x10000 + (high - 0xD800) * 0x400 + (low - 0xDC00)))

/-- Whether a byte stands for itself between the quotes. -/
def isRaw (b : UInt8) : Bool := b != quoteByte && b != backslash && !isControl b

/-- The bytes that a spelling between the quotes stands for. -/
inductive Unescapes : Bytes → Bytes → Prop
  | nil : Unescapes [] []
  | raw {b : UInt8} {spelling content : Bytes} (hb : isRaw b = true)
      (h : Unescapes spelling content) : Unescapes (b :: spelling) (b :: content)
  | escape {e spelling content : Bytes} {c : Char} (he : Escape e c)
      (h : Unescapes spelling content) :
      Unescapes (backslash :: (e ++ spelling)) (Utf8.encodeChar c ++ content)

/-- The text that a spelling between the quotes stands for. -/
def Denotes (spelling : Bytes) (s : String) : Prop := Unescapes spelling (Utf8.encodeString s)

/-! ### Escapes are read as they are spelled -/

/-- A numeric escape is read exactly if it has four hexadecimal digits. -/
theorem fourDigits_eq_ok_iff (bs rest : Bytes) (n : Nat) :
    fourDigits bs = .ok (n, rest) ↔ ∃ digits, HexQuad digits n ∧ bs = digits ++ rest := by
  constructor
  · intro h
    unfold fourDigits at h
    split at h
    · -- four bytes are there, and each has to be a digit
      rename_i p q r s tail
      split at h
      · rename_i hp hq hr hs
        simp only [Except.ok.injEq, Prod.mk.injEq] at h
        obtain ⟨rfl, rfl⟩ := h
        exact ⟨[p, q, r, s], .mk hp hq hr hs, rfl⟩
      · cases h
    · cases h
  · intro h
    obtain ⟨digits, ⟨hp, hq, hr, hs⟩, rfl⟩ := h
    simp only [fourDigits, List.cons_append, List.nil_append, hp, hq, hr, hs]

/-- An expected byte is taken exactly if it comes first. -/
private theorem pairByte_eq_ok_iff (wanted : UInt8) (bs rest : Bytes) :
    pairByte wanted bs = .ok rest ↔ bs = wanted :: rest := by
  cases bs with
  | nil => simp [pairByte]
  | cons b bs =>
    -- the byte that comes is the wanted one, or nothing is read
    simp only [pairByte, List.cons.injEq]
    split
    · rename_i hb
      simp only [beq_iff_eq] at hb
      simp only [Except.ok.injEq, hb, true_and]
    · rename_i hb
      simp only [beq_iff_eq] at hb
      simp only [hb, false_and, reduceCtorEq]

/-- What succeeds in two steps succeeds in the first of them. -/
private theorem exists_of_bind_eq_ok {ε α β : Type} (x : Except ε α) (f : α → Except ε β) (b : β)
    (h : x >>= f = .ok b) : ∃ a, x = .ok a ∧ f a = .ok b := by
  cases x with
  | error e => cases h
  | ok a => exact ⟨a, rfl, h⟩

/-- The second half of a pair is read exactly if it is an escape for a trailing surrogate. -/
private theorem trailing_eq_ok_iff (high : Nat) (bs rest : Bytes) (c : Char) :
    trailing high bs = .ok (c, rest) ↔ ∃ digits low, HexQuad digits low ∧
      (0xDC00 ≤ low ∧ low ≤ 0xDFFF) ∧ bs = backslash :: 0x75 :: (digits ++ rest) ∧
      c = Char.ofNat (0x10000 + (high - 0xD800) * 0x400 + (low - 0xDC00)) := by
  constructor
  · intro h
    rw [trailing] at h
    -- a backslash, the letter and four digits, which have to be a low surrogate
    obtain ⟨r₁, h₁, h⟩ := exists_of_bind_eq_ok _ _ _ h
    obtain ⟨r₂, h₂, h⟩ := exists_of_bind_eq_ok _ _ _ h
    obtain ⟨⟨low, r₃⟩, h₃, h⟩ := exists_of_bind_eq_ok _ _ _ h
    simp only [bind, Except.bind] at h
    split at h
    · cases h
    · rename_i hlow
      simp only [pure, Except.pure, Except.ok.injEq, Prod.mk.injEq] at h
      obtain ⟨rfl, rfl⟩ := h
      obtain ⟨digits, hquad, rfl⟩ := (fourDigits_eq_ok_iff r₂ r₃ low).mp h₃
      simp only [not_or, Nat.not_lt] at hlow
      refine ⟨digits, low, hquad, hlow, ?_, rfl⟩
      rw [(pairByte_eq_ok_iff backslash bs r₁).mp h₁, (pairByte_eq_ok_iff 0x75 r₁ _).mp h₂]
  · intro h
    -- each of the three parts is read
    obtain ⟨digits, low, hquad, hlow, rfl, hc⟩ := h
    have h₁ := (pairByte_eq_ok_iff backslash (backslash :: 0x75 :: (digits ++ rest)) _).mpr rfl
    have h₂ := (pairByte_eq_ok_iff 0x75 (0x75 :: (digits ++ rest)) _).mpr rfl
    have h₃ := (fourDigits_eq_ok_iff (digits ++ rest) rest low).mpr ⟨digits, hquad, rfl⟩
    simp only [trailing, h₁, h₂, h₃, bind, Except.bind]
    rw [if_neg (by omega), hc]
    rfl

/-- The letter of a numeric escape stands for no character. -/
theorem ne_of_simple? (b : UInt8) (c : Char) (h : simple? b = some c) : b ≠ 0x75 := by
  intro hb
  rw [hb, show simple? 0x75 = none from by decide] at h
  cases h

/-- An escape is read exactly if it is one. -/
theorem escape_eq_ok_iff (bs rest : Bytes) (c : Char) :
    escape bs = .ok (c, rest) ↔ ∃ e, Escape e c ∧ bs = e ++ rest := by
  constructor
  · intro h
    cases bs with
    | nil => cases h
    | cons b bs =>
      simp only [escape, numeric] at h
      -- a numeric escape is one scalar value, or the first half of a pair
      split at h
      · rename_i hb
        simp only [beq_iff_eq] at hb
        subst hb
        split at h
        · cases h
        · rename_i n tail hfour
          obtain ⟨digits, hquad, rfl⟩ := (fourDigits_eq_ok_iff bs tail n).mp hfour
          split at h
          · rename_i hn
            simp only [Except.ok.injEq, Prod.mk.injEq] at h
            obtain ⟨rfl, rfl⟩ := h
            -- outside the surrogates the code is the character
            exact ⟨_, .scalar hquad hn, rfl⟩
          · rename_i hsurrogate
            simp only [not_or, Nat.not_lt] at hsurrogate
            split at h
            · cases h
            · -- a high surrogate, and a low one behind it
              rename_i hleading
              simp only [Nat.not_le] at hleading
              obtain ⟨digits', low, hquad', hlow, rfl, hc⟩ := (trailing_eq_ok_iff _ _ _ _).mp h
              rw [hc]
              exact ⟨_, .pair hquad ⟨hsurrogate.1, hleading⟩ hquad' hlow, by simp⟩
      · split at h
        · rename_i c' hsimple
          simp only [Except.ok.injEq, Prod.mk.injEq] at h
          obtain ⟨rfl, rfl⟩ := h
          exact ⟨_, .letter hsimple, rfl⟩
        · cases h
  · intro h
    obtain ⟨e, he, rfl⟩ := h
    -- a letter, a scalar value or a pair: each spelling is read as what it stands for
    cases he with
    | @letter b c hsimple =>
      -- the letter is not the one of a numeric escape
      have hb := ne_of_simple? b c hsimple
      simp only [List.cons_append, List.nil_append, escape, beq_iff_eq, hb, if_false, hsimple]
    | scalar hquad hn =>
      have hfour := (fourDigits_eq_ok_iff _ rest _).mpr ⟨_, hquad, rfl⟩
      simp only [List.cons_append, escape, beq_self_eq_true, if_true, numeric, hfour, if_pos hn]
    | @pair digits digits' high low hquad hhigh hquad' hlow =>
      have hfour := (fourDigits_eq_ok_iff (digits ++ (backslash :: 0x75 :: (digits' ++ rest)))
        _ high).mpr ⟨_, hquad, rfl⟩
      have htrailing := (trailing_eq_ok_iff high _ rest _).mpr
        ⟨digits', low, hquad', hlow, rfl, rfl⟩
      simp only [List.cons_append, List.append_assoc, escape, beq_self_eq_true, if_true, numeric,
        hfour]
      rw [if_neg (by omega), if_neg (by omega), htrailing]

/-! ### Strings are read as they are spelled -/

/-- Scanning stops at the closing quote. -/
private theorem scan_quoteByte (done rest : Bytes) :
    scan done (quoteByte :: rest) = .ok (done.reverse, rest) := by
  rw [scan]
  simp only [beq_self_eq_true, if_true]

/-- Scanning takes a raw byte as it is. -/
theorem scan_raw (done rest : Bytes) (b : UInt8) (hb : isRaw b = true) :
    scan done (b :: rest) = scan (b :: done) rest := by
  simp only [isRaw, Bool.and_eq_true, bne_iff_ne, ne_eq, Bool.not_eq_true'] at hb
  rw [scan]
  simp only [beq_iff_eq, hb.1.1, hb.1.2, hb.2, if_false, Bool.false_eq_true]

/-- Scanning resolves an escape. -/
theorem scan_escape (done e rest : Bytes) (c : Char) (he : Escape e c) :
    scan done (backslash :: (e ++ rest)) =
      scan ((Utf8.encodeChar c).reverse ++ done) rest := by
  have hescape := (escape_eq_ok_iff (e ++ rest) rest c).mpr ⟨e, he, rfl⟩
  -- a backslash is no quote, so the scan comes to the escape
  have hquote : (backslash == quoteByte) = false := by decide
  rw [scan]
  simp only [hquote, beq_self_eq_true, if_true, Bool.false_eq_true, if_false]
  -- the escape is read, so the scan goes on behind it and cannot fail here
  split
  · rename_i heq
    rw [hescape] at heq
    simp only [Except.ok.injEq, Prod.mk.injEq] at heq
    rw [heq.1, heq.2]
  · rename_i heq
    rw [hescape] at heq
    cases heq

/-- A spelling is scanned up to the quote after it, with its escapes resolved. -/
theorem scan_of_unescapes (done spelling content rest : Bytes) (h : Unescapes spelling content) :
    scan done (spelling ++ quoteByte :: rest) = .ok (done.reverse ++ content, rest) := by
  -- induction on the spelling: what was scanned before stands reversed in `done`
  induction h generalizing done with
  | nil => rw [List.nil_append, scan_quoteByte, List.append_nil]
  | raw hb h ih =>
    rw [List.cons_append, scan_raw done _ _ hb, ih]
    simp only [List.reverse_cons, List.append_assoc, List.singleton_append]
  | escape he h ih =>
    rw [List.cons_append, List.append_assoc, scan_escape done _ _ _ he, ih]
    simp only [List.reverse_append, List.reverse_reverse, List.append_assoc]

/-- What is scanned is a spelling and the quote after it. -/
theorem unescapes_of_scan (done bs content rest : Bytes) (h : scan done bs = .ok (content, rest)) :
    ∃ spelling tail, Unescapes spelling tail ∧ content = done.reverse ++ tail ∧
      bs = spelling ++ quoteByte :: rest := by
  -- the cases of the scan: its end, an escape, a raw byte, and what it refuses
  fun_induction scan done bs with
  | case1 => cases h
  | case2 done b bs hb =>
    simp only [Except.ok.injEq, Prod.mk.injEq] at h
    obtain ⟨rfl, rfl⟩ := h
    exact ⟨[], [], .nil, by simp, by simp [eq_of_beq hb]⟩
  | case3 done b bs hquote hb c tail hescape ih =>
    obtain ⟨spelling, content', hspelling, rfl, rfl⟩ := ih h
    -- what the scan put in front of the content is what the escape spells
    obtain ⟨e, he, rfl⟩ := (escape_eq_ok_iff bs _ c).mp hescape
    refine ⟨_, _, .escape he hspelling, ?_, ?_⟩
    · simp only [List.reverse_append, List.reverse_reverse, List.append_assoc]
    · simp only [eq_of_beq hb, List.cons_append, List.append_assoc]
  | case4 => cases h
  | case5 => cases h
  | case6 done b bs hquote hb hcontrol ih =>
    obtain ⟨spelling, content', hspelling, rfl, rfl⟩ := ih h
    -- it passed the three tests, so it stands for itself
    have hraw : isRaw b = true := by simp [isRaw, bne, hquote, hb, hcontrol]
    exact ⟨_, _, .raw hraw hspelling, by simp, rfl⟩

/-- A string is read exactly if its spelling denotes a text, up to the quote after it. -/
theorem read_eq_ok_iff (bs rest : Bytes) (s : String) :
    read bs = .ok (s, rest) ↔
      ∃ spelling, Denotes spelling s ∧ bs = spelling ++ quoteByte :: rest := by
  constructor
  · intro h
    simp only [read] at h
    split at h
    · cases h
    · rename_i content tail hscan
      obtain ⟨spelling, content', hspelling, hcontent, hbs⟩ := unescapes_of_scan [] bs _ _ hscan
      rw [List.reverse_nil, List.nil_append] at hcontent
      subst hcontent
      split at h
      · rename_i text hdecode
        simp only [Except.ok.injEq, Prod.mk.injEq] at h
        obtain ⟨rfl, rfl⟩ := h
        -- the content is text, and that is what was spelled
        rw [(Utf8.decodeString_eq_ok_iff content text).mp hdecode] at hspelling
        exact ⟨spelling, hspelling, hbs⟩
      · cases h
  · intro h
    obtain ⟨spelling, hspelling, rfl⟩ := h
    -- the scan finds the content, which is the encoding of a text
    have hscan := scan_of_unescapes [] spelling _ rest hspelling
    simp only [read, hscan, List.reverse_nil, List.nil_append, Utf8.decodeString_encodeString]

/-! ### Writing spells the text -/

/-- Spellings after one another stand for their contents after one another. -/
theorem Unescapes.append {spelling content spelling' content' : Bytes}
    (h : Unescapes spelling content) (h' : Unescapes spelling' content') :
    Unescapes (spelling ++ spelling') (content ++ content') := by
  induction h with
  | nil => exact h'
  | raw hb h ih => exact .raw hb ih
  | escape he h ih =>
    rw [List.cons_append, List.append_assoc, List.append_assoc]
    exact .escape he ih

/-- Raw bytes stand for themselves. -/
theorem unescapes_of_isRaw (bs : Bytes) (h : ∀ b ∈ bs, isRaw b = true) : Unescapes bs bs := by
  induction bs with
  | nil => exact .nil
  | cons b bs ih =>
    exact .raw (h b List.mem_cons_self) (ih fun b' hb' => h b' (List.mem_cons_of_mem b hb'))

/-- A byte is raw from 0x20 on, the quote and the backslash apart. -/
private theorem isRaw_of_toNat (b : UInt8) (hcontrol : 0x20 ≤ b.toNat) (hquote : b.toNat ≠ 0x22)
    (hbackslash : b.toNat ≠ 0x5C) : isRaw b = true := by
  have hq : b ≠ quoteByte := by rintro rfl; exact hquote rfl
  have hb : b ≠ backslash := by rintro rfl; exact hbackslash rfl
  have hc : isControl b = false := by
    simp only [isControl, decide_eq_false_iff_not, UInt8.lt_iff_toNat_lt, Nat.not_lt]
    exact hcontrol
  simp [isRaw, hq, hb, hc]

/-- A character from U+0020 on stands for itself, the quote and the backslash apart. -/
private theorem unescapes_encodeChar_raw (c : Char) (hcontrol : 0x20 ≤ c.toNat)
    (hquote : c.toNat ≠ 0x22) (hbackslash : c.toNat ≠ 0x5C) :
    Unescapes (Utf8.encodeChar c) (Utf8.encodeChar c) := by
  refine unescapes_of_isRaw _ fun b hb => ?_
  -- one byte below U+0080, and from there on bytes that are no quote either
  by_cases hc : c.toNat < 0x80
  · rw [Utf8.encodeChar_of_lt c hc, List.mem_singleton] at hb
    have hb' : b.toNat = c.toNat := by rw [hb, Utf8.toNat_toUInt8 _ (by omega)]
    exact isRaw_of_toNat b (by omega) (by omega) (by omega)
  · have := Utf8.le_toNat_of_mem_encodeChar c (by omega) b hb
    exact isRaw_of_toNat b (by omega) (by omega) (by omega)

/-- A digit in lower case is read back as its value. -/
private theorem hexValue?_hexDigit (n : Nat) (h : n < 16) : hexValue? (hexDigit n) = some n := by
  have : ∀ n : Fin 16, hexValue? (hexDigit n.val) = some n.val := by decide
  exact this ⟨n, h⟩

/-- A control character without a short escape is spelled by its number. -/
private theorem escape_control (c : Char) (h : c.toNat < 0x20) :
    Escape [0x75, 0x30, 0x30, hexDigit (c.toNat / 16), hexDigit (c.toNat % 16)] c := by
  have hzero : hexValue? 0x30 = some 0 := by decide
  have hquad := HexQuad.mk hzero hzero (hexValue?_hexDigit (c.toNat / 16) (by omega))
    (hexValue?_hexDigit (c.toNat % 16) (by omega))
  have hvalue : ((0 * 16 + 0) * 16 + c.toNat / 16) * 16 + c.toNat % 16 = c.toNat := by omega
  rw [hvalue] at hquad
  have := Escape.scalar hquad (by omega)
  rwa [Char.ofNat_toNat] at this

/-- A short escape stands for its character. -/
private theorem unescapes_letter (b : UInt8) (c : Char) (h : simple? b = some c) :
    Unescapes [backslash, b] (Utf8.encodeChar c) := by
  simpa only [List.append_nil] using Unescapes.escape (.letter h) .nil

/-- The spelling of a character stands for it. -/
theorem unescapes_encodeChar (c : Char) : Unescapes (encodeChar c) (Utf8.encodeChar c) := by
  unfold encodeChar
  -- the seven letters first, then control characters, and all others stand for themselves
  split
  · exact unescapes_letter _ _ (by decide)
  · exact unescapes_letter _ _ (by decide)
  · exact unescapes_letter _ _ (by decide)
  · exact unescapes_letter _ _ (by decide)
  · exact unescapes_letter _ _ (by decide)
  · exact unescapes_letter _ _ (by decide)
  · exact unescapes_letter _ _ (by decide)
  · rename_i hquote hbackslash _ _ _ _ _
    split
    · rename_i hcontrol
      simpa only [List.append_nil] using Unescapes.escape (escape_control c hcontrol) .nil
    · rename_i hcontrol
      -- neither a quote nor a backslash, which are among the letters
      refine unescapes_encodeChar_raw c (by omega) ?_ ?_
      · intro heq
        exact hquote (by rw [← Char.ofNat_toNat c, heq])
      · intro heq
        exact hbackslash (by rw [← Char.ofNat_toNat c, heq])

/-- The spelling of a text stands for its bytes. -/
theorem unescapes_encode (text : List Char) : Unescapes (encode text) (Utf8.encode text) := by
  induction text with
  | nil => exact .nil
  | cons c text ih => exact (unescapes_encodeChar c).append ih

/-- The spelling of a text denotes it. -/
theorem denotes_encode (s : String) : Denotes (encode s.toList) s := unescapes_encode s.toList

end OneShot.Json.StringBody
