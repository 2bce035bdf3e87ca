import OneShot.Json.Numeral

/-!
# The language of integers

An integer literal is a natural number without leading zeros, or one that is not zero behind a minus
sign. A number that is read as an integer is such a literal, and every literal of 64 bits is read as
its value, provided that the number ends where the literal does.

## Key results

- `exists_natural_of_read`: a number that is no double was spelled without point and exponent
- `read_natural`: the digits of a number of 64 bits are read as that number
- `integerLiteral_encode`: an integer in decimal is a literal for that integer
-/

namespace OneShot.Json.Numeral

/-! ### The language -/

/-- The number that decimal digits stand for when they follow those of `n`. -/
def digitsFrom (n : Nat) (digits : Bytes) : Nat :=
  digits.foldl (fun n d => n * 10 + digitValue d) n

/-- The number that decimal digits stand for. -/
def ofDigits (digits : Bytes) : Nat := digitsFrom 0 digits

/-- The digits of a natural number, without leading zeros. -/
inductive Natural : Bytes → Prop
  | zero : Natural [zeroDigit]
  | leading {b : UInt8} {tail : Bytes} (hb : isLeadingDigit b = true)
      (htail : ∀ d ∈ tail, isDigit d = true) : Natural (b :: tail)

/-- An integer without point and exponent. There is no negative zero among them. -/
inductive IntegerLiteral : Bytes → Int → Prop
  | unsigned {digits : Bytes} (h : Natural digits) : IntegerLiteral digits (ofDigits digits)
  | negative {digits : Bytes} (h : Natural digits) (hzero : ofDigits digits ≠ 0) :
      IntegerLiteral (minus :: digits) (-(ofDigits digits : Int))

/-- Whether a number goes on with this byte. -/
def goesOn (b : UInt8) : Bool := isDigit b || b == point || isExponentMark b

theorem goesOn_eq_false_iff (b : UInt8) : goesOn b = false ↔
    isDigit b = false ∧ (b == point) = false ∧ isExponentMark b = false := by
  simp only [goesOn, Bool.or_eq_false_iff, and_assoc]

/-- Whether a number ends before these bytes. -/
def Ends (rest : Bytes) : Prop := ∀ b ∈ rest.head?, goesOn b = false

theorem ends_nil : Ends [] := by
  intro b hb
  cases hb

/-- A number ends before a byte with which none goes on. -/
theorem ends_cons (b : UInt8) (rest : Bytes) (h : goesOn b = false) : Ends (b :: rest) := by
  intro b' hb'
  rw [List.head?_cons, Option.mem_some_iff] at hb'
  rwa [← hb']

/-! ### Digits -/

@[simp] theorem digitsFrom_nil (n : Nat) : digitsFrom n [] = n := rfl

@[simp] theorem digitsFrom_cons (n : Nat) (d : UInt8) (digits : Bytes) :
    digitsFrom n (d :: digits) = digitsFrom (n * 10 + digitValue d) digits := by
  simp only [digitsFrom, List.foldl_cons]

theorem digitsFrom_append (n : Nat) (a b : Bytes) :
    digitsFrom n (a ++ b) = digitsFrom (digitsFrom n a) b := List.foldl_append

/-- Digits only make a number larger. -/
theorem le_digitsFrom (n : Nat) (digits : Bytes) : n ≤ digitsFrom n digits := by
  induction digits generalizing n with
  | nil => exact Nat.le_refl n
  | cons d digits ih =>
    rw [digitsFrom_cons]
    have := ih (n * 10 + digitValue d)
    omega

/-- A digit that can lead is a digit. -/
theorem isDigit_of_isLeadingDigit (b : UInt8) (h : isLeadingDigit b = true) :
    isDigit b = true := by
  simp only [isLeadingDigit, isDigit, Bool.and_eq_true, decide_eq_true_eq,
    UInt8.le_iff_toNat_le] at *
  refine ⟨Nat.le_trans ?_ h.1, h.2⟩
  decide

/-- The digits of a number are digits. -/
theorem Natural.isDigit_of_mem {digits : Bytes} (h : Natural digits) (d : UInt8)
    (hd : d ∈ digits) : isDigit d = true := by
  cases h with
  | zero => rw [List.mem_singleton] at hd; rw [hd]; decide
  | leading hb htail =>
    rcases List.mem_cons.mp hd with rfl | hd
    · exact isDigit_of_isLeadingDigit d hb
    · exact htail d hd

/-- A natural number starts with a digit. -/
theorem Natural.exists_cons {digits : Bytes} (h : Natural digits) :
    ∃ b tail, digits = b :: tail ∧ isDigit b = true := by
  cases h with
  | zero => exact ⟨zeroDigit, [], rfl, rfl⟩
  | @leading b tail hb _ => exact ⟨b, tail, rfl, isDigit_of_isLeadingDigit b hb⟩

/-- Bytes that a test tells apart differ. -/
theorem beq_eq_false_of_test (test : UInt8 → Bool) (b c : UInt8) (hb : test b = true)
    (hc : test c = false) : (b == c) = false := by
  rw [beq_eq_false_iff_ne]
  apply ne_of_apply_ne test
  rw [hb, hc]
  decide

/-- A digit is neither white space nor a minus sign. -/
theorem ne_of_isDigit (b : UInt8) (h : isDigit b = true) :
    isSpace b = false ∧ (b == minus) = false := by
  have hne := fun c => beq_eq_false_of_test isDigit b c h
  refine ⟨?_, hne minus rfl⟩
  simp only [isSpace, hne 0x20 rfl, hne 0x09 rfl, hne 0x0A rfl, hne 0x0D rfl, Bool.or_self]

/-! ### Everything but a literal is a double

Behind a point, an exponent mark or more digits than fit, no branch gives an integer. One lemma for
each function of the reader, the innermost first. -/

private theorem double_of_ofParts (negative : Bool) (n : Nat) (e : Int) (bs rest : Bytes)
    (x : Numeral) (h : ofParts negative n e bs = .ok (x, rest)) : ∃ d, x = .double d := by
  simp only [ofParts] at h
  split at h
  · simp only [Except.ok.injEq, Prod.mk.injEq] at h
    exact ⟨_, h.1.symm⟩
  · cases h

private theorem double_of_exponentDigits (negative down : Bool) (n v : Nat) (e : Int)
    (bs rest : Bytes) (x : Numeral) (h : exponentDigits negative n e down v bs = .ok (x, rest)) :
    ∃ d, x = .double d := by
  -- induction on the digits: wherever they end or overflow, a double is made of them
  induction bs generalizing v with
  | nil => exact double_of_ofParts _ _ _ _ _ _ h
  | cons b bs ih =>
    simp only [exponentDigits] at h
    split at h
    · split at h
      · exact ih _ h
      · -- beyond the limit the number is refused or is a zero
        split at h
        · cases h
        · simp only [Except.ok.injEq, Prod.mk.injEq] at h
          exact ⟨_, h.1.symm⟩
    · exact double_of_ofParts _ _ _ _ _ _ h

private theorem double_of_exponent (negative : Bool) (n : Nat) (e : Int) (bs rest : Bytes)
    (x : Numeral) (h : exponent negative n e bs = .ok (x, rest)) : ∃ d, x = .double d := by
  simp only [exponent] at h
  split at h
  · cases h
  · split at h
    · exact double_of_exponentDigits _ _ _ _ _ _ _ _ h
    · cases h

private theorem double_of_afterDigits (negative : Bool) (n : Nat) (e : Int) (bs rest : Bytes)
    (x : Numeral) (h : afterDigits negative n e bs = .ok (x, rest)) : ∃ d, x = .double d := by
  cases bs with
  | nil => exact double_of_ofParts _ _ _ _ _ _ h
  | cons b bs =>
    simp only [afterDigits] at h
    split at h
    · exact double_of_exponent _ _ _ _ _ _ h
    · exact double_of_ofParts _ _ _ _ _ _ h

private theorem double_of_fraction (negative seen : Bool) (n : Nat) (e : Int) (bs rest : Bytes)
    (x : Numeral) (h : fraction negative n e seen bs = .ok (x, rest)) : ∃ d, x = .double d := by
  -- induction on the digits behind the point, of which there is one at least
  induction bs generalizing n e seen with
  | nil =>
    simp only [fraction] at h
    split at h
    · exact double_of_afterDigits _ _ _ _ _ _ h
    · cases h
  | cons b bs ih =>
    simp only [fraction] at h
    split at h
    · split at h
      · -- a digit that fits is counted into the significand
        exact ih _ _ _ h
      · exact double_of_afterDigits _ _ _ _ _ _ h
    · -- what is no digit ends the fraction, if one digit was seen
      split at h
      · exact double_of_afterDigits _ _ _ _ _ _ h
      · cases h

private theorem double_of_overlong (negative : Bool) (n e : Nat) (bs rest : Bytes) (x : Numeral)
    (h : overlong negative n e bs = .ok (x, rest)) : ∃ d, x = .double d := by
  induction bs generalizing e with
  | nil => exact double_of_ofParts _ _ _ _ _ _ h
  | cons b bs ih =>
    simp only [overlong] at h
    split at h
    · exact ih _ h
    · split at h
      · exact double_of_fraction _ _ _ _ _ _ _ h
      · exact double_of_afterDigits _ _ _ _ _ _ h

/-! ### What is read as an integer -/

/-- After the integer digits of a number that is no double the number ends. -/
private theorem ends_of_afterInteger (negative : Bool) (n : Nat) (bs rest : Bytes) (x : Numeral)
    (h : afterInteger negative n bs = .ok (x, rest)) (hx : ∀ d, x ≠ .double d)
    (hdigit : ∀ b ∈ bs.head?, isDigit b = false) :
    x = ofInteger negative n ∧ rest = bs ∧ Ends bs := by
  cases bs with
  | nil =>
    simp only [afterInteger, Except.ok.injEq, Prod.mk.injEq] at h
    exact ⟨h.1.symm, h.2.symm, ends_nil⟩
  | cons b bs =>
    simp only [afterInteger] at h
    split at h
    · -- behind a point
      obtain ⟨d, hd⟩ := double_of_fraction _ _ _ _ _ _ _ h
      exact absurd hd (hx d)
    · split at h
      · -- behind an exponent mark
        obtain ⟨d, hd⟩ := double_of_exponent _ _ _ _ _ _ h
        exact absurd hd (hx d)
      · rename_i hpoint hmark
        simp only [Except.ok.injEq, Prod.mk.injEq] at h
        have hb : isDigit b = false := hdigit b rfl
        refine ⟨h.1.symm, h.2.symm, ends_cons b bs ?_⟩
        rw [goesOn_eq_false_iff]
        exact ⟨hb, Bool.eq_false_iff.mpr hpoint, Bool.eq_false_iff.mpr hmark⟩

/-- The integer digits of a number that is no double are followed by its end. -/
private theorem exists_digits_of_integerDigits (negative : Bool) (n : Nat) (bs rest : Bytes)
    (x : Numeral) (h : integerDigits negative n bs = .ok (x, rest)) (hx : ∀ d, x ≠ .double d) :
    ∃ digits, (∀ d ∈ digits, isDigit d = true) ∧ bs = digits ++ rest ∧ Ends rest ∧
      x = ofInteger negative (digitsFrom n digits) := by
  -- induction on the bytes: digits are taken until one does not fit or none comes
  induction bs generalizing n with
  | nil =>
    obtain ⟨rfl, rfl, hends⟩ := ends_of_afterInteger negative n [] rest x h hx (by simp)
    exact ⟨[], by simp, rfl, hends, rfl⟩
  | cons b bs ih =>
    simp only [integerDigits] at h
    split at h
    · rename_i hb
      split at h
      · -- the digit fits and goes in front
        obtain ⟨digits, hdigits, rfl, hends, hvalue⟩ := ih _ h
        exact ⟨b :: digits, List.forall_mem_cons.mpr ⟨hb, hdigits⟩, rfl, hends, hvalue⟩
      · -- a digit that does not fit would make a double
        obtain ⟨d, hd⟩ := double_of_overlong _ _ _ _ _ _ h
        exact absurd hd (hx d)
    · rename_i hb
      obtain ⟨rfl, rfl, hends⟩ := ends_of_afterInteger negative n _ rest x h hx
        (by simpa only [List.head?_cons, Option.mem_some_iff, forall_eq', Bool.not_eq_true] using hb)
      exact ⟨[], by simp, rfl, hends, rfl⟩

/-- A number that is no double was spelled by the digits of a natural number. -/
theorem exists_natural_of_read (negative : Bool) (bs rest : Bytes) (x : Numeral)
    (h : read negative bs = .ok (x, rest)) (hx : ∀ d, x ≠ .double d) :
    ∃ digits, Natural digits ∧ bs = digits ++ rest ∧ Ends rest ∧
      x = ofInteger negative (ofDigits digits) := by
  cases bs with
  | nil => cases h
  | cons b bs =>
    simp only [read] at h
    -- a zero stands alone; any other leading digit may be followed by more
    split at h
    · rename_i hzero
      obtain rfl := eq_of_beq hzero
      split at h
      · -- behind the zero no digit may come
        rename_i d tail
        split at h
        · cases h
        · rename_i hd
          obtain ⟨rfl, rfl, hends⟩ := ends_of_afterInteger negative 0 _ rest x h hx
            (by simpa only [List.head?_cons, Option.mem_some_iff, forall_eq', Bool.not_eq_true]
              using hd)
          exact ⟨[zeroDigit], .zero, rfl, hends, rfl⟩
      · obtain ⟨rfl, rfl, hends⟩ := ends_of_afterInteger negative 0 _ rest x h hx (by simp)
        exact ⟨[zeroDigit], .zero, rfl, hends, rfl⟩
    · split at h
      · -- a leading digit starts the row of digits
        rename_i hb
        obtain ⟨digits, hdigits, rfl, hends, hvalue⟩ :=
          exists_digits_of_integerDigits negative _ bs rest x h hx
        refine ⟨b :: digits, .leading hb hdigits, rfl, hends, ?_⟩
        -- the reader counts from the leading digit, the value from zero
        rw [hvalue, ofDigits, digitsFrom_cons, Nat.zero_mul, Nat.zero_add]
      · cases h

/-! ### Literals are read as their value -/

/-- A number that ends is read as the integer before its end. -/
private theorem afterInteger_of_ends (negative : Bool) (n : Nat) (rest : Bytes)
    (hends : Ends rest) : afterInteger negative n rest = .ok (ofInteger negative n, rest) := by
  cases rest with
  | nil => rfl
  | cons b rest =>
    obtain ⟨-, hpoint, hmark⟩ := (goesOn_eq_false_iff b).mp (hends b rfl)
    simp only [afterInteger, hpoint, hmark, Bool.false_eq_true, if_false]

/-- Digits that fit into 64 bits are read up to the end of the number. -/
private theorem integerDigits_append (negative : Bool) (n : Nat) (digits rest : Bytes)
    (hdigits : ∀ d ∈ digits, isDigit d = true) (hends : Ends rest)
    (hfits : digitsFrom n digits < unsignedLimit) :
    integerDigits negative n (digits ++ rest) =
      .ok (ofInteger negative (digitsFrom n digits), rest) := by
  -- induction on the digits, which all fit and are all taken
  induction digits generalizing n with
  | nil =>
    cases rest with
    | nil => rfl
    | cons b rest =>
      obtain ⟨hb, -⟩ := (goesOn_eq_false_iff b).mp (hends b rfl)
      simp only [List.nil_append, integerDigits, hb, Bool.false_eq_true, if_false]
      exact afterInteger_of_ends negative n (b :: rest) hends
  | cons d digits ih =>
    rw [digitsFrom_cons] at hfits ⊢
    have hd := hdigits d List.mem_cons_self
    -- the digits read so far are below the whole number, so they fit as well
    have hle := le_digitsFrom (n * 10 + digitValue d) digits
    have hfit : fits n (digitValue d) = true := by
      simp only [fits, decide_eq_true_eq]
      omega
    simp only [List.cons_append, integerDigits, hd, hfit, if_true]
    exact ih _ (fun d' hd' => hdigits d' (List.mem_cons_of_mem d hd')) hfits

/-- The digits of a natural number of 64 bits are read as that number. -/
theorem read_natural (negative : Bool) (digits rest : Bytes) (h : Natural digits)
    (hends : Ends rest) (hfits : ofDigits digits < unsignedLimit) :
    read negative (digits ++ rest) = .ok (ofInteger negative (ofDigits digits), rest) := by
  cases h with
  | zero =>
    have hvalue : ofDigits [zeroDigit] = 0 := by decide
    rw [hvalue]
    cases rest with
    | nil => rfl
    | cons b rest =>
      -- what follows the zero is no digit, point or exponent
      obtain ⟨hb, -⟩ := (goesOn_eq_false_iff b).mp (hends b rfl)
      simp only [List.cons_append, List.nil_append, read, beq_self_eq_true, if_true, hb,
        Bool.false_eq_true, if_false]
      exact afterInteger_of_ends negative 0 (b :: rest) hends
  | @leading b tail hb htail =>
    -- a leading digit is not the zero
    have hzero := beq_eq_false_of_test isLeadingDigit b zeroDigit hb rfl
    rw [ofDigits, digitsFrom_cons, Nat.zero_mul, Nat.zero_add] at hfits ⊢
    simp only [List.cons_append, read, hzero, Bool.false_eq_true, if_false, hb, if_true]
    exact integerDigits_append negative (digitValue b) tail rest htail hends hfits

/-! ### Decimal spelling -/

/-- The character of a digit is the byte of that digit. -/
private theorem digit_of_digitChar (n : Nat) (h : n < 10) :
    isDigit n.digitChar.toNat.toUInt8 = true ∧ digitValue n.digitChar.toNat.toUInt8 = n ∧
      (n ≠ 0 → isLeadingDigit n.digitChar.toNat.toUInt8 = true) := by
  have : ∀ n : Fin 10, isDigit n.val.digitChar.toNat.toUInt8 = true ∧
      digitValue n.val.digitChar.toNat.toUInt8 = n.val ∧
      (n.val ≠ 0 → isLeadingDigit n.val.digitChar.toNat.toUInt8 = true) := by decide
  exact this ⟨n, h⟩

/-- A number of one digit. -/
private theorem encodeNat_of_lt (n : Nat) (h : n < 10) :
    encodeNat n = [n.digitChar.toNat.toUInt8] := by
  rw [encodeNat, Nat.toDigits_of_lt_base h, List.map_singleton]

/-- The last digit stands behind the others. -/
private theorem encodeNat_of_le (n : Nat) (h : 10 ≤ n) :
    encodeNat n = encodeNat (n / 10) ++ [(n % 10).digitChar.toNat.toUInt8] := by
  rw [encodeNat, Nat.toDigits_of_base_le (by omega) h, List.map_append, List.map_singleton,
    encodeNat]

/-- The decimal digits of a number stand for that number. -/
theorem ofDigits_encodeNat (n : Nat) : ofDigits (encodeNat n) = n := by
  induction n using Nat.strongRecOn with
  | _ n ih =>
    -- on the number without its last digit
    by_cases h : n < 10
    · rw [encodeNat_of_lt n h, ofDigits, digitsFrom_cons, digitsFrom_nil,
        (digit_of_digitChar n h).2.1, Nat.zero_mul, Nat.zero_add]
    · have hn := ih (n / 10) (by omega)
      rw [ofDigits] at hn
      rw [encodeNat_of_le n (by omega), ofDigits, digitsFrom_append, hn, digitsFrom_cons,
        digitsFrom_nil, (digit_of_digitChar (n % 10) (by omega)).2.1]
      omega

/-- The decimal digits of a number above zero start with one that is not zero. -/
private theorem exists_leading_of_encodeNat (n : Nat) (h : 0 < n) :
    ∃ b tail, encodeNat n = b :: tail ∧ isLeadingDigit b = true ∧
      ∀ d ∈ tail, isDigit d = true := by
  -- the leading digit is that of the number without its last digit
  induction n using Nat.strongRecOn with
  | _ n ih =>
    by_cases hten : n < 10
    · exact ⟨_, [], encodeNat_of_lt n hten, (digit_of_digitChar n hten).2.2 (by omega), by simp⟩
    · obtain ⟨b, tail, henc, hb, htail⟩ := ih (n / 10) (by omega) (by omega)
      refine ⟨b, tail ++ [(n % 10).digitChar.toNat.toUInt8], ?_, hb, ?_⟩
      · rw [encodeNat_of_le n (by omega), henc, List.cons_append]
      · intro d hd
        -- a digit of the number without its last one, or the last one
        rcases List.mem_append.mp hd with hd | hd
        · exact htail d hd
        · rw [List.mem_singleton.mp hd]
          exact (digit_of_digitChar (n % 10) (by omega)).1

/-- The decimal digits of a number have no leading zeros. -/
theorem natural_encodeNat (n : Nat) : Natural (encodeNat n) := by
  by_cases h : n = 0
  · rw [h]
    exact .zero
  · obtain ⟨b, tail, henc, hb, htail⟩ := exists_leading_of_encodeNat n (by omega)
    rw [henc]
    exact .leading hb htail

/-- An integer in decimal is a literal for that integer. -/
theorem integerLiteral_encode (n : Int) : IntegerLiteral (encode n) n := by
  rw [encode]
  have hnat := natural_encodeNat n.natAbs
  have hvalue := ofDigits_encodeNat n.natAbs
  split
  · have hliteral := IntegerLiteral.negative hnat (by omega)
    rw [hvalue] at hliteral
    have : -(n.natAbs : Int) = n := by omega
    rwa [this] at hliteral
  · have hliteral := IntegerLiteral.unsigned hnat
    rw [hvalue] at hliteral
    have : (n.natAbs : Int) = n := by omega
    rwa [this] at hliteral

end OneShot.Json.Numeral
