import OneShot.Toml.Scalar

/-!
# Numbers are read as they were written

A natural number is written in decimal. Its digits are no date and no time, have no leading zero and
stand for the number, so they are read as that number.

## Key results

- `read?_toDigits`: the decimal digits of a number are read as that number
-/

namespace OneShot.Toml.Scalar

section Digits

variable {cs : List Char} (h : ∀ c ∈ cs, c.isDigit = true)

/-- A digit has its value in base ten. -/
theorem digitIn?_of_isDigit (c : Char) (hc : c.isDigit = true) :
    digitIn? 10 c = some (c.toNat - '0'.toNat) := by
  simp only [Char.isDigit, Bool.and_eq_true, decide_eq_true_eq, ge_iff_le] at hc
  have hle : c.toNat ≤ '9'.toNat := UInt32.le_iff_toNat_le.mp hc.2
  have hvalue : c.toNat - '0'.toNat < 10 := by
    simp only [show '9'.toNat = 57 from rfl, show '0'.toNat = 48 from rfl] at *
    omega
  have hhex : hexValue? c = some (c.toNat - '0'.toNat) := if_pos hc
  rw [digitIn?, hhex, Option.filter_some, if_pos (decide_eq_true hvalue)]

/-- A digit that is not zero has another value. -/
private theorem sub_ne_zero_of_isDigit (c : Char) (hc : c.isDigit = true) (hzero : c ≠ '0') :
    c.toNat - '0'.toNat ≠ 0 := by
  simp only [Char.isDigit, Bool.and_eq_true, decide_eq_true_eq, ge_iff_le] at hc
  have hle : '0'.toNat ≤ c.toNat := UInt32.le_iff_toNat_le.mp hc.1
  have hne : c.toNat ≠ '0'.toNat := fun heq => hzero (Char.toNat_inj.mp heq)
  omega

/-- A digit is none of the characters that are no digits. -/
private theorem ne_of_isDigit {c d : Char} (hc : c.isDigit = true) (hd : d.isDigit = false) :
    c ≠ d :=
  ne_of_apply_ne Char.isDigit (by rw [hc, hd]; decide)

include h in
/-- Digits are read one by one. -/
theorem digitsFrom_of_isDigit (afterDigit : Bool) (hne : afterDigit = true ∨ cs ≠ []) :
    digitsFrom 10 afterDigit cs = some (cs.map fun c => c.toNat - '0'.toNat) := by
  -- induction on the digits, behind each of which the number may end
  induction cs generalizing afterDigit with
  | nil =>
    rw [digitsFrom, if_pos (hne.resolve_right (fun h => h rfl))]
    rfl
  | cons c cs ih =>
    have hc := h c List.mem_cons_self
    rw [digitsFrom, if_neg (ne_of_isDigit hc rfl), digitIn?_of_isDigit c hc]
    simp only
    rw [ih (fun d hd => h d (List.mem_cons_of_mem c hd)) true (.inl rfl)]
    rfl

include h in
private theorem expect?_eq_none (d : Char) (hd : d.isDigit = false) : expect? d cs = none := by
  cases cs with
  | nil => rfl
  | cons c cs => rw [expect?, if_neg (ne_of_isDigit (h c List.mem_cons_self) hd)]

include h in
/-- Behind two of the digits there are digits only. -/
private theorem isDigit_of_twoDigits? {greatest v : Nat} {rest : List Char}
    (htwo : twoDigits? greatest cs = some (v, rest)) : ∀ c ∈ rest, c.isDigit = true := by
  unfold twoDigits? at htwo
  split at htwo
  · -- the two characters are digits, and what is left is as before
    rename_i a b cs
    rw [digitIn?_of_isDigit a (h a (by simp)), digitIn?_of_isDigit b (h b (by simp))] at htwo
    simp only [Option.bind_eq_bind, Option.bind_some] at htwo
    split at htwo
    · cases htwo
      exact fun c hc => h c (by simp [hc])
    · cases htwo
  · cases htwo

include h in
/-- Digits alone are no date. -/
private theorem date?_eq_none : date? cs = none := by
  unfold date?
  cases hcentury : twoDigits? 99 cs with
  | none => rfl
  | some century =>
    have hrest := isDigit_of_twoDigits? h hcentury
    cases hyear : twoDigits? 99 century.2 with
    | none => simp [hyear]
    | some year =>
      -- behind the year stands no dash
      have hnone := expect?_eq_none (isDigit_of_twoDigits? hrest hyear) '-' rfl
      simp [hyear, hnone]

include h in
/-- Digits alone are no time. -/
private theorem time?_eq_none : time? cs = none := by
  unfold time?
  cases hhour : twoDigits? 23 cs with
  | none => rfl
  | some hour =>
    -- behind the hour stands no colon
    have hnone := expect?_eq_none (isDigit_of_twoDigits? h hhour) ':' rfl
    simp [hnone]

include h in
theorem isDate_of_isDigit : isDate cs = false := by
  rw [isDate, date?_eq_none h]
  rfl

include h in
theorem isDateTime_of_isDigit : isDateTime cs = false := by
  rw [isDateTime, date?_eq_none h]
  simp only
  rw [time?_eq_none h]
  rfl

/-- Digits without a leading zero are read as the number that they stand for. -/
private theorem read?_of_isDigit (h : ∀ c ∈ cs, c.isDigit = true) (ds : List Nat)
    (hds : decimalDigits? cs = some ds) : read? cs = some (.integer (ofDigits 10 ds)) := by
  -- what is no digit does not occur
  have hmem : ∀ d, d.isDigit = false → d ∉ cs := fun d hd hmem => ne_of_isDigit (h d hmem) hd rfl
  have hsign : splitSign cs = (false, cs) := by
    -- no prefix for another base, so the digits are decimal
    unfold splitSign
    split
    · exact absurd List.mem_cons_self (hmem '-' rfl)
    · exact absurd List.mem_cons_self (hmem '+' rfl)
    · rfl
  unfold read?
  rw [if_neg (fun heq => hmem 't' rfl (by simp [heq])),
    if_neg (fun heq => hmem 'f' rfl (by simp [heq])),
    if_neg (by simp [isDateTime_of_isDigit h])]
  split
  · exact absurd (by simp) (hmem 'x' rfl)
  · exact absurd (by simp) (hmem 'o' rfl)
  · exact absurd (by simp) (hmem 'b' rfl)
  · simp only [hsign]
    rw [number?, if_neg (fun heq => hmem 'i' rfl (by simp [heq])),
      if_neg (fun heq => hmem 'a' rfl (by simp [heq])), hds]
    rfl

end Digits

/-- A number above zero has no leading zero. -/
private theorem exists_leading_of_toDigits (n : Nat) (h : 0 < n) :
    ∃ c tail, Nat.toDigits 10 n = c :: tail ∧ c ≠ '0' := by
  -- the leading digit is that of the number without its last digit
  induction n using Nat.base_induction 10 (by decide) with
  | single m hm =>
    have hdigit : ∀ m < 10, 0 < m → m.digitChar ≠ '0' := by decide
    exact ⟨m.digitChar, [], Nat.toDigits_of_lt_base hm, hdigit m hm h⟩
  | digit m k hk hm ih =>
    obtain ⟨c, tail, htail, hc⟩ := ih hm
    rw [← Nat.toDigits_append_toDigits (by decide) hm hk, htail]
    exact ⟨c, tail ++ Nat.toDigits 10 k, rfl, hc⟩

/-- The digits of a number are those that its characters stand for. -/
private theorem decimalDigits?_toDigits (n : Nat) : decimalDigits? (Nat.toDigits 10 n) =
    some ((Nat.toDigits 10 n).map fun c => c.toNat - '0'.toNat) := by
  have hdigits : ∀ c ∈ Nat.toDigits 10 n, c.isDigit = true :=
    fun c hc => Nat.isDigit_of_mem_toDigits (by decide) (by decide) hc
  rw [decimalDigits?, digitsFrom_of_isDigit hdigits false (.inr Nat.toDigits_ne_nil)]
  -- zero is one digit, and no other number starts with a zero
  by_cases hzero : n = 0
  · rw [hzero]
    rfl
  · obtain ⟨c, tail, heq, hc⟩ := exists_leading_of_toDigits n (by omega)
    have hnonzero : c.toNat - '0'.toNat ≠ 0 :=
      sub_ne_zero_of_isDigit c (hdigits c (heq ▸ List.mem_cons_self)) hc
    rw [heq, List.map_cons]
    -- one digit alone, a zero in front of others, or neither
    split
    · rename_i hsingle
      exact hsingle.symm
    · rename_i hleading
      exact absurd (List.cons.inj (Option.some.inj hleading)).1 hnonzero
    · rfl

/-- The digits of a number stand for it. -/
private theorem ofDigits_toDigits (n : Nat) :
    ofDigits 10 ((Nat.toDigits 10 n).map fun c => c.toNat - '0'.toNat) = n := by
  have hvalue := Nat.ofDigitChars_ten_toDigits (n := n)
  rw [Nat.ofDigitChars_eq_foldl] at hvalue
  rw [ofDigits, List.foldl_map]
  simpa only [Nat.mul_comm] using hvalue

/-- The decimal digits of a number are read as that number. -/
theorem read?_toDigits (n : Nat) : read? (Nat.toDigits 10 n) = some (.integer n) := by
  have hdigits : ∀ c ∈ Nat.toDigits 10 n, c.isDigit = true :=
    fun c hc => Nat.isDigit_of_mem_toDigits (by decide) (by decide) hc
  rw [read?_of_isDigit hdigits _ (decimalDigits?_toDigits n), ofDigits_toDigits]

end OneShot.Toml.Scalar
