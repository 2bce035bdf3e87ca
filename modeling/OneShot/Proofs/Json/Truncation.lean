import OneShot.Proofs.Json.Integers
import OneShot.Proofs.Json.Strings

/-!
# Strings and integers that are cut off

Reading a beginning of a string fails for want of bytes wherever the cut falls, inside an escape, in a
surrogate pair or in a character of several bytes. A beginning of an integer literal is a literal for
an integer nearer to zero, as long as a digit is left of it.

## Key results

- `StringBody.read_of_prefix`: a string that is cut off before its closing quote is unfinished
- `Numeral.literal_of_prefix`: what a beginning of an integer literal can be
-/

namespace OneShot.Json

/-! ### Beginnings -/

/-- A beginning of two parts ends in the first one, or is the first one and a beginning of the
second. -/
theorem prefix_append_cases {α : Type} {p a b : List α} (h : p <+: a ++ b) :
    p <+: a ∨ ∃ q, p = a ++ q ∧ q <+: b := by
  obtain ⟨t, ht⟩ := h
  rcases List.append_eq_append_iff.mp ht with ⟨q, rfl, -⟩ | ⟨q, rfl, hq⟩
  · exact .inl (List.prefix_append p q)
  · exact .inr ⟨q, rfl, t, hq.symm⟩

/-- The bytes ended too early. -/
def Unfinished {α : Type} (x : Except Fault α) : Prop :=
  ∃ f, x = .error f ∧ f.cause.category = .unfinished

/-! ### Strings -/

namespace StringBody

/-- The fault of a string that is cut off. -/
private def cutOff : Fault := ⟨.endInString, [], 0⟩

/-- Fewer than four digits are no numeric escape yet. -/
private theorem fourDigits_of_prefix (digits p : Bytes) (n : Nat) (h : HexQuad digits n)
    (hp : p <+: digits) : fourDigits p = .error cutOff ∨ p = digits := by
  obtain ⟨hp₁, hp₂, hp₃, hp₄⟩ := h
  -- one case for each number of bytes that are left
  match p, hp with
  | [], _ | [_], _ | [_, _], _ | [_, _, _], _ => exact .inl rfl
  | _ :: _ :: _ :: _ :: p, hp => exact .inr (hp.eq_of_length_le (by simp))

/-- The second half of a pair that is cut off is unfinished. -/
private theorem trailing_of_prefix (high low : Nat) (digits p : Bytes) (h : HexQuad digits low)
    (hp : p <+: backslash :: 0x75 :: digits) :
    trailing high p = .error cutOff ∨ p = backslash :: 0x75 :: digits := by
  rcases List.prefix_cons_iff.mp hp with rfl | ⟨q, rfl, hq⟩
  · exact .inl rfl
  rcases List.prefix_cons_iff.mp hq with rfl | ⟨r, rfl, hr⟩
  · exact .inl rfl
  rcases fourDigits_of_prefix digits r low h hr with hfour | rfl
  · left
    simp only [trailing, pairByte, beq_self_eq_true, if_true, hfour, bind, Except.bind]
  · exact .inr rfl

/-- An escape that is cut off is unfinished. -/
private theorem escape_of_prefix (e p : Bytes) (c : Char) (h : Escape e c) (hp : p <+: e) :
    escape p = .error cutOff ∨ p = e := by
  -- what stands behind the letter of a numeric escape
  have hnumeric : ∀ q, escape (0x75 :: q) = numeric q := fun q => rfl
  cases h with
  | letter hletter =>
    rcases List.prefix_cons_iff.mp hp with rfl | ⟨q, rfl, hq⟩
    · exact .inl rfl
    · rw [List.prefix_nil.mp hq]
      exact .inr rfl
  | @scalar digits n hquad hn =>
    rcases List.prefix_cons_iff.mp hp with rfl | ⟨q, rfl, hq⟩
    · -- the `u` itself is cut off
      exact .inl rfl
    rcases fourDigits_of_prefix digits q n hquad hq with hfour | rfl
    · exact .inl (by rw [hnumeric, numeric, hfour])
    · exact .inr rfl
  | @pair digits digits' high low hquad hhigh hquad' hlow =>
    rcases List.prefix_cons_iff.mp hp with rfl | ⟨q, rfl, hq⟩
    · exact .inl rfl
    rw [hnumeric]
    -- either half of the pair may be cut off, or nothing
    have hhalves : fourDigits q = .error cutOff ∨
        ∃ r, q = digits ++ r ∧ r <+: backslash :: 0x75 :: digits' := by
      rcases prefix_append_cases hq with hq | hq
      · rcases fourDigits_of_prefix digits q high hquad hq with hfour | rfl
        · exact .inl hfour
        · exact .inr ⟨[], (List.append_nil _).symm, List.nil_prefix⟩
      · exact .inr hq
    rcases hhalves with hfour | ⟨r, rfl, hr⟩
    · exact .inl (by rw [numeric, hfour])
    -- the first half is there, so the second decides
    · have hfour := (fourDigits_eq_ok_iff (digits ++ r) r high).mpr ⟨digits, hquad, rfl⟩
      have htrailing : numeric (digits ++ r) = trailing high r := by
        simp only [numeric, hfour]
        rw [if_neg (by omega), if_neg (by omega)]
      rcases trailing_of_prefix high low digits' r hquad' hr with h | rfl
      · exact .inl (htrailing.trans h)
      · exact .inr rfl

/-- Scanning stops at an escape that is unfinished. -/
private theorem scan_backslash (done bs : Bytes) (h : escape bs = .error cutOff) :
    scan done (backslash :: bs) = .error cutOff := by
  have hquote : (backslash == quoteByte) = false := by decide
  rw [scan]
  simp only [hquote, beq_self_eq_true, if_true, Bool.false_eq_true, if_false]
  split
  · rename_i heq
    cases h.symm.trans heq
  · rename_i heq
    obtain rfl := Except.error.inj (heq.symm.trans h)
    rfl

/-- Scanning a beginning of a string finds no closing quote. -/
private theorem scan_of_prefix (done spelling content p : Bytes) (h : Unescapes spelling content)
    (hp : p <+: spelling) : scan done p = .error cutOff := by
  have hnil : ∀ done, scan done [] = .error cutOff := fun done => by rw [scan]; rfl
  -- induction on the spelling: a raw byte or an escape is taken as a whole, or is cut off
  induction h generalizing done p with
  | nil => rw [List.prefix_nil.mp hp, hnil]
  | raw hb h ih =>
    rcases List.prefix_cons_iff.mp hp with rfl | ⟨q, rfl, hq⟩
    · exact hnil done
    · rw [scan_raw done q _ hb]
      exact ih _ q hq
  | @escape e spelling content c he h ih =>
    rcases List.prefix_cons_iff.mp hp with rfl | ⟨q, rfl, hq⟩
    · exact hnil done
    -- either the escape is cut off, or something after it
    rcases prefix_append_cases hq with hq | ⟨r, rfl, hr⟩
    · rcases escape_of_prefix e q c he hq with hescape | rfl
      · exact scan_backslash done q hescape
      · have hscan := scan_escape done q [] c he
        rwa [List.append_nil, hnil] at hscan
    · rw [scan_escape done e r c he]
      exact ih _ r hr

/-- A string that is cut off before its closing quote is unfinished. -/
theorem read_of_prefix (spelling p : Bytes) (s : String) (h : Denotes spelling s)
    (hp : p <+: spelling) : Unfinished (read p) :=
  ⟨cutOff, by rw [read, scan_of_prefix [] spelling _ p h hp], rfl⟩

end StringBody

/-! ### Integers -/

namespace Numeral

/-- The first digit of a natural number that is not zero counts. -/
private theorem digitValue_pos (b : UInt8) (hb : isLeadingDigit b = true) : 0 < digitValue b := by
  simp only [isLeadingDigit, Bool.and_eq_true, decide_eq_true_eq, UInt8.le_iff_toNat_le] at hb
  have : (0x31 : UInt8).toNat = 0x31 := rfl
  simp only [digitValue]
  omega

/-- A beginning of a natural number is a smaller one, and not zero unless the whole is. -/
private theorem natural_of_prefix (digits p : Bytes) (h : Natural digits) (hp : p <+: digits)
    (hne : p ≠ []) :
    Natural p ∧ ofDigits p ≤ ofDigits digits ∧ (ofDigits digits ≠ 0 → ofDigits p ≠ 0) := by
  cases h with
  | zero =>
    rcases List.prefix_cons_iff.mp hp with rfl | ⟨q, rfl, hq⟩
    · exact absurd rfl hne
    · rw [List.prefix_nil.mp hq]
      exact ⟨.zero, Nat.le_refl _, id⟩
  | @leading b tail hb htail =>
    rcases List.prefix_cons_iff.mp hp with rfl | ⟨q, rfl, t, rfl⟩
    · exact absurd rfl hne
    -- the leading digit is kept, so the number is not zero
    have hpos := digitValue_pos b hb
    have hle := le_digitsFrom (digitValue b) q
    refine ⟨.leading hb fun d hd => htail d (List.mem_append_left t hd), ?_, fun _ => ?_⟩
    -- more digits make a number no smaller
    · rw [ofDigits, ofDigits, ← List.cons_append, digitsFrom_append]
      exact le_digitsFrom _ t
    · rw [ofDigits, digitsFrom_cons, Nat.zero_mul, Nat.zero_add]
      omega

/-- A beginning of an integer literal is one for an integer between zero and the whole, unless no
digit is left. -/
theorem literal_of_prefix (v p : Bytes) (n : Int) (h : IntegerLiteral v n) (hp : p <+: v) :
    p = [] ∨ p = [minus] ∨
      ∃ k, IntegerLiteral p k ∧ (0 ≤ k ∧ k ≤ n ∨ n ≤ k ∧ k ≤ 0) := by
  by_cases hnil : p = []
  · exact .inl hnil
  -- what is kept of the digits is a number between zero and the whole one
  cases h with
  | unsigned h =>
    obtain ⟨hnatural, hle, -⟩ := natural_of_prefix v p h hp hnil
    exact .inr (.inr ⟨_, .unsigned hnatural, .inl (by omega)⟩)
  | @negative digits h hzero =>
    rcases List.prefix_cons_iff.mp hp with rfl | ⟨q, rfl, hq⟩
    · exact absurd rfl hnil
    by_cases hq' : q = []
    · -- only the sign is left
      exact .inr (.inl (by rw [hq']))
    obtain ⟨hnatural, hle, hne⟩ := natural_of_prefix digits q h hq hq'
    exact .inr (.inr ⟨_, .negative hnatural (hne hzero), .inr (by omega)⟩)

end Numeral

end OneShot.Json
