import Mathlib.Logic.Function.Basic
import OneShot.Message
import OneShot.Proofs.Text.Quoted

/-!
# Summaries of messages

The summary of a message is made for people, but nothing is lost in it. The text is quoted, so that
its end can be seen whatever it says, also if it imitates what stands behind it; the identifier
follows in decimal. Nothing in a summary is a control character.

## Key results

- `summary_injective`: different messages have different summaries
- `not_isControl_of_mem_summary`: a summary has no control characters
-/

namespace OneShot.Message

/-! ### Decimal numbers -/

/-- A decimal number consists of digits. -/
private theorem isDigit_of_mem_repr {n : Nat} {c : Char} (hc : c ∈ n.repr.toList) :
    c.isDigit = true := by
  rw [Nat.toList_repr] at hc
  exact Nat.isDigit_of_mem_toDigits (by decide) (by decide) hc

/-- A number can be told from its digits. -/
private theorem natRepr_injective : Function.Injective Nat.repr := by
  intro m n h
  have hdigits := congrArg String.toList h
  rw [Nat.toList_repr, Nat.toList_repr] at hdigits
  rw [← Nat.ofDigitChars_ten_toDigits (n := m), hdigits, Nat.ofDigitChars_ten_toDigits]

/-- A number can be told from its sign and its digits. -/
private theorem intRepr_injective : Function.Injective Int.repr := by
  -- a number with a sign is none without
  have hsign (m n : Nat) : m.repr ≠ "-" ++ n.repr := by
    intro h
    have hmem : '-' ∈ m.repr.toList := by simp [h]
    exact absurd (isDigit_of_mem_repr hmem) (by decide)
  intro a b h
  rw [Int.repr_eq_if, Int.repr_eq_if] at h
  -- both without a sign, only one with a sign, or both with it
  split at h <;> split at h
  · have hsame := natRepr_injective h
    omega
  · exact absurd h (hsign _ _)
  · exact absurd h.symm (hsign _ _)
  · have hdigits := natRepr_injective ((String.append_right_inj _).mp h)
    omega

/-! ### Summaries -/

/-- The characters of a summary. -/
private theorem toList_summary (m : Message) :
    m.summary.toList = ['\x7b', 't', 'e', 'x', 't', ':', ' ', '"'] ++ (Text.escape m.text.toList ++
      '"' :: ([',', ' ', 'i', 'd', ':', ' '] ++ (m.id.toInt.repr.toList ++ ['\x7d']))) := by
  simp [summary, Text.quote]

/-- A summary shows the end of the text, and so what stands behind it: different messages have
different summaries. -/
theorem summary_injective : Function.Injective summary := by
  intro a b h
  have hchars := congrArg String.toList h
  rw [toList_summary, toList_summary] at hchars
  obtain ⟨htext, hbehind⟩ := Text.escape_append_quote_inj (List.append_cancel_left hchars)
  have hdigits := List.append_cancel_right (List.append_cancel_left hbehind)
  have hid : a.id.toInt = b.id.toInt := intRepr_injective (String.toList_inj.mp hdigits)
  show (⟨a.text, a.id⟩ : Message) = ⟨b.text, b.id⟩
  rw [String.toList_inj.mp htext, Int64.toInt_inj.mp hid]

/-- A text may imitate what stands behind it. -/
example : summary ⟨"a\", id: 1\x7d\n", 2⟩ = "\x7btext: \"a\\\", id: 1\x7d\\n\", id: 2\x7d" := by
  cbv

/-- There are no control characters in a decimal number. -/
private theorem not_isControl_of_mem_repr (n : Int) (c : Char) (hc : c ∈ n.repr.toList) :
    ¬Text.IsControl c := by
  -- the digits are not control characters
  have hdigits : ∀ k : Nat, c ∈ k.repr.toList → ¬Text.IsControl c := by
    intro k hmem
    have hrange : 0x30 ≤ c.toNat ∧ c.toNat ≤ 0x39 :=
      Char.isDigit_iff_toNat.mp (isDigit_of_mem_repr hmem)
    unfold Text.IsControl
    omega
  rw [Int.repr_eq_if] at hc
  -- digits, with a minus sign in front or without
  split at hc
  · exact hdigits _ hc
  · rw [String.toList_append, List.mem_append] at hc
    cases hc with
    | inl hsign =>
      rw [List.mem_singleton.mp hsign]
      decide
    | inr hmem => exact hdigits _ hmem

/-- A summary has no control characters. -/
theorem not_isControl_of_mem_summary (m : Message) (c : Char) (hc : c ∈ m.summary.toList) :
    ¬Text.IsControl c := by
  have hopening : ∀ c ∈ ['\x7b', 't', 'e', 'x', 't', ':', ' ', '"'], ¬Text.IsControl c := by
    simp [Text.IsControl]
  have hmiddle : ∀ c ∈ ['"', ',', ' ', 'i', 'd', ':', ' '], ¬Text.IsControl c := by
    simp [Text.IsControl]
  rw [toList_summary, ← List.cons_append, List.mem_append, List.mem_append, List.mem_append,
    List.mem_append, List.mem_singleton] at hc
  -- the opening, the escaped text, the middle, the digits and the closing brace
  obtain hc | hc | hc | hc | rfl := hc
  · exact hopening c hc
  · exact Text.not_isControl_of_mem_escape _ c hc
  · exact hmiddle c hc
  · exact not_isControl_of_mem_repr _ c hc
  · decide

end OneShot.Message
