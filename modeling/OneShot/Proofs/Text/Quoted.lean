import Mathlib.Data.List.Basic
import OneShot.Text.Quoted

/-!
# Quoted text is one line, and unambiguous

No character of a quoted text is a control character. And the text between the quotes is determined
by its spelling: where the spelling of a character ends does not depend on what comes behind it, and
no spelling begins with a quote. So the first quote that begins no spelling is the end of the text,
whatever the text says and whatever follows.

## Key results

- `escapeChar_cases`: a character stands for itself, or a backslash begins its escape
- `escapeChar_append_inj`: the spelling of a character shows the character and its own end
- `escape_append_quote_inj`: a text that is followed by a quote shows its own end
- `not_isControl_of_mem_escape`: the spelling of a text has no control characters
-/

namespace OneShot.Text

/-- Whether a character is an ASCII control character. -/
def IsControl (c : Char) : Prop := c.toNat < 0x20 ∨ c.toNat = 0x7F

instance : DecidablePred IsControl :=
  fun c => inferInstanceAs (Decidable (c.toNat < 0x20 ∨ c.toNat = 0x7F))

/-- Control characters have no printed form. -/
theorem isUnprintable_of_isControl {c : Char} (h : IsControl c) : isUnprintable c = true := by
  have hranges : ∀ n : Fin 0x80, n.val < 0x20 ∨ n.val = 0x7F →
      inRanges n.val unprintableRanges = true := by decide
  have hlt : c.toNat < 0x80 := by
    unfold IsControl at h
    omega
  exact hranges ⟨c.toNat, hlt⟩ h

/-! ### Hexadecimal numbers -/

/-- The last digit of a number stands behind those of its sixteenth part. -/
private theorem lowerHex_eq (n : Nat) :
    lowerHex n = (if n < 16 then [] else lowerHex (n / 16)) ++ [(n % 16).digitChar] := by
  unfold lowerHex
  split
  · rename_i h
    rw [Nat.toDigits_of_lt_base h, Nat.mod_eq_of_lt h, List.nil_append]
  · rename_i h
    exact Nat.toDigits_of_base_le (by decide) (by omega)

private theorem digitChar_inj {m n : Nat} (hm : m < 16) (hn : n < 16)
    (h : m.digitChar = n.digitChar) : m = n := by
  have hdigits : ∀ m n : Fin 16, m.val.digitChar = n.val.digitChar → m.val = n.val := by decide
  exact hdigits ⟨m, hm⟩ ⟨n, hn⟩ h

/-- Numbers with the same digits are the same. -/
theorem lowerHex_injective : Function.Injective lowerHex := by
  intro m
  -- induction on the number: the last digits agree, and so do the numbers in front of them
  induction m using Nat.strongRecOn with
  | _ m ih =>
    intro n h
    rw [lowerHex_eq m, lowerHex_eq n] at h
    obtain ⟨hinit, hlast⟩ := List.append_inj' h rfl
    have hmod : m % 16 = n % 16 :=
      digitChar_inj (by omega) (by omega) (List.singleton_inj.mp hlast)
    -- a number with other digits in front is not below sixteen
    split at hinit <;> split at hinit
    · omega
    · exact absurd hinit.symm Nat.toDigits_ne_nil
    · exact absurd hinit Nat.toDigits_ne_nil
    · have hdiv := ih (m / 16) (by omega) hinit
      omega

/-- The digits are those up to fifteen. -/
private theorem exists_digit_of_mem_lowerHex (n : Nat) (c : Char) (h : c ∈ lowerHex n) :
    ∃ d : Fin 16, c = d.val.digitChar := by
  -- induction on the number: its last digit, and those of the quotient
  induction n using Nat.strongRecOn with
  | _ n ih =>
    rw [lowerHex_eq n, List.mem_append, List.mem_singleton] at h
    cases h with
    | inl hinit =>
      split at hinit
      · cases hinit
      · exact ih (n / 16) (by omega) hinit
    | inr hlast => exact ⟨⟨n % 16, by omega⟩, hlast⟩

/-- What stands before the first `q` is determined, and so is what stands behind it. -/
private theorem append_cons_inj {q : Char} {a b r u : List Char} (ha : q ∉ a) (hb : q ∉ b)
    (h : a ++ q :: r = b ++ q :: u) : a = b ∧ r = u := by
  -- induction on the first list; the mark stands in neither, so both end together
  induction a generalizing b with
  | nil =>
    cases b with
    | nil => exact ⟨rfl, (List.cons.inj h).2⟩
    | cons d b => exact absurd (List.cons.inj h).1 (fun hq => hb (hq ▸ List.mem_cons_self))
  | cons c a ih =>
    cases b with
    | nil => exact absurd (List.cons.inj h).1 (fun hq => ha (hq ▸ List.mem_cons_self))
    | cons d b =>
      obtain ⟨rfl, htail⟩ := List.cons.inj h
      obtain ⟨rfl, hrest⟩ := ih (fun hq => ha (.tail _ hq)) (fun hq => hb (.tail _ hq)) htail
      exact ⟨rfl, hrest⟩

/-! ### Spellings -/

/-- The characters with a short escape, and its letter. -/
def shortEscapes : List (Char × Char) :=
  [('\x00', '0'), ('\t', 't'), ('\r', 'r'), ('\n', 'n'), ('"', '"'), ('\\', '\\')]

/-- What follows the backslash in the spelling of a character. -/
inductive Escape : Char → List Char → Prop where
  | short {c letter : Char} (h : (c, letter) ∈ shortEscapes) : Escape c [letter]
  | numeric (c : Char) : Escape c ('u' :: '\x7b' :: (lowerHex c.toNat ++ ['\x7d']))

/-- A character stands for itself if it prints and is neither a quote nor a backslash. A backslash
begins the spelling of all others. -/
theorem escapeChar_cases (c : Char) :
    (escapeChar c = [c] ∧ c ≠ '"' ∧ c ≠ '\\' ∧ ¬IsControl c) ∨
    ∃ tail, Escape c tail ∧ escapeChar c = '\\' :: tail := by
  unfold escapeChar
  -- the six letters first, then what prints, and a code for the rest
  split
  · exact .inr ⟨_, .short (by decide), rfl⟩
  · exact .inr ⟨_, .short (by decide), rfl⟩
  · exact .inr ⟨_, .short (by decide), rfl⟩
  · exact .inr ⟨_, .short (by decide), rfl⟩
  · exact .inr ⟨_, .short (by decide), rfl⟩
  · exact .inr ⟨_, .short (by decide), rfl⟩
  · rename_i hquote hbackslash
    split
    · rename_i hascii
      refine .inl ⟨rfl, hquote, hbackslash, ?_⟩
      unfold IsControl
      omega
    · split
      · exact .inr ⟨_, .numeric c, rfl⟩
      · -- it prints, so it is no control character
        rename_i hprints
        exact .inl ⟨rfl, hquote, hbackslash, fun h => hprints (isUnprintable_of_isControl h)⟩

/-- An escape shows its character and its own end. -/
theorem Escape.append_inj {c d : Char} {a b r u : List Char} (ha : Escape c a) (hb : Escape d b)
    (h : a ++ r = b ++ u) : c = d ∧ r = u := by
  have hletters : ∀ p ∈ shortEscapes, ∀ q ∈ shortEscapes, p.2 = q.2 → p.1 = q.1 := by decide
  have hnumeric : ∀ p ∈ shortEscapes, p.2 ≠ 'u' := by decide
  -- a code ends with the first brace behind it
  have hend : ∀ n, '\x7d' ∉ lowerHex n := by
    intro n hmem
    obtain ⟨d, hd⟩ := exists_digit_of_mem_lowerHex n _ hmem
    have hdigits : ∀ d : Fin 16, '\x7d' ≠ d.val.digitChar := by decide
    exact hdigits d hd
  -- two letters, two codes, or one of each, which begin differently
  cases ha with
  | short hc =>
    cases hb with
    | short hd =>
      obtain ⟨hletter, hrest⟩ := List.cons.inj h
      exact ⟨hletters _ hc _ hd hletter, hrest⟩
    | numeric => exact absurd (List.cons.inj h).1 (hnumeric _ hc)
  | numeric =>
    cases hb with
    | short hd => exact absurd (List.cons.inj h).1.symm (hnumeric _ hd)
    | numeric =>
      -- both are numbers between braces
      simp only [List.cons_append, List.append_assoc, List.nil_append, List.cons.injEq,
        true_and] at h
      obtain ⟨hhex, hrest⟩ := append_cons_inj (hend _) (hend _) h
      exact ⟨Char.toNat_inj.mp (lowerHex_injective hhex), hrest⟩

/-- The spelling of a character shows the character and its own end. -/
theorem escapeChar_append_inj {c d : Char} {r u : List Char}
    (h : escapeChar c ++ r = escapeChar d ++ u) : c = d ∧ r = u := by
  obtain ⟨hc, -, hcslash, -⟩ | ⟨a, ha, hc⟩ := escapeChar_cases c
  · obtain ⟨hd, -, hdslash, -⟩ | ⟨b, hb, hd⟩ := escapeChar_cases d
    · -- both stand for themselves
      rw [hc, hd] at h
      exact List.cons.inj h
    · rw [hc, hd] at h
      exact absurd (List.cons.inj h).1 hcslash
  · -- an escape begins with a backslash, and no other character does
    obtain ⟨hd, -, hdslash, -⟩ | ⟨b, hb, hd⟩ := escapeChar_cases d
    · rw [hc, hd] at h
      exact absurd (List.cons.inj h).1.symm hdslash
    · rw [hc, hd] at h
      exact ha.append_inj hb (List.cons.inj h).2

/-- No spelling begins with a quote. -/
private theorem escapeChar_append_ne (c : Char) (r u : List Char) : escapeChar c ++ r ≠ '"' :: u := by
  intro h
  obtain ⟨hc, hquote, -, -⟩ | ⟨a, -, hc⟩ := escapeChar_cases c
  · rw [hc] at h
    exact hquote (List.cons.inj h).1
  · rw [hc] at h
    exact absurd (List.cons.inj h).1 (by decide)

/-- A text that is followed by a quote shows its own end: the text is determined, and so is what
stands behind the quote. -/
theorem escape_append_quote_inj {s t r u : List Char}
    (h : escape s ++ '"' :: r = escape t ++ '"' :: u) : s = t ∧ r = u := by
  -- induction on the first text; the second one has to keep pace, as no spelling begins with a quote
  induction s generalizing t with
  | nil =>
    cases t with
    | nil => exact ⟨rfl, (List.cons.inj h).2⟩
    | cons d t =>
      rw [escape, escape, List.flatMap_cons, List.append_assoc] at h
      exact absurd h.symm (escapeChar_append_ne d _ _)
  | cons c s ih =>
    cases t with
    | nil =>
      rw [escape, List.flatMap_cons, List.append_assoc] at h
      exact absurd h (escapeChar_append_ne c _ _)
    | cons d t =>
      rw [escape, escape, List.flatMap_cons, List.flatMap_cons, List.append_assoc,
        List.append_assoc] at h
      obtain ⟨rfl, htail⟩ := escapeChar_append_inj h
      obtain ⟨rfl, hrest⟩ := ih htail
      exact ⟨rfl, hrest⟩

/-! ### Control characters -/

/-- An escape has no control characters. -/
theorem Escape.not_isControl {c : Char} {tail : List Char} (h : Escape c tail) (d : Char)
    (hd : d ∈ tail) : ¬IsControl d := by
  -- a letter, or the marks and digits of a code
  cases h with
  | short hc =>
    have hletters : ∀ p ∈ shortEscapes, ¬IsControl p.2 := by decide
    rw [List.mem_singleton.mp hd]
    exact hletters _ hc
  | numeric =>
    have hdigits : ∀ d : Fin 16, ¬IsControl d.val.digitChar := by decide
    simp only [List.mem_cons, List.mem_append, List.not_mem_nil, or_false] at hd
    obtain rfl | rfl | hhex | rfl := hd
    · decide
    · decide
    · obtain ⟨n, rfl⟩ := exists_digit_of_mem_lowerHex _ d hhex
      exact hdigits n
    · decide

/-- The spelling of a text has no control characters. -/
theorem not_isControl_of_mem_escape (text : List Char) (d : Char) (hd : d ∈ escape text) :
    ¬IsControl d := by
  obtain ⟨c, -, hd⟩ := List.mem_flatMap.mp hd
  obtain ⟨hc, -, -, hcontrol⟩ | ⟨tail, htail, hc⟩ := escapeChar_cases c
  · rw [hc, List.mem_singleton] at hd
    rwa [hd]
  · -- a backslash, or one of what stands behind it
    rw [hc, List.mem_cons] at hd
    cases hd with
    | inl hbackslash =>
      rw [hbackslash]
      decide
    | inr htail' => exact htail.not_isControl d htail'

end OneShot.Text
