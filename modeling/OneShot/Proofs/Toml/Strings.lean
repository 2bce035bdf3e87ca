import OneShot.Toml.Printer

/-!
# Strings are read as they were written

A string is written in the first form that can hold it, and each form is read back as the string.
For the forms on several lines the text between the quotes is described by `Body`, character for
character of the string: what stands raw, what is escaped, and how many quotes may stand in a row.

## Key results

- `escapes_escapeOf`: an escape is read as the character that it was written for
- `Body.multiLine_eq`: the text of a string on several lines is read up to its closing quotes
- `admits_formFor`: a string is written in a form that can hold it
- `read?_writeString`: a string is read as it was written
-/

namespace OneShot.Toml

open QuotedString

/-! ### Escapes -/

/-- A digit is read as its value. -/
private theorem hexValue?_upperHexDigit (n : Nat) (h : n < 16) :
    QuotedString.hexValue? (upperHexDigit n) = some n := by
  have hall : ∀ n < 16, QuotedString.hexValue? (upperHexDigit n) = some n := by decide
  exact hall n h

/-- A character is read from its code point. -/
private theorem charOf?_toNat (c : Char) : charOf? c.toNat = some c := by
  unfold charOf?
  rw [dif_pos (show c.toNat.isValidChar from c.valid)]
  rfl

/-- Four digits are read as the character with their code point. -/
private theorem numericEscape?_four (c : Char) (h : c.toNat < 0x10000) (tail : List Char) :
    numericEscape? 4 ([upperHexDigit (c.toNat / 0x1000 % 16), upperHexDigit (c.toNat / 0x100 % 16),
      upperHexDigit (c.toNat / 0x10 % 16), upperHexDigit (c.toNat % 16)] ++ tail) =
      some (c, tail) := by
  have hdigit := fun n => hexValue?_upperHexDigit (n % 16) (Nat.mod_lt n (by decide))
  -- below 0x10000 four digits make up the code point
  have hnumber : (((c.toNat / 0x1000 % 16) * 16 + c.toNat / 0x100 % 16) * 16 +
      c.toNat / 0x10 % 16) * 16 + c.toNat % 16 = c.toNat := by omega
  unfold numericEscape?
  rw [if_neg (by simp)]
  simp [hexNumber?, hdigit, hnumber, charOf?_toNat]

/-- What stands behind a backslash for a character. -/
structure Escapes (e : List Char) (c : Char) : Prop where
  read : ∀ tail, escape? (e ++ tail) = some (c, tail)
  /-- The backslash is not taken for one at the end of a line. -/
  stays : ∀ tail, continuation? (e ++ tail) = none

/-- An escape starts with a backslash. -/
private theorem exists_escapeOf (c : Char) : ∃ e, escapeOf c = '\\' :: e := by
  unfold escapeOf
  split <;> exact ⟨_, rfl⟩

/-- The escape of a character is read as the character. -/
theorem escapes_escapeOf (c : Char) (h : c.toNat < 0x10000) :
    ∃ e, escapeOf c = '\\' :: e ∧ Escapes e c := by
  unfold escapeOf
  split
  case h_8 =>
    -- the remaining control characters are escaped by their code points
    exact ⟨_, rfl, numericEscape?_four c h, fun _ => rfl⟩
  all_goals exact ⟨_, rfl, fun _ => rfl, fun _ => rfl⟩

/-- What is escaped has a small code point. -/
private theorem toNat_lt_of_escaped (c : Char)
    (h : (isControl c || c == '"' || c == '\\') = true) : c.toNat < 0x10000 := by
  simp only [isControl, Bool.or_eq_true, decide_eq_true_eq, beq_iff_eq] at h
  rcases h with ((h | h) | rfl) | rfl
  · omega
  · omega
  · decide
  · decide

/-- What is no control character may stand raw. -/
private theorem isForbidden_of_isControl (c : Char) (h : isControl c = false) :
    isForbidden c = false := by
  simp only [isControl, isForbidden, Bool.or_eq_false_iff] at *
  exact ⟨by rw [h.1, Bool.false_and], h.2⟩

/-- What is not escaped is neither a quote nor a backslash, and may stand raw. -/
private theorem raw_of_not_escaped (c : Char)
    (h : ¬(isControl c || c == '"' || c == '\\') = true) :
    c ≠ '"' ∧ c ≠ '\\' ∧ isForbidden c = false := by
  simp only [Bool.or_eq_true, not_or, Bool.not_eq_true, beq_eq_false_iff_ne] at h
  exact ⟨h.1.2, h.2, isForbidden_of_isControl c h.1.1⟩

/-! ### On one line -/

/-- In a basic string an escape stands for its character. -/
private theorem basic_escape {e : List Char} {c : Char} (h : Escapes e c) (done tail : List Char) :
    basic done ('\\' :: (e ++ tail)) = basic (c :: done) tail := by
  rw [basic, if_neg (by decide), if_pos rfl]
  split
  · -- the escape is read as its character, so the other branch does not apply
    rename_i hread
    rw [h.read tail] at hread
    cases hread
    rfl
  · rename_i hread
    rw [h.read tail] at hread
    cases hread

/-- A basic string is read up to the first quote that is not escaped. -/
theorem basic_escapeBasic (done cs rest : List Char) :
    basic done (escapeBasic cs ++ '"' :: rest) =
      some (String.ofList (done.reverse ++ cs), rest) := by
  -- induction on the text: each character is read as itself, from its escape or raw
  induction cs generalizing done with
  | nil => simp [escapeBasic, basic]
  | cons c cs ih =>
    have hrest : basic (c :: done) (escapeBasic cs ++ '"' :: rest) =
        some (String.ofList (done.reverse ++ c :: cs), rest) := by
      rw [ih, List.reverse_cons, List.append_assoc, List.singleton_append]
    rw [escapeBasic, List.flatMap_cons, List.append_assoc]
    by_cases hescaped : (isControl c || c == '"' || c == '\\') = true
    · obtain ⟨e, he, hreads⟩ := escapes_escapeOf c (toNat_lt_of_escaped c hescaped)
      rw [if_pos hescaped, he, List.cons_append, basic_escape hreads]
      exact hrest
    · -- raw
      obtain ⟨hquote, hescape, hforbidden⟩ := raw_of_not_escaped c hescaped
      rw [if_neg hescaped, List.singleton_append, basic, if_neg hquote, if_neg hescape, hforbidden]
      exact hrest

/-- A literal string is read up to the first single quote. -/
theorem literal_append (done cs rest : List Char)
    (h : ∀ c ∈ cs, c ≠ '\'' ∧ isForbidden c = false) :
    literal done (cs ++ '\'' :: rest) = some (String.ofList (done.reverse ++ cs), rest) := by
  induction cs generalizing done with
  | nil => simp [literal]
  | cons c cs ih =>
    obtain ⟨hquote, hforbidden⟩ := h c List.mem_cons_self
    rw [List.cons_append, literal, if_neg hquote, hforbidden]
    rw [if_neg (by decide), ih _ fun d hd => h d (List.mem_cons_of_mem _ hd)]
    simp

/-! ### On several lines -/

/-- The text between the quotes of a string on several lines, and the string that it stands for. Up
to two quotes may stand in a row. -/
inductive Body (q : Char) (escapes : Bool) : List Char → List Char → Prop where
  | nil : Body q escapes [] []
  | raw (c : Char) {text cs : List Char} (hquote : c ≠ q) (hescape : c = '\\' → escapes = false)
      (hraw : c = '\n' ∨ isForbidden c = false) (h : Body q escapes text cs) :
      Body q escapes (c :: text) (c :: cs)
  | quote {text cs : List Char} (hrun : runLength q text ≤ 1) (h : Body q escapes text cs) :
      Body q escapes (q :: text) (q :: cs)
  | escape {e : List Char} (c : Char) {text cs : List Char} (hescapes : escapes = true)
      (hreads : Escapes e c) (h : Body q escapes text cs) :
      Body q escapes ('\\' :: (e ++ text)) (c :: cs)

/-- The quotes after a string on several lines. -/
def closing (q : Char) : List Char := [q, q, q]

section MultiLine

variable {q : Char} {escapes : Bool}

/-- A quote is part of the string if no more than one follows. -/
private theorem multiLine_quote (done cs : List Char) (h : runLength q cs ≤ 1) :
    multiLine q escapes done (q :: cs) = multiLine q escapes (q :: done) cs := by
  rw [multiLine.eq_def]
  simp only
  rw [if_pos trivial, if_pos (by omega)]

/-- A character that is neither a quote nor escaped stands for itself. -/
private theorem multiLine_raw (c : Char) (done cs : List Char) (hquote : c ≠ q)
    (hescape : c = '\\' → escapes = false) (hraw : c = '\n' ∨ isForbidden c = false) :
    multiLine q escapes done (c :: cs) = multiLine q escapes (c :: done) cs := by
  have hplain : ¬(c = '\\' ∧ escapes = true) := by
    rintro ⟨rfl, htrue⟩
    rw [hescape rfl] at htrue
    cases htrue
  -- of the tests in front, none but that for a line break can apply
  rw [multiLine.eq_def]
  simp only
  rw [if_neg hquote, if_neg hplain]
  by_cases hbreak : c = '\n'
  · rw [if_pos hbreak]
  · have hallowed := hraw.resolve_left hbreak
    -- a carriage return alone is not allowed
    have hreturn : c ≠ '\r' := by
      rintro rfl
      exact absurd hallowed (by decide)
    rw [if_neg hbreak, if_neg hreturn, if_neg (by simp [hallowed])]

/-- An escape stands for its character. -/
private theorem multiLine_escape {e : List Char} {c : Char} (hq : q ≠ '\\')
    (hescapes : escapes = true) (h : Escapes e c) (done tail : List Char) :
    multiLine q escapes done ('\\' :: (e ++ tail)) = multiLine q escapes (c :: done) tail := by
  rw [multiLine.eq_def]
  simp only
  rw [if_neg (Ne.symm hq), if_pos ⟨trivial, hescapes⟩]
  -- the escape joins no lines, so it is read as the character it stands for
  split
  · rename_i hjoins
    rw [h.stays tail] at hjoins
    cases hjoins
  · split
    · rename_i hread
      rw [h.read tail] at hread
      cases hread
      rfl
    · rename_i hread
      rw [h.read tail] at hread
      cases hread

/-- The quotes at the front end where another character follows. -/
private theorem runLength_replicate_append (k : Nat) (cs : List Char) (h : cs.head? ≠ some q) :
    runLength q (List.replicate k q ++ cs) = k := by
  have hnone : cs.takeWhile (· == q) = [] := by
    cases cs with
    | nil => rfl
    | cons c cs =>
      rw [List.head?_cons, Ne, Option.some_inj] at h
      rw [List.takeWhile_cons_of_neg (by simpa using h)]
  rw [runLength, List.takeWhile_append_of_pos (by simp), hnone, List.append_nil,
    List.length_replicate]

/-- Of up to five quotes in a row the last three close the string. -/
private theorem multiLine_close (done rest : List Char) (k : Nat) (hk : k ≤ 2)
    (hrest : rest.head? ≠ some q) :
    multiLine q escapes done (List.replicate k q ++ closing q ++ rest) =
      some (String.ofList (done.reverse ++ List.replicate k q), rest) := by
  -- the quotes that are written are one run
  have hall : List.replicate k q ++ closing q ++ rest =
      q :: (List.replicate (k + 2) q ++ rest) := by
    rw [show closing q = List.replicate 3 q from rfl, List.replicate_append_replicate]
    rfl
  -- the first quote meets `k + 2` others, so all but three of them belong to the string
  have hrun := runLength_replicate_append (k + 2) rest hrest
  rw [hall, multiLine.eq_def]
  simp only [hrun]
  rw [if_pos trivial, if_neg (by omega), show min (k + 2 + 1 - 3) 2 = k from by omega,
    List.drop_left' (List.length_replicate)]
  simp

/-- Quotes alone stand for themselves. -/
private theorem Body.eq_replicate (hq : q ≠ '\\') (k : Nat) (cs : List Char)
    (h : Body q escapes (List.replicate k q) cs) : cs = List.replicate k q := by
  -- induction on the number of quotes, of which none can stand there in another way
  induction k generalizing cs with
  | zero =>
    cases h
    rfl
  | succ k ih =>
    rw [List.replicate_succ] at h
    -- `cases` needs the other quotes as a text of its own
    generalize htext : List.replicate k q = text at h
    cases h with
    | raw _ hquote => exact absurd rfl hquote
    | quote _ hbody =>
      subst htext
      rw [List.replicate_succ, ih _ hbody]
    | escape => exact absurd rfl hq

/-- The text of a string on several lines is read up to its closing quotes. -/
theorem Body.multiLine_eq {text cs : List Char} (h : Body q escapes text cs) (hq : q ≠ '\\')
    (done rest : List Char) (hrest : rest.head? ≠ some q) :
    multiLine q escapes done (text ++ closing q ++ rest) =
      some (String.ofList (done.reverse ++ cs), rest) := by
  -- induction on the text: only quotes at its end meet those that close the string
  induction h generalizing done with
  | nil => exact multiLine_close done rest 0 (by omega) hrest
  | raw c hquote hescape hraw h ih =>
    rw [List.cons_append, List.cons_append, multiLine_raw c done _ hquote hescape hraw, ih]
    simp
  | escape c hescapes hreads h ih =>
    rw [List.cons_append, List.cons_append, List.append_assoc, List.append_assoc,
      multiLine_escape hq hescapes hreads, ← List.append_assoc, ih]
    simp
  | @quote text cs hrun h ih =>
    by_cases hall : (text.takeWhile (· == q)).length = text.length
    · -- these quotes are the last of the text, so they stand directly before the others
      have hself := (List.takeWhile_prefix (· == q)).eq_of_length hall
      have hevery : text.all (· == q) = true := hself ▸ List.all_takeWhile
      obtain ⟨k, hk, rfl⟩ : ∃ k ≤ 1, text = List.replicate k q :=
        ⟨text.length, by rwa [runLength, hall] at hrun,
          List.eq_replicate_of_mem fun c hc => eq_of_beq (List.all_eq_true.mp hevery c hc)⟩
      rw [h.eq_replicate hq, ← List.replicate_succ]
      exact multiLine_close done rest (k + 1) (by omega) hrest
    · -- something else follows the quotes, and the closing ones do not count to them
      have hsame : runLength q (text ++ (closing q ++ rest)) = runLength q text := by
        rw [runLength, List.takeWhile_append, if_neg hall]
        rfl
      rw [List.cons_append, List.cons_append, List.append_assoc,
        multiLine_quote done _ (hsame ▸ hrun), ← List.append_assoc, ih]
      simp

/-- A text that does not start with a line break is left as it is. -/
private theorem trimFirstBreak_cons (c : Char) (cs : List Char) (hfeed : c ≠ '\n')
    (hreturn : c ≠ '\r') : trimFirstBreak (c :: cs) = c :: cs := by
  unfold trimFirstBreak afterLineBreak?
  split
  · rename_i heq
    exact absurd (List.cons.inj heq).1 hfeed
  · rename_i heq
    exact absurd (List.cons.inj heq).1 hreturn
  · rfl

/-- The line break before a string on several lines is not part of it, and no other one is lost. -/
private theorem Body.trimFirstBreak_eq {text cs : List Char} (h : Body q escapes text cs)
    (hq : q = '"' ∨ q = '\'') (rest : List Char) :
    trimFirstBreak (firstBreak cs ++ text ++ closing q ++ rest) = text ++ closing q ++ rest := by
  unfold firstBreak
  by_cases hbreak : '\n' ∈ cs
  · rw [if_pos (List.contains_iff_mem.mpr hbreak)]
    rfl
  · rw [if_neg (fun hcontains => hbreak (List.contains_iff_mem.mp hcontains)), List.nil_append]
    -- without a line break in the string the text starts with none
    have hquote : q ≠ '\n' ∧ q ≠ '\r' := by rcases hq with rfl | rfl <;> decide
    cases h with
    -- the text starts with a quote, a backslash or another character
    | nil => exact trimFirstBreak_cons q _ hquote.1 hquote.2
    | quote hrun h => exact trimFirstBreak_cons q _ hquote.1 hquote.2
    | escape c hescapes hreads h => exact trimFirstBreak_cons '\\' _ (by decide) (by decide)
    | raw c hquote hescape hraw h =>
      have hfeed : c ≠ '\n' := fun heq => hbreak (heq ▸ List.mem_cons_self)
      have hreturn : c ≠ '\r' := by
        rintro rfl
        exact absurd (hraw.resolve_left hfeed) (by decide)
      exact trimFirstBreak_cons c _ hfeed hreturn

end MultiLine

/-! ### What the printer writes -/

theorem runLength_cons (q c : Char) (cs : List Char) :
    runLength q (c :: cs) = if c = q then runLength q cs + 1 else 0 := by
  unfold runLength
  rw [List.takeWhile_cons]
  by_cases h : c = q <;> simp [h]

/-- Behind `run` quotes no more stand raw than make two with them. -/
private theorem runLength_escapeMultiLine (run : Nat) (cs : List Char) (hrun : run ≤ 2) :
    runLength '"' (escapeMultiLine run cs) + run ≤ 2 := by
  -- induction on the text: a run in it starts with the quotes counted before
  induction cs generalizing run with
  | nil => simpa [escapeMultiLine, runLength] using hrun
  | cons c cs ih =>
    have hescape : ∀ d tail, runLength '"' (escapeOf d ++ tail) = 0 := by
      intro d tail
      obtain ⟨e, he⟩ := exists_escapeOf d
      rw [he, List.cons_append, runLength_cons, if_neg (by decide)]
    rw [escapeMultiLine]
    split
    · -- a line feed ends the run
      rename_i hfeed
      rw [runLength_cons, if_neg (by rw [hfeed]; decide)]
      omega
    · split
      · rename_i hquote
        -- a third quote in a row is escaped, and its backslash ends the run
        split
        · have := ih (run + 1) (by omega)
          rw [runLength_cons, if_pos hquote]
          omega
        · rw [hescape]
          omega
      · rename_i hquote
        split
        · rw [hescape]
          omega
        · rw [runLength_cons, if_neg hquote]
          omega

/-- The text with escapes stands for the string. -/
theorem body_escapeMultiLine (run : Nat) (cs : List Char) (hrun : run ≤ 2) :
    Body '"' true (escapeMultiLine run cs) cs := by
  -- induction on the text: a line feed and a quote stand for themselves where they may
  induction cs generalizing run with
  | nil => exact .nil
  | cons c cs ih =>
    -- an escape starts the count of quotes anew
    have hescape : (isControl c || c == '"' || c == '\\') = true →
        Body '"' true (escapeOf c ++ escapeMultiLine 0 cs) (c :: cs) := by
      intro hescaped
      obtain ⟨e, he, hreads⟩ := escapes_escapeOf c (toNat_lt_of_escaped c hescaped)
      rw [he]
      exact .escape c rfl hreads (ih 0 (by omega))
    rw [escapeMultiLine]
    split
    · rename_i hfeed
      exact .raw c (by rw [hfeed]; decide) (by rw [hfeed]; nofun) (.inl hfeed) (ih 0 (by omega))
    · split
      · rename_i hquote
        split
        · -- the quote may stand, as no third one follows
          have hnext := runLength_escapeMultiLine (run + 1) cs (by omega)
          rw [hquote]
          exact .quote (by omega) (ih (run + 1) (by omega))
        · exact hescape (by simp [hquote])
      · rename_i hquote
        split
        · rename_i hescaped
          exact hescape (by simp_all)
        · rename_i hescaped
          simp only [Bool.or_eq_true, not_or, Bool.not_eq_true, beq_eq_false_iff_ne] at hescaped
          exact .raw c hquote (fun h => absurd h hescaped.2)
            (.inr (isForbidden_of_isControl c hescaped.1)) (ih 0 (by omega))

/-- The longest run where `best` was the longest so far and the last `run` characters are `q`. -/
def longestRunFrom (q : Char) (best run : Nat) (cs : List Char) : Nat :=
  (cs.foldl (fun (best, run) c => if c = q then (max best (run + 1), run + 1) else (best, 0))
    (best, run)).1

private theorem longestRunFrom_cons (q c : Char) (best run : Nat) (cs : List Char) :
    longestRunFrom q best run (c :: cs) =
      if c = q then longestRunFrom q (max best (run + 1)) (run + 1) cs
      else longestRunFrom q best 0 cs := by
  unfold longestRunFrom
  rw [List.foldl_cons]
  by_cases h : c = q <;> simp only [h, if_true, if_false]

/-- A run at the front is no longer than the longest one. -/
private theorem runLength_le_longestRunFrom (q : Char) (best run : Nat) (cs : List Char)
    (h : run ≤ best) : max best (run + runLength q cs) ≤ longestRunFrom q best run cs := by
  -- induction on the text: the run that is counted is never longer than the best
  induction cs generalizing best run with
  | nil => simp [runLength, longestRunFrom, h]
  | cons c cs ih =>
    rw [longestRunFrom_cons, runLength_cons]
    by_cases hc : c = q
    · have := ih (max best (run + 1)) (run + 1) (by omega)
      rw [if_pos hc, if_pos hc]
      omega
    · have := ih best 0 (by omega)
      rw [if_neg hc, if_neg hc]
      omega

/-- A text without long runs and without escapes stands for itself. -/
private theorem body_self_from (q : Char) (best run : Nat) (cs : List Char)
    (hraw : ∀ c ∈ cs, c = '\n' ∨ isForbidden c = false)
    (hrun : longestRunFrom q best run cs ≤ 2) (hbest : run ≤ best) : Body q false cs cs := by
  -- the run that comes next counts into the longest one, whatever `best` and `run` were
  induction cs generalizing best run with
  | nil => exact .nil
  | cons c cs ih =>
    have hrest : ∀ d ∈ cs, d = '\n' ∨ isForbidden d = false :=
      fun d hd => hraw d (List.mem_cons_of_mem c hd)
    rw [longestRunFrom_cons] at hrun
    -- a quote counts to the run, anything else ends it
    by_cases hc : c = q
    · rw [if_pos hc] at hrun
      have hfront := runLength_le_longestRunFrom q (max best (run + 1)) (run + 1) cs (by omega)
      rw [hc]
      exact .quote (by omega) (ih _ _ hrest hrun (by omega))
    · rw [if_neg hc] at hrun
      exact .raw c hc (fun _ => rfl) (hraw c List.mem_cons_self) (ih _ _ hrest hrun (by omega))

/-- A string on one line does not start like one on several lines. -/
private theorem read?_eq_readSingle? (cs : List Char) (hbasic : ∀ t, cs ≠ '"' :: '"' :: '"' :: t)
    (hliteral : ∀ t, cs ≠ '\'' :: '\'' :: '\'' :: t) : read? cs = readSingle? cs := by
  unfold read?
  split
  · exact absurd rfl (hbasic _)
  · exact absurd rfl (hliteral _)
  · rfl

/-- A tab is the one control character that may stand raw on a line. -/
private theorem isForbidden_of_onlyTab (c : Char) (h : (!isControl c || c == '\t') = true) :
    isForbidden c = false := by
  simp only [Bool.or_eq_true, Bool.not_eq_true', beq_iff_eq] at h
  rcases h with hcontrol | rfl
  · exact isForbidden_of_isControl c hcontrol
  · decide

/-- The strings that a form can hold. With escapes that is every string. -/
def StringForm.Admits (cs : List Char) : StringForm → Prop
  | .literal => ∀ c ∈ cs, c ≠ '\'' ∧ isForbidden c = false
  | .multiLineLiteral => (∀ c ∈ cs, c = '\n' ∨ isForbidden c = false) ∧ longestRun '\'' cs ≤ 2
  | .basic => True
  | .multiLineBasic => True

/-- The form of a string can hold it. -/
theorem admits_formFor (cs : List Char) : (formFor cs).Admits cs := by
  -- each form was chosen after a test of what it admits; the basic ones admit everything
  simp only [formFor]
  split
  · trivial
  · split
    · -- the literal form: no quote in it, and no control character but the tab
      rename_i hcan
      simp only [Bool.and_eq_true, List.all_eq_true, Bool.not_eq_true',
        List.contains_eq_mem, decide_eq_false_iff_not] at hcan
      intro c hc
      exact ⟨fun heq => hcan.2 (heq ▸ hc), isForbidden_of_onlyTab c (hcan.1 c hc)⟩
    · split
      · trivial
      · split
        · rename_i hcan
          simp only [Bool.and_eq_true, List.all_eq_true, decide_eq_true_eq] at hcan
          -- the literal form of many lines: runs of quotes are short
          refine ⟨fun c hc => ?_, hcan.2⟩
          by_cases hfeed : c = '\n'
          · exact .inl hfeed
          · refine .inr (isForbidden_of_onlyTab c ?_)
            simpa [hfeed] using hcan.1 c hc
        · split <;> trivial

/-- A basic string that is not empty does not go on with a quote. -/
private theorem escapeBasic_ne_quote (c : Char) (cs more t : List Char) :
    escapeBasic (c :: cs) ++ more ≠ '"' :: t := by
  rw [escapeBasic, List.flatMap_cons]
  by_cases hescaped : (isControl c || c == '"' || c == '\\') = true
  · obtain ⟨e, he⟩ := exists_escapeOf c
    rw [if_pos hescaped, he]
    simp
  · have hquote := (raw_of_not_escaped c hescaped).1
    rw [if_neg hescaped]
    simp [hquote]

/-- A string starts with a quote. -/
theorem writeString_eq_cons (s : String) :
    ∃ q cs, writeString s = q :: cs ∧ (q = '"' ∨ q = '\'') := by
  unfold writeString
  simp only
  cases formFor s.toList with
  | basic => exact ⟨'"', _, rfl, .inl rfl⟩
  | literal => exact ⟨'\'', _, rfl, .inr rfl⟩
  | multiLineBasic => exact ⟨'"', _, rfl, .inl rfl⟩
  | multiLineLiteral => exact ⟨'\'', _, rfl, .inr rfl⟩

section Forms

variable (s : String) (rest : List Char)

/-- The form with escapes on one line is read as the string. -/
private theorem read?_basicForm (hrest : rest.head? ≠ some '"') :
    read? ('"' :: (escapeBasic s.toList ++ '"' :: rest)) = some (s, rest) := by
  have hsingle : ∀ t,
      '"' :: (escapeBasic s.toList ++ '"' :: rest) ≠ '"' :: '"' :: '"' :: t := by
    -- two quotes in a row are the whole of an empty string
    intro t heq
    cases hcs : s.toList with
    | nil =>
      have hquote : rest = '"' :: t := by simpa [hcs, escapeBasic] using heq
      exact hrest (by rw [hquote]; rfl)
    | cons c cs =>
      rw [hcs] at heq
      exact escapeBasic_ne_quote c cs _ _ (List.cons.inj heq).2
  -- so it is read as a string of one line
  rw [read?_eq_readSingle? _ hsingle (by simp), readSingle?, basic_escapeBasic, List.reverse_nil,
    List.nil_append, String.ofList_toList]

/-- The form without escapes on one line is read as the string. -/
private theorem read?_literalForm (hrest : rest.head? ≠ some '\'')
    (h : ∀ c ∈ s.toList, c ≠ '\'' ∧ isForbidden c = false) :
    read? ('\'' :: (s.toList ++ '\'' :: rest)) = some (s, rest) := by
  -- a second quote would have to be one of the text
  have hsingle : ∀ t, '\'' :: (s.toList ++ '\'' :: rest) ≠ '\'' :: '\'' :: '\'' :: t := by
    intro t heq
    cases hcs : s.toList with
    | nil =>
      have hquote : rest = '\'' :: t := by simpa [hcs] using heq
      exact hrest (by rw [hquote]; rfl)
    | cons c cs =>
      rw [hcs] at heq h
      exact (h c List.mem_cons_self).1 (List.cons.inj (List.cons.inj heq).2).1
  rw [read?_eq_readSingle? _ (by simp) hsingle, readSingle?, literal_append _ _ _ h,
    List.reverse_nil, List.nil_append, String.ofList_toList]

/-- Behind its opening quotes a string on several lines is read up to its closing quotes. -/
private theorem Body.multiLine_trim {q : Char} {escapes : Bool} {text : List Char}
    (h : Body q escapes text s.toList) (hq : q = '"' ∨ q = '\'')
    (hrest : rest.head? ≠ some q) :
    multiLine q escapes [] (trimFirstBreak (firstBreak s.toList ++ text ++ closing q ++ rest)) =
      some (s, rest) := by
  have hescape : q ≠ '\\' := by rcases hq with rfl | rfl <;> decide
  rw [h.trimFirstBreak_eq hq, h.multiLine_eq hescape [] rest hrest, List.reverse_nil,
    List.nil_append, String.ofList_toList]

/-- A string is read as it was written. -/
theorem read?_writeString (hbasic : rest.head? ≠ some '"') (hliteral : rest.head? ≠ some '\'') :
    read? (writeString s ++ rest) = some (s, rest) := by
  have hadmits := admits_formFor s.toList
  unfold writeString
  simp only
  -- each form is read back by the reader of its quotes
  cases hform : formFor s.toList with
  | basic => simpa using read?_basicForm s rest hbasic
  | literal =>
    rw [hform] at hadmits
    simpa using read?_literalForm s rest hliteral hadmits
  | multiLineBasic =>
    have hbody := body_escapeMultiLine 0 s.toList (by omega)
    have hread := hbody.multiLine_trim s rest (.inl rfl) hbasic
    simpa [read?, closing] using hread
  | multiLineLiteral =>
    rw [hform] at hadmits
    -- its characters stand raw, and the runs of quotes are short
    obtain ⟨hraw, hrun⟩ := hadmits
    have hbody := body_self_from '\'' 0 0 s.toList hraw hrun (by omega)
    have hread := hbody.multiLine_trim s rest (.inr rfl) hliteral
    simpa [read?, closing] using hread

end Forms

end OneShot.Toml
