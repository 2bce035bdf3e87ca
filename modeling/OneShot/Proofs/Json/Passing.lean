import Mathlib.Data.List.Basic
import OneShot.Proofs.Json.Values

/-!
# Passing over values

The machine of `Json.Skip` takes every value of the language, inside any containers: what it does to
a row of items follows from what it does to each of them. After a number it does not know yet that
the number is over; `run_of_isWhole` says that the next byte settles this.

## Key results

- `reach_string`: the machine takes a string, as a key or as a value
- `reach_row`: it takes a row whose items it takes, up to the end of the container
- `exists_reach_wellFormed`: it takes every value
- `exists_reach_of_skip`: what it takes alone it takes inside containers
- `skip_append`, `exists_skip`: the bytes after a value do not matter
-/

namespace OneShot.Json.Skip

open StringBody (isRaw)
open Numeral

/-! ### White space -/

/-- White space changes nothing where each single one changes nothing. -/
theorem reach_spaces (s : State) (space : Bytes) (h : Spaces space)
    (hs : ∀ b, isSpace b = true → step s b = .next s) : reach s space = some s := by
  induction space with
  | nil => rfl
  | cons b space ih =>
    rw [reach_cons_of_step s s b space (hs b (h b List.mem_cons_self))]
    exact ih fun b' hb' => h b' (List.mem_cons_of_mem b hb')

/-- White space changes nothing before a value, before a key and before a colon. -/
theorem step_space (mode : Mode) (around : List Container) (b : UInt8) (hb : isSpace b = true)
    (hmode : mode ∈ [.value, .firstElement, .firstKey, .nextKey, .colon]) :
    step ⟨mode, around⟩ b = .next ⟨mode, around⟩ := by
  simp only [List.mem_cons, List.not_mem_nil, or_false] at hmode
  rcases hmode with rfl | rfl | rfl | rfl | rfl <;>
    simp only [step, Mode.move, hb, if_true, Move.apply]

/-- White space changes nothing after a value in a container. -/
theorem step_space_afterValue (c : Container) (outer : List Container) (b : UInt8)
    (hb : isSpace b = true) :
    step ⟨.afterValue, c :: outer⟩ b = .next ⟨.afterValue, c :: outer⟩ := by
  cases c <;> simp only [step, Mode.move, Move.apply, afterValue, hb, if_true]

/-- No number goes on with white space. -/
theorem ends_spaces_append (space rest : Bytes) (h : Spaces space) (hends : Ends rest) :
    Ends (space ++ rest) := by
  cases space with
  | nil => exact hends
  | cons b space =>
    have hb := h b List.mem_cons_self
    simp only [isSpace, Bool.or_eq_true, beq_iff_eq] at hb
    refine ends_cons b (space ++ rest) ?_
    rcases hb with ((rfl | rfl) | rfl) | rfl <;> decide

/-! ### Strings -/

/-- The machine takes what may stand between the quotes of a string. -/
theorem reach_quotable (key : Bool) (around : List Container) (s : Bytes) (h : Quotable s) :
    reach ⟨.string key, around⟩ s = some ⟨.string key, around⟩ := by
  have hbackslash : step ⟨.string key, around⟩ backslash = .next ⟨.escape key, around⟩ := rfl
  have hu : step ⟨.escape key, around⟩ 0x75 = .next ⟨.hex key 4 true, around⟩ := rfl
  -- induction on the text: the string is open again behind each character
  induction h with
  | nil => rfl
  | @raw b s hb h ih =>
    -- none of the tests of a string holds for a raw byte
    have hstep : step ⟨.string key, around⟩ b = .next ⟨.string key, around⟩ := by
      simp only [isRaw, Bool.and_eq_true, bne_iff_ne, ne_eq, Bool.not_eq_true'] at hb
      simp only [step, Mode.move, beq_iff_eq, hb.1.1, hb.1.2, hb.2, if_false, Move.apply,
        Bool.false_eq_true]
    rw [reach_cons_of_step _ _ b _ hstep, ih]
  | @letter b s hb h ih =>
    -- the letter of a numeric escape is not among the others
    have hne : b ≠ 0x75 := by
      rintro rfl
      cases hb
    have hstep : step ⟨.escape key, around⟩ b = .next ⟨.string key, around⟩ := by
      simp only [step, Mode.move, beq_iff_eq, hne, if_false, hb, if_true, Move.apply]
    rw [reach_cons_of_step _ _ _ _ hbackslash, reach_cons_of_step _ _ b _ hstep, ih]
  | @numeric digits s hlength hdigits h ih =>
    -- the four digits of a code
    obtain ⟨p, q, r, t, rfl⟩ := List.length_eq_four.mp hlength
    have hfour : reach ⟨.hex key 4 true, around⟩ [p, q, r, t] = some ⟨.string key, around⟩ := by
      simp [reach, step, Mode.move, Move.apply, hdigits]
    rw [reach_cons_of_step _ _ _ _ hbackslash, reach_cons_of_step _ _ _ _ hu, reach_append, hfour,
      Option.bind_some, ih]

/-- The machine takes a string with its closing quote. -/
theorem reach_string (key : Bool) (around : List Container) (s : Bytes) (h : Quotable s) :
    reach ⟨.string key, around⟩ (s ++ [quoteByte]) = some ⟨afterString key, around⟩ := by
  rw [reach_append, reach_quotable key around s h, Option.bind_some]
  rfl

/-! ### Numbers -/

/-- The machine stays in a number over its digits. -/
private theorem reach_digits (mode : Mode) (around : List Container) (digits : Bytes)
    (hmode : mode ∈ [.integer, .fraction, .exponent]) (h : Digits digits) :
    reach ⟨mode, around⟩ digits = some ⟨mode, around⟩ := by
  simp only [List.mem_cons, List.not_mem_nil, or_false] at hmode
  induction digits with
  | nil => rfl
  | cons d digits ih =>
    have hd := h d List.mem_cons_self
    have hstep : step ⟨mode, around⟩ d = .next ⟨mode, around⟩ := by
      rcases hmode with rfl | rfl | rfl <;>
        simp only [step, Mode.move, hd, if_true, Move.apply]
    rw [reach_cons_of_step _ _ d _ hstep]
    exact ih fun d' hd' => h d' (List.mem_cons_of_mem d hd')

/-- Where a number needs a digit, the machine takes the digits from there on. -/
private theorem reach_digits_of_ne (mode mode' : Mode) (around : List Container) (digits : Bytes)
    (hmode : (mode, mode') ∈ [(.point, .fraction), (.exponentMark, .exponent),
      (.exponentSign, .exponent)]) (hne : digits ≠ []) (h : Digits digits) :
    reach ⟨mode, around⟩ digits = some ⟨mode', around⟩ := by
  obtain ⟨d, digits, rfl⟩ := List.exists_cons_of_ne_nil hne
  have hd := h d List.mem_cons_self
  -- behind an exponent mark a digit is no sign
  have hsign : isSign d = false := by
    simp only [isSign, Numeral.beq_eq_false_of_test isDigit d plus hd rfl,
      Numeral.beq_eq_false_of_test isDigit d minus hd rfl, Bool.or_self]
  have hstep : step ⟨mode, around⟩ d = .next ⟨mode', around⟩ ∧
      mode' ∈ [.integer, .fraction, .exponent] := by
    simp only [List.mem_cons, Prod.mk.injEq, List.not_mem_nil, or_false] at hmode
    rcases hmode with ⟨rfl, rfl⟩ | ⟨rfl, rfl⟩ | ⟨rfl, rfl⟩ <;>
      simp only [step, Mode.move, hd, hsign, if_true, if_false, Bool.false_eq_true, Move.apply] <;>
      simp
  -- the first digit fills the place, and the others change nothing
  rw [reach_cons_of_step _ _ d _ hstep.1]
  exact reach_digits mode' around digits hstep.2 fun d' hd' => h d' (List.mem_cons_of_mem d hd')

/-- A digit that can lead starts an integer, as a value or after a minus sign. -/
private theorem step_leadingDigit (mode : Mode) (around : List Container) (b : UInt8)
    (hmode : mode = .value ∨ mode = .sign) (hb : isLeadingDigit b = true) :
    step ⟨mode, around⟩ b = .next ⟨.integer, around⟩ := by
  -- it is none of the other bytes that start a value
  have hne := fun c => beq_eq_false_of_test isLeadingDigit b c hb
  have hspace : isSpace b = false := by
    simp only [isSpace, hne 0x20 rfl, hne 0x09 rfl, hne 0x0A rfl, hne 0x0D rfl, Bool.or_self]
  have hword : literalTail? b = none := by
    simp only [literalTail?, hne 0x6E rfl, hne 0x74 rfl, hne 0x66 rfl, Bool.false_eq_true, if_false]
  -- to start a value or behind a minus sign
  rcases hmode with rfl | rfl
  · simp only [step, Mode.move, beginValue, hspace, hword, hne quoteByte rfl, hne openBracket rfl,
      hne openBrace rfl, hne minus rfl, hne zeroDigit rfl, hb, Bool.false_eq_true, if_false,
      if_true, Move.apply]
  · simp only [step, Mode.move, hne zeroDigit rfl, hb, Bool.false_eq_true, if_false, if_true,
      Move.apply]

/-- The machine takes the digits of a natural number, as a value or after a minus sign. -/
private theorem exists_reach_natural (mode : Mode) (around : List Container) (digits : Bytes)
    (hmode : mode = .value ∨ mode = .sign) (h : Natural digits) :
    ∃ mode', (mode' = .zero ∨ mode' = .integer) ∧
      reach ⟨mode, around⟩ digits = some ⟨mode', around⟩ := by
  cases h with
  | zero =>
    refine ⟨.zero, .inl rfl, ?_⟩
    rcases hmode with rfl | rfl <;> rfl
  | @leading b tail hb htail =>
    refine ⟨.integer, .inr rfl, ?_⟩
    rw [reach_cons_of_step _ _ b tail (step_leadingDigit mode around b hmode hb)]
    exact reach_digits .integer around tail (by simp) htail

/-- After the digits of an integer the machine takes a fraction. -/
private theorem exists_reach_fraction (mode : Mode) (around : List Container) (fraction : Bytes)
    (hmode : mode = .zero ∨ mode = .integer) (h : Fraction fraction) :
    ∃ mode', (mode' = .zero ∨ mode' = .integer ∨ mode' = .fraction) ∧
      reach ⟨mode, around⟩ fraction = some ⟨mode', around⟩ := by
  cases h with
  | none =>
    -- without a fraction the number may be over where it stands
    rcases hmode with rfl | rfl
    · exact ⟨.zero, .inl rfl, rfl⟩
    · exact ⟨.integer, .inr (.inl rfl), rfl⟩
  | some hne hdigits =>
    -- the point is taken behind a zero and behind other digits
    have hpoint : step ⟨mode, around⟩ Json.point = .next ⟨.point, around⟩ := by
      rcases hmode with rfl | rfl <;> rfl
    refine ⟨.fraction, .inr (.inr rfl), ?_⟩
    rw [reach_cons_of_step _ _ _ _ hpoint]
    exact reach_digits_of_ne .point .fraction around _ (by simp) hne hdigits

/-- After the digits of a number the machine takes an exponent. -/
private theorem exists_reach_exponent (mode : Mode) (around : List Container) (exponent : Bytes)
    (hmode : mode = .zero ∨ mode = .integer ∨ mode = .fraction) (h : Exponent exponent) :
    ∃ mode', mode'.isWhole = true ∧ reach ⟨mode, around⟩ exponent = some ⟨mode', around⟩ := by
  cases h with
  | none =>
    refine ⟨mode, ?_, rfl⟩
    -- without an exponent the number may be over
    rcases hmode with rfl | rfl | rfl <;> rfl
  | some hmark hpower =>
    rename_i mark power
    have hmark : step ⟨mode, around⟩ mark = .next ⟨.exponentMark, around⟩ := by
      simp only [isExponentMark, Bool.or_eq_true, beq_iff_eq] at hmark
      rcases hmark with rfl | rfl <;> rcases hmode with rfl | rfl | rfl <;> rfl
    refine ⟨.exponent, rfl, ?_⟩
    rw [reach_cons_of_step _ _ _ _ hmark]
    -- the mark is taken; the power has a sign in front or none
    cases hpower with
    | unsigned hne hdigits =>
      exact reach_digits_of_ne .exponentMark .exponent around _ (by simp) hne hdigits
    | signed hsign hne hdigits =>
      rename_i sign digits
      have hsign : step ⟨.exponentMark, around⟩ sign = .next ⟨.exponentSign, around⟩ := by
        simp only [step, Mode.move, hsign, if_true, Move.apply]
      rw [reach_cons_of_step _ _ _ _ hsign]
      exact reach_digits_of_ne .exponentSign .exponent around _ (by simp) hne hdigits

/-- The machine takes a number, as a value or after a minus sign. -/
private theorem exists_reach_unsigned (mode : Mode) (around : List Container) (v : Bytes)
    (hmode : mode = .value ∨ mode = .sign) (h : Unsigned v) :
    ∃ mode', mode'.isWhole = true ∧ reach ⟨mode, around⟩ v = some ⟨mode', around⟩ := by
  obtain ⟨hdigits, hfraction, hexponent⟩ := h
  obtain ⟨mode₁, hmode₁, h₁⟩ := exists_reach_natural mode around _ hmode hdigits
  obtain ⟨mode₂, hmode₂, h₂⟩ := exists_reach_fraction mode₁ around _ hmode₁ hfraction
  obtain ⟨mode₃, hmode₃, h₃⟩ := exists_reach_exponent mode₂ around _ hmode₂ hexponent
  refine ⟨mode₃, hmode₃, ?_⟩
  rw [reach_append, h₁, Option.bind_some, reach_append, h₂, Option.bind_some, h₃]

/-! ### Whole values -/

/-- Where a value may be over, a byte with which no number goes on shows that it is. -/
theorem step_of_isWhole (mode : Mode) (around : List Container) (b : UInt8)
    (hmode : mode.isWhole = true) (hb : goesOn b = false) :
    step ⟨mode, around⟩ b = step ⟨.afterValue, around⟩ b := by
  obtain ⟨hdigit, hpoint, hmark⟩ := (goesOn_eq_false_iff b).mp hb
  cases mode with
  | literal tail =>
    cases tail with
    | nil => rfl
    | cons c tail => cases hmode
  | afterValue => rfl
  | zero | integer | fraction | exponent =>
    simp only [step, Mode.move, hdigit, hpoint, hmark, Bool.false_eq_true, if_false]
  | _ => cases hmode

/-- Where a value may be over, the machine goes on as after a value. -/
theorem run_of_isWhole (mode : Mode) (around : List Container) (rest : Bytes)
    (hmode : mode.isWhole = true) (hends : Ends rest) :
    run ⟨mode, around⟩ rest = run ⟨.afterValue, around⟩ rest := by
  -- at the end, and before a byte that ends a number, a whole value is over
  cases rest with
  | nil =>
    -- the modes of a whole value miss the same at the end
    have hend : atEnd ⟨mode, around⟩ = atEnd ⟨.afterValue, around⟩ := by
      cases mode with
      | literal tail =>
        cases tail with
        | nil => rfl
        | cons c tail => cases hmode
      | afterValue | zero | integer | fraction | exponent => rfl
      | _ => cases hmode
    simp only [run, hend]
  | cons b rest =>
    simp only [run, step_of_isWhole mode around b hmode (hends b rfl)]

/-- Where a value may be over, the machine takes what follows as after a value. -/
theorem reach_of_isWhole (mode : Mode) (around : List Container) (b : UInt8) (bs : Bytes)
    (hmode : mode.isWhole = true) (hends : Ends (b :: bs)) :
    reach ⟨mode, around⟩ (b :: bs) = reach ⟨.afterValue, around⟩ (b :: bs) := by
  simp only [reach, step_of_isWhole mode around b hmode (hends b rfl)]

/-- White space and a byte with which no number goes on show that a value in a container is over. -/
theorem reach_afterValue (mode : Mode) (c : Container) (outer : List Container)
    (space rest : Bytes) (b : UInt8) (hmode : mode.isWhole = true) (hspace : Spaces space)
    (hends : Ends (b :: rest)) :
    reach ⟨mode, c :: outer⟩ (space ++ b :: rest) = reach ⟨.afterValue, c :: outer⟩ (b :: rest) := by
  have hafter : reach ⟨.afterValue, c :: outer⟩ (space ++ b :: rest) =
      reach ⟨.afterValue, c :: outer⟩ (b :: rest) := by
    rw [reach_append, reach_spaces _ space hspace fun d hd => step_space_afterValue c outer d hd]
    rfl
  rw [← hafter]
  -- without white space the next byte itself shows that a number is over
  cases space with
  | nil => exact reach_of_isWhole mode _ b rest hmode hends
  | cons d space =>
    have hd : Ends (d :: (space ++ b :: rest)) :=
      ends_spaces_append (d :: space) (b :: rest) hspace hends
    exact reach_of_isWhole mode _ d _ hmode hd

/-- White space before a value, a key or a colon changes nothing. -/
theorem reach_space_append (mode : Mode) (around : List Container) (space rest : Bytes)
    (hspace : Spaces space) (hmode : mode ∈ [.value, .firstElement, .firstKey, .nextKey, .colon]) :
    reach ⟨mode, around⟩ (space ++ rest) = reach ⟨mode, around⟩ rest := by
  rw [reach_append, reach_spaces _ space hspace fun b hb => step_space mode around b hb hmode]
  rfl

/-! ### Rows and values -/

/-- The machine takes a row of items up to the end of its container, if it takes each item. -/
theorem reach_row {α : Type} (Item : α → Bytes → Prop) (c : Container) (outer : List Container)
    (mode : Mode) (first : Bool) (xs : List α) (row : Bytes) (h : Row Item first xs row)
    (hitems : ∀ x ∈ xs, ∀ item, Item x item → ∀ start, start = opened c ∨ start = afterComma c →
      ∃ mode', mode'.isWhole = true ∧
        reach ⟨start, c :: outer⟩ item = some ⟨mode', c :: outer⟩)
    (hmode : mode = opened c ∧ first = true ∨ mode.isWhole = true ∧ first = false) :
    reach ⟨mode, c :: outer⟩ (row ++ [c.closing]) = some ⟨.afterValue, outer⟩ := by
  -- the three modes an item or the closing byte can meet
  have hcomma : step ⟨.afterValue, c :: outer⟩ comma = .next ⟨afterComma c, c :: outer⟩ := by
    cases c <;> rfl
  have hopened : opened c ∈ [.value, .firstElement, .firstKey, .nextKey, .colon] := by
    cases c <;> simp [opened]
  have hafter : afterComma c ∈ [.value, .firstElement, .firstKey, .nextKey, .colon] := by
    cases c <;> simp [afterComma]
  -- induction on the row: each item starts where the one before it may be over
  induction h generalizing mode with
  | nil hspace =>
    -- an empty container, or one whose last item is over
    rcases hmode with ⟨rfl, -⟩ | ⟨hmode, -⟩
    · rw [reach_space_append _ _ _ _ hspace hopened]
      cases c <;> rfl
    · rw [reach_afterValue mode _ _ _ [] c.closing hmode hspace
        (ends_cons _ _ (by cases c <;> rfl))]
      cases c <;> rfl
  | @first space item row x xs hspace hitem hrow ih =>
    obtain ⟨hitem', hitems'⟩ := List.forall_mem_cons.mp hitems
    -- nothing stands before the first item
    obtain ⟨rfl, -⟩ : mode = opened c ∧ true = true := by simpa using hmode
    obtain ⟨mode', hmode', hreach⟩ := hitem' item hitem _ (.inl rfl)
    rw [List.append_assoc, reach_space_append _ _ _ _ hspace hopened, List.append_assoc,
      reach_append, hreach, Option.bind_some]
    exact ih mode' hitems' (.inr ⟨hmode', rfl⟩)
  | @next space space' item row x xs hspace hspace' hitem hrow ih =>
    obtain ⟨hitem', hitems'⟩ := List.forall_mem_cons.mp hitems
    -- behind an item a comma comes, and then the next one
    obtain ⟨hwhole, -⟩ : mode.isWhole = true ∧ false = false := by simpa using hmode
    obtain ⟨mode', hmode', hreach⟩ := hitem' item hitem _ (.inr rfl)
    rw [List.append_assoc, List.cons_append,
      reach_afterValue mode _ _ _ _ comma hwhole hspace (ends_cons _ _ rfl),
      reach_cons_of_step _ _ _ _ hcomma, List.append_assoc,
      reach_space_append _ _ _ _ hspace' hafter, List.append_assoc, reach_append, hreach,
      Option.bind_some]
    exact ih mode' hitems' (.inr ⟨hmode', rfl⟩)

/-- As an element of a list a value is taken as anywhere else. -/
theorem reach_element (start : Mode) (around : List Container) (v : Bytes) (h : WellFormed v)
    (hstart : start = opened .list ∨ start = afterComma .list) :
    reach ⟨start, around⟩ v = reach ⟨.value, around⟩ v := by
  rcases hstart with rfl | rfl
  · -- the first element does not start with the closing bracket
    obtain ⟨b, tail, rfl, hspace, hclose⟩ := h.exists_cons
    have hstep : step ⟨.firstElement, around⟩ b = step ⟨.value, around⟩ b := by
      simp only [step, Mode.move, hspace, hclose, Bool.false_eq_true, if_false]
    show reach ⟨.firstElement, around⟩ (b :: tail) = _
    simp only [reach, hstep]
  · rfl

/-- The machine takes a member, if it takes its value. -/
theorem exists_reach_pair {κ : Type} (Key : Bytes → κ → Prop) (around : List Container)
    (start : Mode) (p : κ × Bytes) (item : Bytes) (h : Pair Key p item)
    (hkey : ∀ spelling, Key spelling p.1 → Quotable spelling)
    (hvalue : ∃ mode, mode.isWhole = true ∧
      reach ⟨.value, around⟩ p.2 = some ⟨mode, around⟩)
    (hstart : start = .firstKey ∨ start = .nextKey) :
    ∃ mode, mode.isWhole = true ∧ reach ⟨start, around⟩ item = some ⟨mode, around⟩ := by
  obtain ⟨hspelling, hspace, hspace'⟩ := h
  rename_i spelling space space' value key
  obtain ⟨mode, hmode, hreach⟩ := hvalue
  have hquote : step ⟨start, around⟩ quoteByte = .next ⟨.string true, around⟩ := by
    rcases hstart with rfl | rfl <;> rfl
  refine ⟨mode, hmode, ?_⟩
  -- quote, key, colon and white space are taken one after the other
  rw [reach_cons_of_step _ _ _ _ hquote, ← List.singleton_append, ← List.append_assoc,
    reach_append, reach_string true around spelling (hkey spelling hspelling), Option.bind_some,
    show afterString true = .colon from rfl, reach_space_append _ _ _ _ hspace (by simp),
    reach_cons_of_step _ ⟨.value, around⟩ _ _ rfl, reach_space_append _ _ _ _ hspace' (by simp)]
  exact hreach

/-- The machine takes every value, inside any containers. -/
theorem exists_reach_wellFormed (around : List Container) (v : Bytes) (h : WellFormed v) :
    ∃ mode, mode.isWhole = true ∧ reach ⟨.value, around⟩ v = some ⟨mode, around⟩ := by
  -- induction on the value: a container is a row of values that are taken
  induction h generalizing around with
  | word h =>
    refine ⟨.afterValue, rfl, ?_⟩
    -- the words are three
    simp only [words, List.mem_cons, List.not_mem_nil, or_false] at h
    rcases h with rfl | rfl | rfl <;> rfl
  | string h =>
    refine ⟨.afterValue, rfl, ?_⟩
    rw [reach_cons_of_step _ ⟨.string false, around⟩ _ _ rfl]
    exact reach_string false around _ h
  | number h => exact exists_reach_unsigned .value around _ (.inl rfl) h
  | negative h =>
    obtain ⟨mode, hmode, hreach⟩ := exists_reach_unsigned .sign around _ (.inr rfl) h
    exact ⟨mode, hmode, (reach_cons_of_step _ ⟨.sign, around⟩ _ _ rfl).trans hreach⟩
  | @list row vs hrow hvs ih =>
    refine ⟨.afterValue, rfl, ?_⟩
    rw [reach_cons_of_step _ ⟨opened .list, .list :: around⟩ _ _ rfl]
    refine reach_row Eq .list around _ true vs row hrow ?_ (.inl ⟨rfl, rfl⟩)
    -- each element is taken inside the list
    rintro v hv _ rfl start hstart
    rw [reach_element start _ v (hvs v hv) hstart]
    exact ih v hv (.list :: around)
  | @object row ms hrow hkeys hvs ih =>
    refine ⟨.afterValue, rfl, ?_⟩
    rw [reach_cons_of_step _ ⟨opened .object, .object :: around⟩ _ _ rfl]
    refine reach_row (Pair Eq) .object around _ true ms row hrow ?_ (.inl ⟨rfl, rfl⟩)
    -- each member is a key, which is quotable, and a value
    intro p hp item hitem start hstart
    refine exists_reach_pair Eq _ start p item hitem ?_ (ih p hp (.object :: around)) hstart
    rintro _ rfl
    exact hkeys p hp

/-! ### Values in front of other bytes -/

/-- The machine takes a value inside containers as it takes it alone. -/
theorem exists_reach_of_skip (around : List Container) (v : Bytes) (h : skip v = .ok []) :
    ∃ mode, mode.isWhole = true ∧ reach ⟨.value, around⟩ v = some ⟨mode, around⟩ := by
  -- alone the value ends with no container open, so around it they all stay open
  obtain ⟨a, ⟨mode, inner⟩, hv, hreach, hend⟩ := exists_reach_of_run start v [] h
  rw [List.append_nil] at hv
  obtain ⟨hmode, rfl⟩ := (atEnd_eq_none_iff _).mp hend
  rw [hv]
  exact ⟨mode, hmode, reach_append_around .value mode [] [] around a valid_start hreach⟩

/-- A value is passed over before bytes with which no number goes on. -/
theorem skip_append (v rest : Bytes) (h : skip v = .ok []) (hends : Ends rest) :
    skip (v ++ rest) = .ok rest := by
  obtain ⟨mode, hmode, hreach⟩ := exists_reach_of_skip [] v h
  rw [skip, run_append_of_reach start ⟨mode, []⟩ v rest hreach,
    run_of_isWhole mode [] rest hmode hends]
  cases rest with
  | nil => rfl
  | cons b rest => rfl

/-- What is passed over is a value of its own. -/
theorem exists_skip (bs rest : Bytes) (h : skip bs = .ok rest) :
    ∃ v, bs = v ++ rest ∧ skip v = .ok [] := by
  obtain ⟨v, t, hbs, hreach, hend⟩ := exists_reach_of_run start bs rest h
  refine ⟨v, hbs, ?_⟩
  have hrun := run_append_of_reach start t v [] hreach
  rw [List.append_nil] at hrun
  simp only [skip, hrun, run, hend]

end OneShot.Json.Skip
