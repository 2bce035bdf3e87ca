import Mathlib.Data.List.Induction
import OneShot.Proofs.Json.Passing

/-!
# Completing unfinished values

From a valid state the machine of `Json.Skip` can be led to the end of its value: first the word, the
string or the number that it is in is brought to its end, then the containers around, the innermost
first. `State.completion` is such a continuation.

There is one exception. The digits of a numeric escape are looked at when all four have come, so the
machine goes on inside an escape that has a wrong one among them, for up to three more bytes. Nothing
can come of that.

## Key results

- `exists_reach_completion`: a completion leads to the end of the value
- `exists_run_spoiled`: a numeric escape with a wrong digit is given up when the fourth has come
- `startsValue_iff_of_reach`: which bytes that the machine takes are the beginning of a value
- `breaksEscape_iff`: what bytes look like that end in such an escape
-/

namespace OneShot.Json

/-- Whether bytes are one value, with nothing around it but white space. -/
def IsValue (bs : Bytes) : Prop := ∃ rest, skip bs = .ok rest ∧ Spaces rest

/-- Whether bytes can be continued to a value. -/
def StartsValue (bs : Bytes) : Prop := ∃ e, IsValue (bs ++ e)

namespace Skip

/-! ### Completions -/

/-- What ends the member whose key has just ended, or nothing outside of a key. -/
def memberCompletion (key : Bool) : Bytes := if key then [Json.colon, zeroDigit] else []

/-- What ends the word, the string or the number that the machine is in, and starts and ends a value
where one has to come. -/
def Mode.completion : Mode → Bytes
  | .value | .sign | .point | .exponentMark | .exponentSign => [zeroDigit]
  | .nextKey => [quoteByte, quoteByte, Json.colon, zeroDigit]
  | .colon => [Json.colon, zeroDigit]
  | .literal tail => tail
  | .string key => quoteByte :: memberCompletion key
  -- the escape that was begun is taken for that of a quote
  | .escape key => quoteByte :: quoteByte :: memberCompletion key
  | .hex key owed _ => List.replicate (max 1 owed) zeroDigit ++ quoteByte :: memberCompletion key
  | .firstElement | .firstKey | .afterValue | .zero | .integer | .fraction | .exponent => []

/-- What leads to the end of the value: the containers around are closed last. -/
def State.completion (s : State) : Bytes := s.mode.completion ++ s.around.map Container.closing

/-- Whether the machine is in a numeric escape that has a wrong digit. -/
def Mode.isSpoiled : Mode → Bool
  | .hex _ _ false => true
  | _ => false

/-- The mode after a string of which a completion has come. -/
private theorem reach_memberCompletion (key : Bool) (around : List Container) :
    ∃ mode, mode.isWhole = true ∧
      reach ⟨afterString key, around⟩ (memberCompletion key) = some ⟨mode, around⟩ := by
  cases key with
  | true => exact ⟨.zero, rfl, rfl⟩
  | false => exact ⟨.afterValue, rfl, rfl⟩

/-- The rest of a word ends it. -/
private theorem reach_literal (tail : Bytes) (around : List Container) :
    ∃ mode, mode.isWhole = true ∧ reach ⟨.literal tail, around⟩ tail = some ⟨mode, around⟩ := by
  induction tail with
  | nil => exact ⟨.literal [], rfl, rfl⟩
  | cons c tail ih =>
    have hstep : step ⟨.literal (c :: tail), around⟩ c =
        .next ⟨if tail.isEmpty then .afterValue else .literal tail, around⟩ := by
      simp only [step, Mode.move, beq_self_eq_true, if_true, Move.apply]
    rw [reach_cons_of_step _ _ _ _ hstep]
    cases tail with
    | nil => exact ⟨.afterValue, rfl, rfl⟩
    | cons c' tail => exact ih

/-- Zeros are right for the digits that a numeric escape still needs. -/
private theorem reach_zeros (key : Bool) (owed : Nat) (around : List Container) :
    reach ⟨.hex key owed true, around⟩ (List.replicate (max 1 owed) zeroDigit) =
      some ⟨.string key, around⟩ := by
  -- induction on the digits that are owed; the last one ends the escape
  induction owed with
  | zero => rfl
  | succ owed ih =>
    rcases Nat.eq_zero_or_pos owed with rfl | hpos
    · rfl
    -- while more than one is owed, a digit leaves the escape open
    · have hstep : step ⟨.hex key (owed + 1) true, around⟩ zeroDigit =
          .next ⟨.hex key owed true, around⟩ := by
        have hdigit : (hexValue? zeroDigit).isSome = true := by decide
        simp only [step, Mode.move, hdigit, Bool.and_self, show 1 < owed + 1 from by omega, if_true,
          Nat.add_sub_cancel, Move.apply]
      rw [show max 1 (owed + 1) = max 1 owed + 1 from by omega, List.replicate_succ,
        reach_cons_of_step _ _ _ _ hstep]
      exact ih

/-- The completion of a mode leads to where its value may be over, or leaves a container that was
just opened. -/
private theorem exists_reach_mode (mode : Mode) (around : List Container)
    (hspoiled : mode.isSpoiled = false) :
    ∃ mode', (mode'.isWhole = true ∨ mode' = mode ∧ ∃ c, mode = opened c) ∧
      reach ⟨mode, around⟩ mode.completion = some ⟨mode', around⟩ := by
  cases mode with
  -- where a value or a key is missing, a zero does, with a name in front if it needs one
  | value => exact ⟨.zero, .inl rfl, rfl⟩
  | firstElement => exact ⟨_, .inr ⟨rfl, .list, rfl⟩, rfl⟩
  | firstKey => exact ⟨_, .inr ⟨rfl, .object, rfl⟩, rfl⟩
  | nextKey => exact ⟨.zero, .inl rfl, rfl⟩
  | colon => exact ⟨.zero, .inl rfl, rfl⟩
  | afterValue => exact ⟨.afterValue, .inl rfl, rfl⟩
  -- a word, a string and an escape are gone through to their end
  | literal tail =>
    obtain ⟨mode', hmode', hreach⟩ := reach_literal tail around
    exact ⟨mode', .inl hmode', hreach⟩
  | string key =>
    obtain ⟨mode', hmode', hreach⟩ := reach_memberCompletion key around
    exact ⟨mode', .inl hmode', hreach⟩
  | escape key =>
    obtain ⟨mode', hmode', hreach⟩ := reach_memberCompletion key around
    exact ⟨mode', .inl hmode', hreach⟩
  | hex key owed good =>
    obtain ⟨mode', hmode', hreach⟩ := reach_memberCompletion key around
    cases good with
    | false => cases hspoiled
    | true =>
      refine ⟨mode', .inl hmode', ?_⟩
      show reach _ (List.replicate (max 1 owed) zeroDigit ++ _) = _
      rw [reach_append, reach_zeros key owed around, Option.bind_some]
      exact hreach
  -- a number owes one digit at most
  | sign => exact ⟨.zero, .inl rfl, rfl⟩
  | zero => exact ⟨.zero, .inl rfl, rfl⟩
  | integer => exact ⟨.integer, .inl rfl, rfl⟩
  | point => exact ⟨.fraction, .inl rfl, rfl⟩
  | fraction => exact ⟨.fraction, .inl rfl, rfl⟩
  | exponentMark => exact ⟨.exponent, .inl rfl, rfl⟩
  | exponentSign => exact ⟨.exponent, .inl rfl, rfl⟩
  | exponent => exact ⟨.exponent, .inl rfl, rfl⟩

/-- After a value the containers around can be closed one after the other. -/
private theorem exists_reach_closing (mode : Mode) (around : List Container)
    (hmode : mode.isWhole = true) :
    ∃ t, reach ⟨mode, around⟩ (around.map Container.closing) = some t ∧ atEnd t = none := by
  induction around generalizing mode with
  | nil => exact ⟨⟨mode, []⟩, rfl, (atEnd_eq_none_iff _).mpr ⟨hmode, rfl⟩⟩
  | cons c outer ih =>
    -- a bracket settles that a number is over
    have hstep : step ⟨mode, c :: outer⟩ c.closing = .next ⟨.afterValue, outer⟩ := by
      rw [step_of_isWhole mode (c :: outer) c.closing hmode (by cases c <;> rfl)]
      cases c <;> rfl
    rw [List.map_cons, reach_cons_of_step _ _ _ _ hstep]
    exact ih .afterValue rfl

/-- A completion leads to the end of the value. -/
theorem exists_reach_completion (s : State) (hs : s.Valid) (hspoiled : s.mode.isSpoiled = false) :
    ∃ t, reach s s.completion = some t ∧ atEnd t = none := by
  obtain ⟨mode, around⟩ := s
  obtain ⟨mode', hmode', hreach⟩ := exists_reach_mode mode around hspoiled
  show ∃ t, reach _ (mode.completion ++ around.map Container.closing) = some t ∧ _
  rw [reach_append, hreach, Option.bind_some]
  -- the completion of the mode makes its token whole, or has just opened a container
  rcases hmode' with hwhole | ⟨rfl, c, rfl⟩
  · exact exists_reach_closing mode' around hwhole
  · -- the container that was just opened is the innermost one, and may be empty
    have hnil : around ≠ [] := hs.around_ne_nil (by cases c <;> simp [opened])
    obtain ⟨c', outer, rfl⟩ := List.exists_cons_of_ne_nil hnil
    have hstep : step ⟨opened c, c' :: outer⟩ c'.closing = .next ⟨.afterValue, outer⟩ := by
      cases c <;> obtain rfl := Option.some.inj hs <;> rfl
    rw [List.map_cons, reach_cons_of_step _ _ _ _ hstep]
    exact exists_reach_closing .afterValue outer rfl

/-! ### Spoiled escapes -/

/-- A numeric escape with a wrong digit is given up when the last one has come, and until then it
looks unfinished. -/
theorem exists_run_spoiled (key : Bool) (owed : Nat) (around : List Container) (e : Bytes) :
    ∃ f, run ⟨.hex key owed false, around⟩ e = .error f ∧
      (f.cause.category = .unfinished ↔ e.length < max 1 owed) := by
  -- induction on the bytes, of which each is counted as a digit
  induction e generalizing owed with
  | nil =>
    refine ⟨⟨.endInString, [], 0⟩, rfl, ?_⟩
    show Category.unfinished = .unfinished ↔ 0 < max 1 owed
    simp only [true_iff]
    omega
  | cons b e ih =>
    -- the byte is counted, or it is the last and the escape is refused
    by_cases howed : 1 < owed
    · have hstep : step ⟨.hex key owed false, around⟩ b =
          .next ⟨.hex key (owed - 1) false, around⟩ := by
        simp only [step, Mode.move, Bool.false_and, howed, if_true, Move.apply]
      obtain ⟨f, hrun, hf⟩ := ih (owed - 1)
      refine ⟨f, by rw [run_cons_of_step hstep, hrun], ?_⟩
      rw [hf, List.length_cons]
      omega
    · refine ⟨⟨.invalidEscape, e, 0⟩, ?_, ?_⟩
      · simp only [run, step, Mode.move, Bool.false_and, howed, if_false, Bool.false_eq_true,
          Move.apply, if_true]
      · rw [List.length_cons]
        show Category.malformed = .unfinished ↔ e.length + 1 < max 1 owed
        simp only [reduceCtorEq, false_iff]
        omega

/-! ### Beginnings of values -/

/-- Which bytes that the machine takes are the beginning of a value: all that do not end in a spoiled
escape. -/
theorem startsValue_iff_of_reach (bs : Bytes) (t : State) (h : reach start bs = some t) :
    StartsValue bs ↔ t.mode.isSpoiled = false := by
  have hskip : ∀ e, skip (bs ++ e) = run t e := fun e => run_append_of_reach start t bs e h
  constructor
  · -- what is skipped was not skipped from inside a spoiled escape
    rintro ⟨e, rest, he, -⟩
    rw [hskip] at he
    obtain ⟨mode, around⟩ := t
    cases hmode : mode.isSpoiled with
    | false => rfl
    | true =>
      -- nothing is passed over from inside a spoiled escape
      obtain ⟨key, owed, rfl⟩ : ∃ key owed, mode = .hex key owed false := by
        cases mode with
        | hex key owed good =>
          cases good with
          | false => exact ⟨key, owed, rfl⟩
          | true => cases hmode
        | _ => cases hmode
      obtain ⟨f, hrun, -⟩ := exists_run_spoiled key owed around e
      rw [hrun] at he
      cases he
  · intro hspoiled
    -- any other state has a completion
    obtain ⟨t', hreach, hend⟩ := exists_reach_completion t (valid_start.reach h) hspoiled
    have hrun := run_append_of_reach t t' t.completion [] hreach
    rw [List.append_nil] at hrun
    refine ⟨t.completion, [], ?_, spaces_nil⟩
    rw [hskip, hrun, run, hend]

/-- The byte that is refused makes the bytes malformed, not unfinished. -/
private theorem category_of_refuse (s : State) (b : UInt8) (cause : Cause) (read : Bool)
    (h : step s b = .refuse cause read) : cause.category = .malformed := by
  obtain ⟨mode, around⟩ := s
  -- after a value only the outermost level refuses nothing
  have hafter : afterValue around b = .refuse cause read → cause.category = .malformed := by
    intro h
    rcases around with _ | ⟨_ | _, outer⟩
    · cases h
    all_goals
      -- inside a container, what is neither comma nor closing bracket is refused
      simp only [afterValue] at h
      repeat' split at h
      all_goals cases h
      all_goals rfl
  -- no value begins with the byte
  have hbegin : (beginValue b).apply around b = .refuse cause read →
      cause.category = .malformed := by
    intro h
    unfold beginValue at h
    repeat' split at h
    all_goals cases h
    all_goals rfl
  -- a byte is refused where it stands, where a value has to start, or after a value
  cases mode with
  | value =>
    simp only [step, Mode.move] at h
    split at h
    · cases h
    · exact hbegin h
  | firstElement =>
    simp only [step, Mode.move] at h
    split at h
    · cases h
    · split at h
      · cases h
      · exact hbegin h
  | literal tail =>
    cases tail with
    | nil => exact hafter h
    | cons c tail =>
      simp only [step, Mode.move] at h
      split at h <;> cases h
      rfl
  | afterValue => exact hafter h
  -- the other modes refuse by themselves or through what stands after a value
  | _ =>
    simp only [step, Mode.move] at h
    repeat' split at h
    all_goals first
      | exact hafter h
      | (cases h; done)
      | (cases h; rfl)

/-- Bytes that look unfinished are all taken. -/
theorem exists_reach_of_isPrefix (bs : Bytes) (h : isPrefix bs = true) :
    ∃ t, reach start bs = some t := by
  have hrun : ∀ s f, run s bs = .error f → f.cause.category = .unfinished →
      ∃ t, reach s bs = some t := by
    -- induction on the bytes: none of them can be refused, for a refusal says malformed
    clear h
    induction bs with
    -- the end of the bytes is a state
    | nil => exact fun s _ _ _ => ⟨s, rfl⟩
    | cons b bs ih =>
      intro s f hrun hf
      simp only [run] at hrun
      split at hrun
      · rename_i s' hstep
        rw [reach_cons_of_step s s' b bs hstep]
        exact ih s' f hrun hf
      · cases hrun
      -- a refusal has the category of malformed input, and is not one of the cut short
      · rename_i cause read hstep
        obtain rfl := Except.error.inj hrun
        rw [category_of_refuse s b cause read hstep] at hf
        cases hf
  unfold isPrefix at h
  split at h
  · cases h
  · rename_i f hskip
    exact hrun start f hskip (eq_of_beq h)

/-! ### Where escapes are spoiled -/

/-- Whether bytes end inside a numeric escape that has a wrong digit. -/
def breaksEscape (bs : Bytes) : Bool :=
  match reach start bs with
  | some t => t.mode.isSpoiled
  | none => false

/-- Bytes that look unfinished are the beginning of a value, unless they break an escape. -/
theorem startsValue_iff_of_isPrefix (bs : Bytes) (h : isPrefix bs = true) :
    StartsValue bs ↔ breaksEscape bs = false := by
  obtain ⟨t, hreach⟩ := exists_reach_of_isPrefix bs h
  rw [startsValue_iff_of_reach bs t hreach, breaksEscape, hreach]

/-- The byte that starts a value starts no escape. -/
private theorem beginValue_ne_escape (b : UInt8) (key : Bool) :
    beginValue b ≠ .go (.escape key) ∧ ∀ owed good, beginValue b ≠ .go (.hex key owed good) := by
  unfold beginValue
  repeat' split
  all_goals simp

/-- A backslash inside a string starts an escape. A numeric escape starts with its letter, and goes
on with each byte behind it. -/
private theorem escape_of_go (mode : Mode) (b : UInt8) (key : Bool) :
    (mode.move b = .go (.escape key) → mode = .string key ∧ b = backslash) ∧
      ∀ owed good, mode.move b = .go (.hex key owed good) →
        (mode = .escape key ∧ b = 0x75 ∧ owed = 4 ∧ good = true) ∨
          ∃ good', mode = .hex key (owed + 1) good' ∧ 0 < owed ∧
            good = (good' && (hexValue? b).isSome) := by
  have hbegin := beginValue_ne_escape b key
  -- a code is entered from an escape, an escape from a string, and from nowhere else
  cases mode with
  | string key' =>
    -- a backslash opens an escape
    simp only [Mode.move, afterString]
    repeat' split
    all_goals simp_all
  | escape key' =>
    simp only [Mode.move]
    repeat' split
    all_goals simp_all
  | hex key' owed' good' =>
    simp only [Mode.move]
    split
    · -- one digit less is owed than before
      refine ⟨by simp, fun owed good h => .inr ⟨good', ?_⟩⟩
      simp only [Move.go.injEq, Mode.hex.injEq] at h
      obtain ⟨rfl, rfl, rfl⟩ := h
      refine ⟨?_, by omega, rfl⟩
      rw [show owed' - 1 + 1 = owed' from by omega]
    -- the last digit goes back to the string, or spoils
    · split <;> simp
  | literal tail =>
    cases tail with
    | nil => simp [Mode.move]
    | cons c tail =>
      simp only [Mode.move]
      repeat' split
      all_goals simp
  | _ =>
    simp only [Mode.move]
    repeat' split
    all_goals simp [hbegin]

/-- A step to a mode that neither starts an item nor comes after one leaves the containers as they
are. -/
private theorem move_of_step (s : State) (b : UInt8) (mode : Mode) (around : List Container)
    (hmode : mode ≠ .afterValue ∧ ∀ c, mode ≠ opened c ∧ mode ≠ afterComma c)
    (h : step s b = .next ⟨mode, around⟩) : s.mode.move b = .go mode ∧ s.around = around := by
  rcases step_cases s _ b h with ⟨_, hmove, heq⟩ | ⟨c, -, heq⟩ | ⟨-, heq⟩ | ⟨-, hafter⟩
  · obtain ⟨rfl, rfl⟩ := State.mk.inj heq
    exact ⟨hmove, rfl⟩
  · exact absurd (State.mk.inj heq).1 (hmode.2 c).1
  · exact absurd (State.mk.inj heq).1 hmode.1
  · obtain ⟨c, outer, -, heq | heq | heq⟩ := afterValue_cases s.around b _ hafter
    · exact absurd (State.mk.inj heq).1 hmode.1
    · exact absurd (State.mk.inj heq).1 (hmode.2 c).2
    · exact absurd (State.mk.inj heq).1 hmode.1

/-- The last byte that the machine has taken. -/
private theorem exists_step_of_reach_concat (bs : Bytes) (b : UInt8) (t : State)
    (h : reach start (bs ++ [b]) = some t) : ∃ s, reach start bs = some s ∧ step s b = .next t := by
  obtain ⟨s, hs, ht⟩ := exists_reach_of_append start t bs [b] h
  obtain ⟨s', hstep, hs'⟩ := exists_step_of_reach s t b [] ht
  obtain rfl := Option.some.inj hs'
  exact ⟨s, hs, hstep⟩

/-- Bytes that end behind a backslash end in a string. -/
private theorem exists_of_reach_escape (bs : Bytes) (key : Bool) (around : List Container)
    (h : reach start bs = some ⟨.escape key, around⟩) :
    ∃ a, bs = a ++ [backslash] ∧ reach start a = some ⟨.string key, around⟩ := by
  rcases List.eq_nil_or_concat' bs with rfl | ⟨a, b, rfl⟩
  · cases h
  · obtain ⟨⟨mode, outer⟩, ha, hstep⟩ := exists_step_of_reach_concat a b _ h
    obtain ⟨hmove, rfl⟩ := move_of_step _ b _ around
      ⟨by simp, fun c => by cases c <;> simp [opened, afterComma]⟩ hstep
    obtain ⟨rfl, rfl⟩ := (escape_of_go mode b key).1 hmove
    exact ⟨a, rfl, ha⟩

/-- Bytes that end inside a numeric escape: the digits that have come, and whether all of them are
right. -/
private theorem exists_of_reach_hex (bs : Bytes) (key good : Bool) (owed : Nat)
    (around : List Container) (h : reach start bs = some ⟨.hex key owed good, around⟩) :
    ∃ a digits, bs = a ++ backslash :: 0x75 :: digits ∧
      reach start a = some ⟨.string key, around⟩ ∧ digits.length + owed = 4 ∧ 0 < owed ∧
      good = digits.all fun d => (hexValue? d).isSome := by
  -- induction from behind, down to the letter of the escape
  induction bs using List.reverseRecOn generalizing owed good with
  | nil => cases h
  | append_singleton bs b ih =>
    obtain ⟨⟨mode, outer⟩, hbs, hstep⟩ := exists_step_of_reach_concat bs b _ h
    obtain ⟨hmove, rfl⟩ := move_of_step _ b _ around
      ⟨by simp, fun c => by cases c <;> simp [opened, afterComma]⟩ hstep
    rcases (escape_of_go mode b key).2 owed good hmove with
      ⟨rfl, rfl, rfl, rfl⟩ | ⟨good', rfl, howed, rfl⟩
    -- this byte is the letter, and the backslash is before it
    · obtain ⟨a, rfl, ha⟩ := exists_of_reach_escape bs key outer hbs
      exact ⟨a, [], by simp, ha, rfl, by decide, rfl⟩
    -- this byte is one of the digits
    · obtain ⟨a, digits, rfl, ha, hlength, -, rfl⟩ := ih good' (owed + 1) hbs
      refine ⟨a, digits ++ [b], by simp, ha, ?_, howed, ?_⟩
      · rw [List.length_append, List.length_singleton]
        omega
      · rw [List.all_append, List.all_cons, List.all_nil, Bool.and_true]

/-- Behind the letter of a numeric escape the machine counts the bytes, up to the third. -/
private theorem reach_escape (a digits : Bytes) (key : Bool) (around : List Container)
    (ha : reach start a = some ⟨.string key, around⟩) (hlength : digits.length < 4) :
    reach start (a ++ backslash :: 0x75 :: digits) =
      some ⟨.hex key (4 - digits.length) (digits.all fun d => (hexValue? d).isSome), around⟩ := by
  have hbackslash : step ⟨.string key, around⟩ backslash = .next ⟨.escape key, around⟩ := rfl
  have hu : step ⟨.escape key, around⟩ 0x75 = .next ⟨.hex key 4 true, around⟩ := rfl
  rw [reach_append, ha, Option.bind_some, reach_cons_of_step _ _ _ _ hbackslash,
    reach_cons_of_step _ _ _ _ hu]
  -- one case for each number of bytes that have come
  match digits, hlength with
  | [], _ => rfl
  | [p], _ => simp [reach, step, Mode.move, Move.apply]
  | [p, q], _ => simp [reach, step, Mode.move, Move.apply]
  | [p, q, r], _ => simp [reach, step, Mode.move, Move.apply, Bool.and_assoc]
  | _ :: _ :: _ :: _ :: _, hlength => simp only [List.length_cons] at hlength; omega

/-- Bytes break an escape if they end behind the letter of a numeric escape and fewer than four
bytes, one of which is no hexadecimal digit. -/
theorem breaksEscape_iff (bs : Bytes) :
    breaksEscape bs = true ↔
      ∃ a digits key around, bs = a ++ backslash :: 0x75 :: digits ∧ digits.length < 4 ∧
        (digits.all fun d => (hexValue? d).isSome) = false ∧
        reach start a = some ⟨.string key, around⟩ := by
  constructor
  · intro h
    unfold breaksEscape at h
    split at h
    · rename_i t hreach
      obtain ⟨mode, around⟩ := t
      -- the machine stands inside a code with a wrong digit, or nothing is broken
      cases mode with
      | hex key owed good =>
        cases good with
        | true => cases h
        | false =>
          obtain ⟨a, digits, rfl, ha, hlength, howed, hgood⟩ :=
            exists_of_reach_hex bs key false owed around hreach
          exact ⟨a, digits, key, around, rfl, by omega, hgood.symm, ha⟩
      | _ => cases h
    · cases h
  · -- what stands behind the `u` leads the machine into the code
    rintro ⟨a, digits, key, around, rfl, hlength, hwrong, ha⟩
    rw [breaksEscape, reach_escape a digits key around ha hlength, hwrong]
    rfl

/-- Bytes that break an escape look unfinished, and do so for at most three more bytes. No
continuation makes a value of them. -/
theorem isPrefix_append_of_breaksEscape (bs : Bytes) (h : breaksEscape bs = true) :
    isPrefix bs = true ∧ (∀ e : Bytes, 3 ≤ e.length → isPrefix (bs ++ e) = false) ∧
      ∀ e, ¬StartsValue (bs ++ e) := by
  obtain ⟨a, digits, key, around, rfl, hlength, hwrong, ha⟩ := (breaksEscape_iff bs).mp h
  have hreach := reach_escape a digits key around ha hlength
  rw [hwrong] at hreach
  -- a byte has come that is no digit
  have hpos : 0 < digits.length := by
    apply List.length_pos_iff.mpr
    rintro rfl
    cases hwrong
  -- what comes is counted against the digits that are owed
  have hlooks : ∀ e : Bytes, isPrefix (a ++ backslash :: 0x75 :: digits ++ e) = true ↔
      e.length < max 1 (4 - digits.length) := by
    intro e
    obtain ⟨f, hrun, hf⟩ := exists_run_spoiled key (4 - digits.length) around e
    rw [isPrefix, skip, run_append_of_reach start _ _ e hreach, hrun]
    simpa using hf
  refine ⟨?_, fun e he => ?_, fun e hvalue => ?_⟩
  · -- with nothing behind it the buffer is waited on
    rw [← List.append_nil (_ ++ _), hlooks]
    show 0 < max 1 (4 - digits.length)
    omega
  · -- three more bytes end the wait
    rw [Bool.eq_false_iff, ne_eq, hlooks]
    omega
  · -- a value that began with the buffer would begin with a spoiled escape
    obtain ⟨e', he'⟩ := hvalue
    rw [List.append_assoc] at he'
    have hstarts := (startsValue_iff_of_reach _ _ hreach).mp ⟨e ++ e', he'⟩
    cases hstarts

end Skip

end OneShot.Json
