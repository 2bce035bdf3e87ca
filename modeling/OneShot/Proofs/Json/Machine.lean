import Mathlib.Data.List.TakeWhile
import OneShot.Json.Skip

/-!
# The machine that passes over values

What the machine of `Json.Skip` reaches by reading bytes, and what stays true of it on the way.

A state is `Valid` if its mode fits the innermost container. Every state that the machine reaches is
valid, and it works the same inside more containers. It is `Inside` a value if the value can only
end by its closing bracket; this is so from the first byte of a list or an object on.

## Key results

- `exists_reach_of_run`: a value that is passed over leaves the machine where it may end
- `reach_append_around`: inside more containers the machine does the same
- `Valid.reach`, `Inside.reach`: what a run preserves
-/

namespace OneShot.Json

/-! ### White space -/

/-- Bytes that are white space. -/
def Spaces (bs : Bytes) : Prop := ∀ b ∈ bs, isSpace b = true

theorem spaces_nil : Spaces [] := List.forall_mem_nil _

theorem spaces_append (a b : Bytes) : Spaces (a ++ b) ↔ Spaces a ∧ Spaces b :=
  List.forall_mem_append

/-- White space at the front is passed over. -/
theorem skipSpace_append (space rest : Bytes) (h : Spaces space) :
    skipSpace (space ++ rest) = skipSpace rest :=
  List.dropWhile_append_of_pos h

/-- Nothing is passed over before a byte that is no white space. -/
theorem skipSpace_cons (b : UInt8) (rest : Bytes) (h : isSpace b = false) :
    skipSpace (b :: rest) = b :: rest := by
  rw [skipSpace, List.dropWhile_cons_of_neg (by rw [h]; exact Bool.false_ne_true)]

/-- All white space at the front is passed over, and nothing else. -/
theorem skipSpace_eq_cons_iff (b : UInt8) (bs rest : Bytes) :
    skipSpace bs = b :: rest ↔
      ∃ space, Spaces space ∧ isSpace b = false ∧ bs = space ++ b :: rest := by
  constructor
  · intro h
    have hb := List.head?_dropWhile_not isSpace bs
    rw [show bs.dropWhile isSpace = b :: rest from h] at hb
    refine ⟨bs.takeWhile isSpace, fun _ hmem => List.mem_takeWhile_imp hmem, by simpa using hb, ?_⟩
    rw [← h, skipSpace, List.takeWhile_append_dropWhile]
  · intro h
    obtain ⟨space, hspace, hb, rfl⟩ := h
    rw [skipSpace_append space _ hspace, skipSpace_cons b rest hb]

theorem skipSpace_eq_nil_iff (bs : Bytes) : skipSpace bs = [] ↔ Spaces bs := by
  rw [skipSpace, List.dropWhile_eq_nil_iff]
  rfl

namespace Skip

/-! ### What the machine reaches -/

/-- The state after bytes, `none` if the machine stops or refuses one of them. -/
def reach (s : State) : Bytes → Option State
  | [] => some s
  | b :: bs =>
    match step s b with
    | .next s' => reach s' bs
    | .stop | .refuse _ _ => none

@[simp] theorem reach_nil (s : State) : reach s [] = some s := rfl

theorem reach_cons_of_step (s s' : State) (b : UInt8) (bs : Bytes) (h : step s b = .next s') :
    reach s (b :: bs) = reach s' bs := by
  simp only [reach, h]

/-- The machine takes the first byte of what it reads. -/
theorem exists_step_of_reach (s t : State) (b : UInt8) (bs : Bytes)
    (h : reach s (b :: bs) = some t) : ∃ s', step s b = .next s' ∧ reach s' bs = some t := by
  simp only [reach] at h
  split at h
  · rename_i s' hstep
    exact ⟨s', hstep, h⟩
  · cases h
  · cases h

theorem reach_append (s : State) (a b : Bytes) :
    reach s (a ++ b) = (reach s a).bind (reach · b) := by
  induction a generalizing s with
  | nil => rfl
  | cons c a ih =>
    simp only [List.cons_append, reach]
    split
    · exact ih _
    · rfl
    · rfl

/-- What is reached after all bytes is reached through what is reached after the first ones. -/
theorem exists_reach_of_append (s t : State) (a b : Bytes) (h : reach s (a ++ b) = some t) :
    ∃ s', reach s a = some s' ∧ reach s' b = some t := by
  rw [reach_append] at h
  exact Option.bind_eq_some_iff.mp h

/-- A run goes on from what is reached. -/
theorem run_append_of_reach (s t : State) (a rest : Bytes) (h : reach s a = some t) :
    run s (a ++ rest) = run t rest := by
  induction a generalizing s with
  | nil =>
    obtain rfl := Option.some.inj h
    rfl
  | cons b a ih =>
    obtain ⟨s', hstep, h⟩ := exists_step_of_reach s t b a h
    rw [List.cons_append, run_cons_of_step hstep, ih s' h]

/-! ### One step -/

/-- What a step can do: the mode changes, a container starts, an empty one ends, or the value is over
and the containers decide. -/
theorem step_cases (s s' : State) (b : UInt8) (h : step s b = .next s') :
    (∃ mode, s.mode.move b = .go mode ∧ s' = ⟨mode, s.around⟩) ∨
      (∃ c, s.mode.move b = .enter c ∧ s' = ⟨opened c, c :: s.around⟩) ∨
      (s.mode.move b = .leave ∧ s' = ⟨.afterValue, s.around.tail⟩) ∨
      (s.mode.move b = .after ∧ afterValue s.around b = .next s') := by
  simp only [step] at h
  -- a byte goes on, opens, closes or is left to what is around; a refusal is no step
  cases hmove : s.mode.move b with
  | go mode =>
    rw [hmove] at h
    exact .inl ⟨mode, rfl, (Reaction.next.inj h).symm⟩
  | enter c =>
    rw [hmove] at h
    exact .inr (.inl ⟨c, rfl, (Reaction.next.inj h).symm⟩)
  | leave =>
    rw [hmove] at h
    exact .inr (.inr (.inl ⟨rfl, (Reaction.next.inj h).symm⟩))
  | after =>
    rw [hmove] at h
    exact .inr (.inr (.inr ⟨rfl, h⟩))
  | refuse cause read =>
    rw [hmove] at h
    cases h

/-- The mode after a comma. -/
def afterComma : Container → Mode
  | .list => .value
  | .object => .nextKey

/-- What can come after a value in a container: white space, a comma, or the end of the container. -/
theorem afterValue_cases (around : List Container) (b : UInt8) (s' : State)
    (h : afterValue around b = .next s') :
    ∃ c outer, around = c :: outer ∧ (s' = ⟨.afterValue, c :: outer⟩ ∨
      s' = ⟨afterComma c, c :: outer⟩ ∨ s' = ⟨.afterValue, outer⟩) := by
  rcases around with _ | ⟨_ | _, outer⟩
  · -- outside any container nothing goes on
    cases h
  all_goals
    refine ⟨_, outer, rfl, ?_⟩
    simp only [afterValue] at h
    -- white space, a comma or the closing byte of the container
    split at h
    · exact .inl (Reaction.next.inj h).symm
    · split at h
      · exact .inr (.inl (Reaction.next.inj h).symm)
      · split at h
        · exact .inr (.inr (Reaction.next.inj h).symm)
        · cases h

/-! ### Where a value may end -/

/-- Whether a value may be over in this mode. -/
def Mode.isWhole : Mode → Bool
  | .afterValue | .literal [] | .zero | .integer | .fraction | .exponent => true
  | _ => false

/-- The bytes may end exactly where a value may be over and no container is open. -/
theorem atEnd_eq_none_iff (s : State) :
    atEnd s = none ↔ s.mode.isWhole = true ∧ s.around = [] := by
  obtain ⟨mode, around⟩ := s
  have hafter : endAfterValue around = none ↔ around = [] := by
    rcases around with _ | ⟨_ | _, _⟩ <;> simp [endAfterValue]
  cases mode with
  | literal tail => cases tail <;> simp [atEnd, Mode.isWhole, hafter]
  | _ => simp [atEnd, Mode.isWhole, hafter]

/-- Before a value the bytes may not end. -/
theorem atEnd_start_ne_none : atEnd start ≠ none := by
  rw [ne_eq, atEnd_eq_none_iff]
  decide

/-- Whether a number still needs a digit in this mode. -/
def Mode.owesDigit : Mode → Bool
  | .sign | .point | .exponentMark | .exponentSign => true
  | _ => false

/-- Bytes that end where no value may be over are unfinished, unless a number needs a digit. -/
theorem category_of_atEnd (s : State) (cause : Cause) (h : atEnd s = some cause) :
    cause.category = .unfinished ↔ s.mode.owesDigit = false := by
  obtain ⟨mode, around⟩ := s
  -- behind a whole value only an open container can miss something
  have hafter : endAfterValue around = some cause → cause.category = .unfinished := by
    intro hc
    rcases around with _ | ⟨_ | _, _⟩ <;> simp only [endAfterValue, reduceCtorEq,
      Option.some.injEq] at hc <;> rw [← hc] <;> rfl
  cases mode with
  | literal tail =>
    cases tail with
    -- the last byte of the word was there
    | nil => simp [Mode.owesDigit, hafter h]
    | cons c tail => simp [← Option.some.inj h, Mode.owesDigit, Cause.category]
  | afterValue | zero | integer | fraction | exponent => simp [Mode.owesDigit, hafter h]
  | _ => simp [← Option.some.inj h, Mode.owesDigit, Cause.category]

/-- The byte that starts a value ends none. -/
private theorem beginValue_ne (b : UInt8) : beginValue b ≠ .after ∧ beginValue b ≠ .leave := by
  unfold beginValue
  repeat' split
  all_goals simp

/-- Only where a value may be over does a byte end it, and only an empty container ends without a
value in it. -/
private theorem mode_of_move (mode : Mode) (b : UInt8) :
    (mode.move b = .after → mode.isWhole = true) ∧
      (mode.move b = .leave → mode = .firstElement ∨ mode = .firstKey) := by
  -- a byte that begins a value is taken, or refused
  have hbegin := beginValue_ne b
  cases mode with
  -- a word goes on byte by byte and is over behind the last one
  | literal tail =>
    cases tail with
    | nil => simp [Mode.move, Mode.isWhole]
    | cons c tail =>
      simp only [Mode.move]
      split <;> simp
  | _ =>
    simp only [Mode.move]
    repeat' split
    all_goals simp [hbegin, Mode.isWhole]

/-- The machine stops exactly where a value may be over and no container is open. -/
private theorem atEnd_of_stop (s : State) (b : UInt8) (h : step s b = .stop) :
    atEnd s = none := by
  simp only [step] at h
  cases hmove : s.mode.move b with
  | after =>
    simp only [hmove, Move.apply] at h
    refine (atEnd_eq_none_iff s).mpr ⟨(mode_of_move s.mode b).1 hmove, ?_⟩
    -- inside a container a byte is taken or refused, so nothing is around
    rcases haround : s.around with _ | ⟨_ | _, outer⟩
    · rfl
    all_goals
      rw [haround] at h
      simp only [afterValue] at h
      repeat' split at h
      all_goals cases h
  | _ => simp only [hmove, Move.apply] at h; cases h

/-- A value that is passed over leaves the machine where the value may end. -/
theorem exists_reach_of_run (s : State) (bs rest : Bytes) (h : run s bs = .ok rest) :
    ∃ a t, bs = a ++ rest ∧ reach s a = some t ∧ atEnd t = none := by
  -- induction on the bytes, each of which is taken or ends the run
  induction bs generalizing s with
  | nil =>
    simp only [run] at h
    split at h
    · rename_i hend
      obtain rfl := Except.ok.inj h
      exact ⟨[], s, rfl, rfl, hend⟩
    · cases h
  | cons b bs ih =>
    simp only [run] at h
    split at h
    · rename_i s' hstep
      -- the byte was taken, and the run goes on from there
      obtain ⟨a, t, rfl, hreach, hend⟩ := ih s' h
      exact ⟨b :: a, t, rfl, by rw [reach_cons_of_step s s' b a hstep, hreach], hend⟩
    · rename_i hstop
      obtain rfl := Except.ok.inj h
      exact ⟨[], s, rfl, rfl, atEnd_of_stop s b hstop⟩
    · cases h

/-- Whether bytes are an unfinished value shows in what the machine reaches by them. -/
theorem isPrefix_iff_of_reach (bs : Bytes) (t : State) (h : reach start bs = some t) :
    isPrefix bs = true ↔ atEnd t ≠ none ∧ t.mode.owesDigit = false := by
  have hrun : skip bs = run t [] := by
    have := run_append_of_reach start t bs [] h
    rwa [List.append_nil] at this
  simp only [isPrefix, hrun, run]
  cases hend : atEnd t with
  | none => simp
  | some cause =>
    simp only [beq_iff_eq, ne_eq, reduceCtorEq, not_false_eq_true, true_and]
    exact category_of_atEnd t cause hend

/-- Whether bytes end inside a value where a number still needs a digit. -/
def owesDigit (bs : Bytes) : Bool :=
  match reach start bs with
  | some t => t.mode.owesDigit
  | none => false

/-- Where a number needs a digit, the value does not count as unfinished. -/
theorem owesDigit_of_isPrefix (bs : Bytes) (h : isPrefix bs = true) : owesDigit bs = false := by
  simp only [owesDigit]
  split
  · rename_i t hreach
    exact ((isPrefix_iff_of_reach bs t hreach).mp h).2
  · rfl

/-! ### The containers around -/

/-- A step keeps the containers, opens one more, or closes the innermost one. -/
theorem around_of_step (s s' : State) (b : UInt8) (h : step s b = .next s') :
    s'.around = s.around ∨ (∃ c, s'.around = c :: s.around) ∨
      (s'.around = s.around.tail ∧ s'.mode = .afterValue) := by
  rcases step_cases s s' b h with ⟨_, -, rfl⟩ | ⟨c, -, rfl⟩ | ⟨-, rfl⟩ | ⟨-, hafter⟩
  · exact .inl rfl
  · exact .inr (.inl ⟨c, rfl⟩)
  · exact .inr (.inr ⟨rfl, rfl⟩)
  · obtain ⟨c, outer, haround, hs'⟩ := afterValue_cases s.around b s' hafter
    rw [haround]
    rcases hs' with rfl | rfl | rfl
    · exact .inl rfl
    · exact .inl rfl
    · exact .inr (.inr ⟨rfl, rfl⟩)

/-- After a value only the innermost container counts. -/
private theorem afterValue_append (inner outer : List Container) (b : UInt8) (s' : State)
    (h : afterValue inner b = .next s') :
    afterValue (inner ++ outer) b = .next ⟨s'.mode, s'.around ++ outer⟩ := by
  rcases inner with _ | ⟨c, inner⟩
  · cases h
  -- only the innermost container is looked at
  · cases c <;> simp only [afterValue, List.cons_append] at h ⊢
    all_goals
      split at h
      · simp_all [← Reaction.next.inj h]
      · split at h
        · simp_all [← Reaction.next.inj h]
        · split at h
          · simp_all [← Reaction.next.inj h]
          · cases h

/-- Inside more containers a step does the same. -/
theorem step_append_around (mode mode' : Mode) (inner inner' outer : List Container) (b : UInt8)
    (hopen : mode = .firstElement ∨ mode = .firstKey → inner ≠ [])
    (h : step ⟨mode, inner⟩ b = .next ⟨mode', inner'⟩) :
    step ⟨mode, inner ++ outer⟩ b = .next ⟨mode', inner' ++ outer⟩ := by
  -- all but closing leave the containers alone or add one
  rcases step_cases _ _ b h with ⟨m, hmove, heq⟩ | ⟨c, hmove, heq⟩ | ⟨hmove, heq⟩ | ⟨hmove, hafter⟩
  · obtain ⟨rfl, rfl⟩ := State.mk.inj heq
    simp only [step, hmove, Move.apply]
  · obtain ⟨rfl, rfl⟩ := State.mk.inj heq
    simp only [step, hmove, Move.apply, List.cons_append]
  · -- the container that ends is one of the inner ones
    obtain ⟨rfl, rfl⟩ := State.mk.inj heq
    have hinner := hopen ((mode_of_move mode b).2 hmove)
    simp only [step, hmove, Move.apply, List.tail_append_of_ne_nil hinner]
  · simp only [step, hmove, Move.apply]
    exact afterValue_append inner outer b _ hafter

/-! ### Valid states -/

/-- What may be left of a word of the grammar after its first letter. -/
def wordTails : List Bytes :=
  [nullTail, nullTail.drop 1, nullTail.drop 2, trueTail, trueTail.drop 1, trueTail.drop 2,
    falseTail, falseTail.drop 1, falseTail.drop 2, falseTail.drop 3]

/-- Whether a mode fits the innermost container. -/
def Mode.Fits (mode : Mode) (around : List Container) : Prop :=
  match mode with
  | .firstElement => around.head? = some .list
  | .firstKey | .nextKey | .colon | .string true | .escape true | .hex true _ _ =>
    around.head? = some .object
  | .literal tail => tail ∈ wordTails
  | _ => True

/-- A state in which the mode fits the innermost container. -/
def State.Valid (s : State) : Prop := s.mode.Fits s.around

/-- An empty container can only end where one is open. -/
theorem State.Valid.around_ne_nil {s : State} (hs : s.Valid)
    (h : s.mode = .firstElement ∨ s.mode = .firstKey) : s.around ≠ [] := by
  intro hnil
  unfold State.Valid at hs
  rcases h with h | h <;> rw [h, hnil] at hs <;> cases hs

/-- The first letter of a word leaves a tail of a word. -/
private theorem mem_wordTails_of_literalTail? (b : UInt8) (tail : Bytes)
    (h : literalTail? b = some tail) : tail ∈ wordTails := by
  unfold literalTail? at h
  split at h
  · rw [← Option.some.inj h]; decide
  · split at h
    · rw [← Option.some.inj h]; decide
    · split at h
      · rw [← Option.some.inj h]; decide
      · cases h

/-- What is left of a tail of a word after a letter is one again, or nothing. -/
private theorem mem_wordTails_of_cons (c : UInt8) (tail : Bytes) (h : c :: tail ∈ wordTails)
    (hne : tail ≠ []) : tail ∈ wordTails := by
  have hall : ∀ t ∈ wordTails, t.tail = [] ∨ t.tail ∈ wordTails := by decide
  exact (hall _ h).resolve_left hne

/-- The byte that starts a value leads to a mode that fits any containers. -/
private theorem fits_of_beginValue (around : List Container) (b : UInt8) (mode' : Mode)
    (h : beginValue b = .go mode') : mode'.Fits around := by
  unfold beginValue at h
  split at h
  · rename_i tail htail
    rw [← Move.go.inj h]
    exact mem_wordTails_of_literalTail? b tail htail
  · repeat' split at h
    all_goals first
      | (cases h; done)
      | (cases h; trivial)

/-- A byte that leaves the containers as they are leads to a mode that fits them. -/
private theorem fits_of_go (mode mode' : Mode) (around : List Container) (b : UInt8)
    (hmode : mode.Fits around) (h : mode.move b = .go mode') : mode'.Fits around := by
  -- only `firstElement`, the modes inside a key and the words ask for anything
  cases mode with
  | value =>
    simp only [Mode.move] at h
    split at h
    · rw [← Move.go.inj h]; trivial
    · exact fits_of_beginValue around b mode' h
  | firstElement =>
    simp only [Mode.move] at h
    split at h
    · -- white space leaves the mode, and what it asks for, as they were
      rw [← Move.go.inj h]; exact hmode
    · split at h
      · cases h
      · exact fits_of_beginValue around b mode' h
  | literal tail =>
    rcases tail with _ | ⟨c, tail⟩ <;> simp only [Mode.move] at h
    · cases h
    · split at h
      · rw [← Move.go.inj h]
        by_cases htail : tail = []
        · rw [htail]; trivial
        · rw [if_neg (by simpa using htail)]
          -- the rest of a word is a rest of the same word
          exact mem_wordTails_of_cons c tail hmode htail
      · cases h
  | string key | escape key | hex key owed good =>
    -- inside a key an object is open, and stays so after it
    cases key <;> simp only [Mode.move, afterString] at h
    all_goals
      repeat' split at h
      all_goals first
        | (cases h; done)
        | (cases h; exact hmode)
        | (cases h; trivial)
  | _ =>
    simp only [Mode.move] at h
    repeat' split at h
    all_goals first
      | (cases h; done)
      | (cases h; exact hmode)
      | (cases h; trivial)

/-- After a value the machine stays in a mode that fits. -/
private theorem fits_of_afterValue (around : List Container) (b : UInt8) (s' : State)
    (h : afterValue around b = .next s') : s'.Valid := by
  obtain ⟨c, outer, -, rfl | rfl | rfl⟩ := afterValue_cases around b s' h
  · trivial
  · cases c with
    | list => trivial
    | object => rfl
  · trivial

theorem valid_start : start.Valid := trivial

/-- A container that was just opened is valid. -/
theorem valid_opened (c : Container) (outer : List Container) :
    State.Valid ⟨opened c, c :: outer⟩ := by
  cases c <;> rfl

/-- A step keeps a state valid. -/
theorem State.Valid.step {s s' : State} {b : UInt8} (hs : s.Valid) (h : step s b = .next s') :
    s'.Valid := by
  rcases step_cases s s' b h with ⟨mode, hmove, rfl⟩ | ⟨c, -, rfl⟩ | ⟨-, rfl⟩ | ⟨-, hafter⟩
  · exact fits_of_go s.mode mode s.around b hs hmove
  · exact valid_opened c s.around
  · trivial
  · exact fits_of_afterValue s.around b s' hafter

/-- Every state that the machine reaches from a valid one is valid. -/
theorem State.Valid.reach {s t : State} {bs : Bytes} (hs : s.Valid) (h : reach s bs = some t) :
    t.Valid := by
  induction bs generalizing s with
  | nil => rwa [← Option.some.inj h]
  | cons b bs ih =>
    obtain ⟨s', hstep, h⟩ := exists_step_of_reach s t b bs h
    exact ih (hs.step hstep) h

/-- Inside more containers the machine reaches the same. -/
theorem reach_append_around (mode mode' : Mode) (inner inner' outer : List Container) (bs : Bytes)
    (hvalid : State.Valid ⟨mode, inner⟩)
    (h : reach ⟨mode, inner⟩ bs = some ⟨mode', inner'⟩) :
    reach ⟨mode, inner ++ outer⟩ bs = some ⟨mode', inner' ++ outer⟩ := by
  -- validity says that the container which ends is never one of the outer ones
  induction bs generalizing mode inner with
  | nil =>
    simp only [reach_nil, Option.some.injEq, State.mk.injEq] at h ⊢
    exact ⟨h.1, by rw [h.2]⟩
  | cons b bs ih =>
    obtain ⟨⟨mode₁, inner₁⟩, hstep, h⟩ := exists_step_of_reach _ _ b bs h
    rw [reach_cons_of_step _ _ b bs
      (step_append_around mode mode₁ inner inner₁ outer b hvalid.around_ne_nil hstep)]
    -- a step keeps the state valid, so the rest goes on
    exact ih mode₁ inner₁ (hvalid.step hstep) h

/-! ### Inside a value -/

/-- A state in which the value can only end by its closing bracket. -/
def State.Inside (s : State) : Prop := s.around = [] → s.mode = .afterValue

/-- Behind its opening bracket a container is not over. -/
theorem inside_opened (c : Container) (outer : List Container) :
    State.Inside ⟨opened c, c :: outer⟩ := by
  intro hnil
  cases hnil

/-- A step stays inside the value, up to its end. -/
theorem State.Inside.step {s s' : State} {b : UInt8} (hs : s.Inside) (h : step s b = .next s') :
    s'.Inside := by
  intro hnil
  rcases around_of_step s s' b h with hsame | ⟨c, hopened⟩ | ⟨-, hmode⟩
  · -- without containers the value was over, and the machine would have stopped
    obtain ⟨mode, around⟩ := s
    rw [hnil] at hsame
    obtain rfl : [] = around := hsame
    obtain rfl : mode = .afterValue := hs rfl
    cases h
  · -- a container that was opened is around
    rw [hnil] at hopened
    cases hopened
  · exact hmode

/-- Every state reached from inside a value is inside it. -/
theorem State.Inside.reach {s t : State} {bs : Bytes} (hs : s.Inside) (h : reach s bs = some t) :
    t.Inside := by
  induction bs generalizing s with
  | nil => rwa [← Option.some.inj h]
  | cons b bs ih =>
    obtain ⟨s', hstep, h⟩ := exists_step_of_reach s t b bs h
    exact ih (hs.step hstep) h

end Skip

end OneShot.Json
