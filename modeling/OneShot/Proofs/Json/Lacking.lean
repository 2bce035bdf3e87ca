import OneShot.Proofs.Json.Passing

/-!
# Only values are passed over

In each state of the machine of `Json.Skip` certain bytes are still lacking: the rest of the word,
the string or the number it is in, and then what ends the containers around. `State.Lacks` says which
these are, in terms of the language of values and without the machine.

A step takes one of them off the front. So what the machine takes up to the end of a value was
lacking when it started, and at the start a value is lacking.

## Key results

- `State.lacks_of_step`: what was lacking before a step
- `State.lacks_of_run`: what was lacking before a run to the end
- `skip_eq_ok_nil_iff`: exactly the values are passed over, and white space before them
-/

namespace OneShot.Json.Skip

open StringBody (isRaw)

/-! ### What is lacking -/

/-- The items of a container: values in a list, members with well-formed values in an object. -/
def Item : Container → Bytes → Prop
  | .list, item => WellFormed item
  | .object, item => ∃ p : Bytes × Bytes, Pair Eq p item ∧ Quotable p.1 ∧ WellFormed p.2

/-- What a container holds, `true` if nothing of it stands before. -/
def Contents : Container → Bool → Bytes → Prop
  | .list, first, row => ∃ vs, Row Eq first vs row ∧ ∀ v ∈ vs, WellFormed v
  | .object, first, row => ∃ ms, Row (Pair Eq) first ms row ∧ (∀ p ∈ ms, Quotable p.1) ∧
      ∀ p ∈ ms, WellFormed p.2

/-- What comes after a value: the containers around it go on and end, the innermost first. -/
def After : List Container → Bytes → Prop
  | [], rest => rest = []
  | c :: outer, rest => ∃ row after, Contents c false row ∧ After outer after ∧
      rest = row ++ c.closing :: after

/-- What comes behind an opening bracket. -/
def Opened (c : Container) (outer : List Container) (rest : Bytes) : Prop :=
  ∃ row after, Contents c true row ∧ After outer after ∧ rest = row ++ c.closing :: after

/-- What comes where an item of a container has to start. -/
def Awaits (c : Container) (around : List Container) (rest : Bytes) : Prop :=
  ∃ space item after, Spaces space ∧ Item c item ∧ After around after ∧
    rest = space ++ (item ++ after)

/-- What comes after a key. -/
def AfterKey (around : List Container) (rest : Bytes) : Prop :=
  ∃ space tail, Spaces space ∧ Awaits .list around tail ∧ rest = space ++ colon :: tail

/-- What comes after a string, which may be a key. -/
def AfterString (key : Bool) (around : List Container) (rest : Bytes) : Prop :=
  if key then AfterKey around rest else After around rest

/-- What is lacking of the word, the string or the number that the machine is in. -/
def Mode.Lacks : Mode → Bytes → Prop
  | .literal tail, token => token = tail
  | .string _, token => ∃ s, Quotable s ∧ token = s ++ [quoteByte]
  | .escape _, token => ∃ s, Quotable (backslash :: s) ∧ token = s ++ [quoteByte]
  -- the last digit is looked at even where none is owed
  | .hex _ owed good, token => good = true ∧ ∃ digits s, digits.length = max 1 owed ∧
      (∀ d ∈ digits, (hexValue? d).isSome = true) ∧ Quotable s ∧
      token = digits ++ (s ++ [quoteByte])
  | .sign, token => Unsigned token
  | .zero, token => ∃ fraction exponent, Fraction fraction ∧ Exponent exponent ∧
      token = fraction ++ exponent
  | .integer, token => ∃ digits fraction exponent, Digits digits ∧ Fraction fraction ∧
      Exponent exponent ∧ token = digits ++ (fraction ++ exponent)
  | .point, token => ∃ digits exponent, digits ≠ [] ∧ Digits digits ∧ Exponent exponent ∧
      token = digits ++ exponent
  | .fraction, token => ∃ digits exponent, Digits digits ∧ Exponent exponent ∧
      token = digits ++ exponent
  | .exponentMark, token => Power token
  | .exponentSign, token => token ≠ [] ∧ Digits token
  | .exponent, token => Digits token
  -- outside of words, strings and numbers there is none that could lack anything
  | _, token => token = []

/-- What is lacking in a state, up to the end of the value. -/
def State.Lacks (s : State) (rest : Bytes) : Prop :=
  match s.mode with
  | .value => Awaits .list s.around rest
  -- the container that was just opened is the innermost one
  | .firstElement => Opened .list s.around.tail rest
  | .firstKey => Opened .object s.around.tail rest
  | .nextKey => Awaits .object s.around rest
  | .colon => AfterKey s.around rest
  | .string key | .escape key | .hex key _ _ =>
    ∃ token after, s.mode.Lacks token ∧ AfterString key s.around after ∧ rest = token ++ after
  | _ => ∃ token after, s.mode.Lacks token ∧ After s.around after ∧ rest = token ++ after

/-! ### Containers -/

/-- A container may hold nothing more. -/
private theorem contents_nil (c : Container) (first : Bool) : Contents c first [] := by
  cases c with
  | list => exact ⟨[], .nil spaces_nil, List.forall_mem_nil _⟩
  | object => exact ⟨[], .nil spaces_nil, List.forall_mem_nil _, List.forall_mem_nil _⟩

/-- White space belongs to what a container holds. -/
private theorem Contents.cons_space {c : Container} {first : Bool} {row : Bytes}
    (h : Contents c first row) (b : UInt8) (hb : isSpace b = true) :
    Contents c first (b :: row) := by
  cases c with
  | list =>
    obtain ⟨vs, hrow, hvs⟩ := h
    exact ⟨vs, hrow.cons_space b hb, hvs⟩
  | object =>
    obtain ⟨ms, hrow, hms⟩ := h
    exact ⟨ms, hrow.cons_space b hb, hms⟩

/-- An item may come first, or after a comma. -/
private theorem Contents.cons {c : Container} {row space item : Bytes} (h : Contents c false row)
    (hspace : Spaces space) (hitem : Item c item) :
    Contents c true (space ++ (item ++ row)) ∧
      Contents c false (comma :: (space ++ (item ++ row))) := by
  -- an item in front of a row, without a comma or behind one
  cases c with
  | list =>
    obtain ⟨vs, hrow, hvs⟩ := h
    have hall := List.forall_mem_cons.mpr ⟨hitem, hvs⟩
    exact ⟨⟨item :: vs, .first hspace rfl hrow, hall⟩,
      ⟨item :: vs, .next spaces_nil hspace rfl hrow, hall⟩⟩
  | object =>
    obtain ⟨ms, hrow, hkeys, hvs⟩ := h
    obtain ⟨p, hp, hkey, hv⟩ := hitem
    have hkeys' : ∀ q ∈ p :: ms, Quotable q.1 := List.forall_mem_cons.mpr ⟨hkey, hkeys⟩
    have hvs' : ∀ q ∈ p :: ms, WellFormed q.2 := List.forall_mem_cons.mpr ⟨hv, hvs⟩
    exact ⟨⟨p :: ms, .first hspace hp hrow, hkeys', hvs'⟩,
      ⟨p :: ms, .next spaces_nil hspace hp hrow, hkeys', hvs'⟩⟩

/-- Where an item is awaited in its container, the contents of the container go on with it. -/
private theorem exists_contents_of_awaits (c : Container) (outer : List Container) (rest : Bytes)
    (h : Awaits c (c :: outer) rest) :
    ∃ row after, Contents c true row ∧ Contents c false (comma :: row) ∧ After outer after ∧
      rest = row ++ c.closing :: after := by
  obtain ⟨space, item, tail, hspace, hitem, ⟨row, after, hrow, hafter, rfl⟩, rfl⟩ := h
  obtain ⟨hfirst, hnext⟩ := hrow.cons hspace hitem
  exact ⟨_, after, hfirst, hnext, hafter, by simp⟩

/-- White space may come before an item. -/
private theorem Awaits.cons_space {c : Container} {around : List Container} {rest : Bytes}
    (h : Awaits c around rest) (b : UInt8) (hb : isSpace b = true) : Awaits c around (b :: rest) := by
  obtain ⟨space, item, after, hspace, hitem, hafter, rfl⟩ := h
  exact ⟨b :: space, item, after, List.forall_mem_cons.mpr ⟨hb, hspace⟩, hitem, hafter, rfl⟩

/-- A byte after a value that does not stop the machine goes on in the container, or ends it. -/
private theorem after_of_afterValue (around : List Container) (b : UInt8) (s : State) (bs : Bytes)
    (h : afterValue around b = .next s) (hlacks : s.Lacks bs) : After around (b :: bs) := by
  -- in a container there are three ways to go on, and each adds its byte to what is lacking
  have hgoes : ∀ c outer, (isSpace b = true ∧ s = ⟨.afterValue, c :: outer⟩) ∨
      (b = comma ∧ s = ⟨afterComma c, c :: outer⟩) ∨
      (b = c.closing ∧ s = ⟨.afterValue, outer⟩) → After (c :: outer) (b :: bs) := by
    rintro c outer (⟨hb, rfl⟩ | ⟨rfl, rfl⟩ | ⟨rfl, rfl⟩)
    · -- a space goes in front of the row
      obtain ⟨token, tail, rfl, ⟨row, after, hrow, hafter, rfl⟩, rfl⟩ := hlacks
      exact ⟨b :: row, after, hrow.cons_space b hb, hafter, rfl⟩
    · -- a comma goes in front of what the container awaits behind it
      have hawaits : Awaits c (c :: outer) bs := by cases c <;> exact hlacks
      obtain ⟨row, after, -, hrow, hafter, rfl⟩ := exists_contents_of_awaits c outer bs hawaits
      exact ⟨comma :: row, after, hrow, hafter, rfl⟩
    · -- the closing bracket ends an empty row
      obtain ⟨_, _, rfl, hafter, rfl⟩ := hlacks
      exact ⟨[], bs, contents_nil c false, hafter, rfl⟩
  rcases around with _ | ⟨_ | _, outer⟩
  · cases h
  all_goals
    refine hgoes _ outer ?_
    simp only [afterValue] at h
    split at h
    · rename_i hb
      exact .inl ⟨hb, (Reaction.next.inj h).symm⟩
    · split at h
      · rename_i hb
        exact .inr (.inl ⟨eq_of_beq hb, (Reaction.next.inj h).symm⟩)
      · split at h
        · rename_i hb
          exact .inr (.inr ⟨eq_of_beq hb, (Reaction.next.inj h).symm⟩)
        · cases h

/-! ### Scalars -/

/-- Where a value may be over, nothing need be lacking. -/
private theorem lacks_nil_of_isWhole (mode : Mode) (h : mode.isWhole = true) : mode.Lacks [] := by
  cases mode with
  | literal tail =>
    cases tail with
    | nil => rfl
    | cons c tail => cases h
  | afterValue => rfl
  | zero => exact ⟨[], [], .none, .none, rfl⟩
  | integer => exact ⟨[], [], [], List.forall_mem_nil _, .none, .none, rfl⟩
  | fraction => exact ⟨[], [], List.forall_mem_nil _, .none, rfl⟩
  | exponent => exact List.forall_mem_nil _
  | _ => cases h

/-- Where a value may be over, what comes after it may be all that is lacking. -/
private theorem lacks_of_isWhole (mode : Mode) (around : List Container) (rest : Bytes)
    (hmode : mode.isWhole = true) (h : After around rest) : State.Lacks ⟨mode, around⟩ rest := by
  have hnil := lacks_nil_of_isWhole mode hmode
  cases mode with
  | literal _ | afterValue | zero | integer | fraction | exponent => exact ⟨[], rest, hnil, h, rfl⟩
  | _ => cases hmode

/-- The modes inside a number. -/
def numberModes : List Mode :=
  [.sign, .zero, .integer, .point, .fraction, .exponentMark, .exponentSign, .exponent]

/-- Inside a number the rest of it is lacking, and then what comes after a value. -/
private theorem lacks_iff_of_number (mode : Mode) (around : List Container) (rest : Bytes)
    (hmode : mode ∈ numberModes) :
    State.Lacks ⟨mode, around⟩ rest ↔
      ∃ token after, mode.Lacks token ∧ After around after ∧ rest = token ++ after := by
  simp only [numberModes, List.mem_cons, List.not_mem_nil, or_false] at hmode
  rcases hmode with rfl | rfl | rfl | rfl | rfl | rfl | rfl | rfl <;> exact Iff.rfl

/-- A number goes on inside itself. -/
private theorem mem_numberModes_of_go (mode mode' : Mode) (b : UInt8) (hmode : mode ∈ numberModes)
    (h : mode.move b = .go mode') : mode' ∈ numberModes := by
  simp only [numberModes, List.mem_cons, List.not_mem_nil, or_false] at hmode
  rcases hmode with rfl | rfl | rfl | rfl | rfl | rfl | rfl | rfl <;> simp only [Mode.move] at h
  all_goals
    repeat' split at h
    all_goals cases h
    all_goals simp [numberModes]

/-- Inside a number a byte is the first of those that were lacking of it. -/
private theorem token_of_go (mode mode' : Mode) (b : UInt8) (token : Bytes)
    (hmode : mode ∈ numberModes) (h : mode.move b = .go mode') (hlacks : mode'.Lacks token) :
    mode.Lacks (b :: token) := by
  -- a digit in front of digits
  have hdigits : ∀ digits, isDigit b = true → Digits digits → Digits (b :: digits) :=
    fun digits hb hdigits => List.forall_mem_cons.mpr ⟨hb, hdigits⟩
  -- in each mode the byte was tested for what may come there
  cases mode with
  | sign =>
    simp only [Mode.move] at h
    split at h
    · rename_i hb
      obtain rfl := Move.go.inj h
      -- the number is a zero with what stands behind it
      obtain ⟨fraction, exponent, hfraction, hexponent, rfl⟩ := hlacks
      rw [eq_of_beq hb]
      exact .mk .zero hfraction hexponent
    · split at h
      · rename_i hb
        obtain rfl := Move.go.inj h
        -- the leading digit goes in front of the others
        obtain ⟨digits, fraction, exponent, hd, hfraction, hexponent, rfl⟩ := hlacks
        exact .mk (.leading hb hd) hfraction hexponent
      · cases h
  | zero =>
    simp only [Mode.move] at h
    split at h
    · -- no digit follows a leading zero
      cases h
    · split at h
      · rename_i hb
        obtain rfl := Move.go.inj h
        -- a point opens the fraction
        obtain ⟨digits, exponent, hne, hdigits, hexponent, rfl⟩ := hlacks
        rw [eq_of_beq hb]
        exact ⟨Json.point :: digits, exponent, .some hne hdigits, hexponent, rfl⟩
      · split at h
        · rename_i hb
          obtain rfl := Move.go.inj h
          -- a mark opens the exponent, with no fraction before it
          exact ⟨[], b :: token, .none, .some hb hlacks, rfl⟩
        · cases h
  | integer =>
    simp only [Mode.move] at h
    split at h
    · -- one more digit
      rename_i hb
      obtain rfl := Move.go.inj h
      obtain ⟨digits, fraction, exponent, hd, hfraction, hexponent, rfl⟩ := hlacks
      exact ⟨b :: digits, fraction, exponent, hdigits digits hb hd, hfraction, hexponent, rfl⟩
    · split at h
      · rename_i hb
        obtain rfl := Move.go.inj h
        obtain ⟨digits, exponent, hne, hd, hexponent, rfl⟩ := hlacks
        rw [eq_of_beq hb]
        exact ⟨[], Json.point :: digits, exponent, List.forall_mem_nil _, .some hne hd, hexponent,
          rfl⟩
      · split at h
        · rename_i hb
          obtain rfl := Move.go.inj h
          exact ⟨[], [], b :: token, List.forall_mem_nil _, .none, .some hb hlacks, rfl⟩
        · cases h
  | point =>
    simp only [Mode.move] at h
    split at h
    · -- the first digit behind the point, so that there is one at least
      rename_i hb
      obtain rfl := Move.go.inj h
      obtain ⟨digits, exponent, hd, hexponent, rfl⟩ := hlacks
      exact ⟨b :: digits, exponent, List.cons_ne_nil _ _, hdigits digits hb hd, hexponent, rfl⟩
    · cases h
  | fraction =>
    simp only [Mode.move] at h
    split at h
    · rename_i hb
      obtain rfl := Move.go.inj h
      obtain ⟨digits, exponent, hd, hexponent, rfl⟩ := hlacks
      exact ⟨b :: digits, exponent, hdigits digits hb hd, hexponent, rfl⟩
    · split at h
      · rename_i hb
        obtain rfl := Move.go.inj h
        exact ⟨[], b :: token, List.forall_mem_nil _, .some hb hlacks, rfl⟩
      · cases h
  -- a sign or a digit may follow the mark, behind a sign a digit must
  | exponentMark =>
    simp only [Mode.move] at h
    split at h
    · rename_i hb
      obtain rfl := Move.go.inj h
      exact .signed hb hlacks.1 hlacks.2
    · split at h
      · rename_i hb
        obtain rfl := Move.go.inj h
        exact .unsigned (List.cons_ne_nil _ _) (hdigits token hb hlacks)
      · cases h
  | exponentSign =>
    simp only [Mode.move] at h
    split at h
    · rename_i hb
      obtain rfl := Move.go.inj h
      exact ⟨List.cons_ne_nil _ _, hdigits token hb hlacks⟩
    · cases h
  | exponent =>
    simp only [Mode.move] at h
    split at h
    · rename_i hb
      obtain rfl := Move.go.inj h
      exact hdigits token hb hlacks
    · cases h
  | _ => simp [numberModes] at hmode

/-- Inside a number what was lacking before a byte is the byte and what is lacking after it. -/
private theorem number_lacks_of_go (mode mode' : Mode) (around : List Container) (b : UInt8)
    (bs : Bytes) (hmode : mode ∈ numberModes) (h : mode.move b = .go mode')
    (hlacks : State.Lacks ⟨mode', around⟩ bs) : State.Lacks ⟨mode, around⟩ (b :: bs) := by
  have hmode' := mem_numberModes_of_go mode mode' b hmode h
  obtain ⟨token, after, htoken, hafter, rfl⟩ := (lacks_iff_of_number mode' around bs hmode').mp hlacks
  refine (lacks_iff_of_number mode around _ hmode).mpr ⟨b :: token, after, ?_, hafter, rfl⟩
  exact token_of_go mode mode' b token hmode h htoken

/-- Inside a string a byte is the first of those that were lacking, the closing quote included. -/
private theorem string_lacks_of_go (key : Bool) (mode mode' : Mode) (around : List Container)
    (b : UInt8) (bs : Bytes)
    (hmode : mode = .string key ∨ mode = .escape key ∨ ∃ owed good, mode = .hex key owed good)
    (h : mode.move b = .go mode') (hlacks : State.Lacks ⟨mode', around⟩ bs) :
    State.Lacks ⟨mode, around⟩ (b :: bs) := by
  rcases hmode with rfl | rfl | ⟨owed, good, rfl⟩ <;> simp only [Mode.move] at h
  · -- in the string: its quote, a backslash, or a byte that stands for itself
    split at h
    · -- what comes after the string is all that was lacking behind the quote
      rename_i hb
      obtain rfl := Move.go.inj h
      refine ⟨[b], bs, ⟨[], .nil, by rw [eq_of_beq hb]; rfl⟩, ?_, rfl⟩
      cases key with
      | true => exact hlacks
      | false =>
        obtain ⟨_, _, rfl, hafter, rfl⟩ := hlacks
        exact hafter
    · rename_i hquote
      split at h
      · rename_i hb
        obtain rfl := Move.go.inj h
        -- the backslash goes in front of its escape
        obtain ⟨token, after, ⟨s, hs, rfl⟩, hafter, rfl⟩ := hlacks
        rw [eq_of_beq hb]
        exact ⟨_, after, ⟨backslash :: s, hs, rfl⟩, hafter, rfl⟩
      · rename_i hbackslash
        split at h
        · cases h
        · rename_i hcontrol
          obtain rfl := Move.go.inj h
          obtain ⟨token, after, ⟨s, hs, rfl⟩, hafter, rfl⟩ := hlacks
          -- the three tests that failed say that the byte stands for itself
          have hraw : isRaw b = true := by simp [isRaw, bne, hquote, hbackslash, hcontrol]
          exact ⟨_, after, ⟨b :: s, .raw hraw hs, rfl⟩, hafter, rfl⟩
  · -- behind a backslash: the letter of a code, or one that stands for a character
    split at h
    · rename_i hb
      obtain rfl := Move.go.inj h
      -- the four digits and the rest of the string are what is lacking
      obtain ⟨token, after, ⟨-, digits, s, hlength, hdigits, hs, rfl⟩, hafter, rfl⟩ := hlacks
      rw [eq_of_beq hb]
      exact ⟨_, after, ⟨0x75 :: (digits ++ s), .numeric hlength hdigits hs, by simp; rfl⟩, hafter,
        rfl⟩
    · split at h
      · rename_i hb
        obtain rfl := Move.go.inj h
        obtain ⟨token, after, ⟨s, hs, rfl⟩, hafter, rfl⟩ := hlacks
        exact ⟨_, after, ⟨b :: s, .letter hb hs, rfl⟩, hafter, rfl⟩
      · cases h
  · -- in a code: a digit, and the string goes on behind the last one
    split at h
    · -- more digits are owed
      rename_i howed
      obtain rfl := Move.go.inj h
      obtain ⟨token, after, ⟨hgood, digits, s, hlength, hdigits, hs, rfl⟩, hafter, rfl⟩ := hlacks
      rw [Bool.and_eq_true] at hgood
      refine ⟨_, after, ⟨hgood.1, b :: digits, s, ?_,
        List.forall_mem_cons.mpr ⟨hgood.2, hdigits⟩, hs, rfl⟩, hafter, rfl⟩
      rw [List.length_cons, hlength]
      omega
    · split at h
      · -- the last digit: a row of one
        rename_i howed hgood
        obtain rfl := Move.go.inj h
        obtain ⟨token, after, ⟨s, hs, rfl⟩, hafter, rfl⟩ := hlacks
        rw [Bool.and_eq_true] at hgood
        refine ⟨_, after, ⟨hgood.1, [b], s, ?_, ?_, hs, rfl⟩, hafter, rfl⟩
        · rw [List.length_singleton]
          omega
        · intro d hd
          rw [List.mem_singleton.mp hd]
          exact hgood.2
      · cases h

/-- The first letter of a word leaves the rest of it. -/
private theorem mem_words_of_literalTail? (b : UInt8) (tail : Bytes)
    (h : literalTail? b = some tail) : b :: tail ∈ words := by
  unfold literalTail? at h
  -- the three words differ in their first byte
  split at h
  · rename_i hb
    rw [eq_of_beq hb, ← Option.some.inj h]
    simp [words]
  · split at h
    · rename_i hb
      rw [eq_of_beq hb, ← Option.some.inj h]
      simp [words]
    · split at h
      · rename_i hb
        rw [eq_of_beq hb, ← Option.some.inj h]
        simp [words]
      · cases h

/-- Behind an opening bracket the container was lacking. -/
private theorem exists_of_opened (c : Container) (around : List Container) (opening : UInt8)
    (rest : Bytes) (h : Opened c around rest)
    (hvalue : ∀ row, Contents c true row → WellFormed (opening :: (row ++ [c.closing]))) :
    ∃ v after, WellFormed v ∧ After around after ∧ opening :: rest = v ++ after := by
  obtain ⟨row, after, hrow, hafter, rfl⟩ := h
  exact ⟨_, after, hvalue row hrow, hafter, by simp⟩

/-- The byte that starts a value is the first of those of the value. -/
private theorem exists_of_beginValue (around : List Container) (b : UInt8) (s : State) (bs : Bytes)
    (h : (beginValue b).apply around b = .next s) (hlacks : s.Lacks bs) :
    ∃ v after, WellFormed v ∧ After around after ∧ b :: bs = v ++ after := by
  -- a number without a sign starts as it does after one
  have hnumber : ∀ mode, Mode.sign.move b = .go mode → State.Lacks ⟨mode, around⟩ bs →
      ∃ v after, WellFormed v ∧ After around after ∧ b :: bs = v ++ after := by
    intro mode hmove hlacks
    obtain ⟨v, after, hv, hafter, hbs⟩ :=
      number_lacks_of_go .sign mode around b bs (by simp [numberModes]) hmove hlacks
    exact ⟨v, after, .number hv, hafter, hbs⟩
  unfold beginValue at h
  -- a word, a string, a list, an object or a number, told apart by this byte
  split at h
  · -- a word
    rename_i tail htail
    obtain rfl := Reaction.next.inj h
    obtain ⟨_, after, htoken, hafter, rfl⟩ := hlacks
    exact ⟨_, after, .word (mem_words_of_literalTail? b tail htail), hafter, by rw [htoken]; rfl⟩
  · split at h
    · -- a string
      rename_i hb
      obtain rfl := Reaction.next.inj h
      obtain ⟨token, after, ⟨s, hs, rfl⟩, hafter, rfl⟩ := hlacks
      rw [eq_of_beq hb]
      exact ⟨_, after, .string hs, hafter, by simp⟩
    split at h
    · -- a list
      rename_i hb
      obtain rfl := Reaction.next.inj h
      rw [eq_of_beq hb]
      refine exists_of_opened .list around openBracket bs hlacks ?_
      rintro row ⟨vs, hrow, hvs⟩
      exact .list hrow hvs
    split at h
    · -- an object
      rename_i hb
      obtain rfl := Reaction.next.inj h
      rw [eq_of_beq hb]
      refine exists_of_opened .object around openBrace bs hlacks ?_
      rintro row ⟨ms, hrow, hkeys, hvs⟩
      exact .object hrow hkeys hvs
    split at h
    · -- a number with a sign
      rename_i hb
      obtain rfl := Reaction.next.inj h
      obtain ⟨token, after, htoken, hafter, rfl⟩ := hlacks
      rw [eq_of_beq hb]
      exact ⟨_, after, .negative htoken, hafter, rfl⟩
    split at h
    · -- a zero
      rename_i hb
      obtain rfl := Reaction.next.inj h
      refine hnumber .zero ?_ hlacks
      simp only [Mode.move, hb, if_true]
    split at h
    · -- a number with another leading digit
      rename_i hzero hb
      obtain rfl := Reaction.next.inj h
      refine hnumber .integer ?_ hlacks
      simp only [Mode.move, hzero, hb, if_true, Bool.false_eq_true, if_false]
    · cases h

/-! ### One step -/

/-- A key that starts is the beginning of a member. -/
private theorem exists_of_key (around : List Container) (bs : Bytes)
    (h : State.Lacks ⟨.string true, around⟩ bs) :
    ∃ item after, Item .object item ∧ After around after ∧ quoteByte :: bs = item ++ after := by
  obtain ⟨token, tail, ⟨s, hs, rfl⟩, ⟨space, tail', hspace, hawaits, rfl⟩, rfl⟩ := h
  obtain ⟨space', v, after, hspace', hv, hafter, rfl⟩ := hawaits
  exact ⟨_, after, ⟨(s, v), .mk rfl hspace hspace', hs, hv⟩, hafter, by simp⟩

/-- Where an item has to start: white space comes before it, or the byte starts it. -/
private theorem awaits_of_step (c : Container) (around : List Container) (b : UInt8) (s : State)
    (bs : Bytes) (h : step ⟨afterComma c, around⟩ b = .next s) (hlacks : s.Lacks bs) :
    Awaits c around (b :: bs) := by
  -- after a comma a list awaits a value and an object a key
  cases c with
  | list =>
    simp only [step, afterComma, Mode.move] at h
    split at h
    · rename_i hb
      obtain rfl := Reaction.next.inj h
      exact Awaits.cons_space hlacks b hb
    · -- the byte begins the value that was awaited
      obtain ⟨v, after, hv, hafter, hbs⟩ := exists_of_beginValue around b s bs h hlacks
      exact ⟨[], v, after, spaces_nil, hv, hafter, hbs⟩
  | object =>
    simp only [step, afterComma, Mode.move] at h
    split at h
    · rename_i hb
      obtain rfl := Reaction.next.inj h
      exact Awaits.cons_space hlacks b hb
    · split at h
      · -- a quote begins the key
        rename_i hb
        obtain rfl := Reaction.next.inj h
        obtain ⟨item, after, hitem, hafter, hbs⟩ := exists_of_key around bs hlacks
        rw [eq_of_beq hb]
        exact ⟨[], item, after, spaces_nil, hitem, hafter, hbs⟩
      · cases h

/-- Behind an opening bracket: white space, the end of the container, or its first item. -/
private theorem opened_cases (c : Container) (outer : List Container) (b : UInt8) (s : State)
    (h : step ⟨opened c, c :: outer⟩ b = .next s) :
    (isSpace b = true ∧ s = ⟨opened c, c :: outer⟩) ∨ (b = c.closing ∧ s = ⟨.afterValue, outer⟩) ∨
      step ⟨afterComma c, c :: outer⟩ b = .next s := by
  cases c <;> simp only [step, opened, afterComma, Mode.move] at h ⊢
  all_goals
    split at h
    · rename_i hb
      exact .inl ⟨hb, (Reaction.next.inj h).symm⟩
    · rename_i hspace
      split at h
      · rename_i hb
        exact .inr (.inl ⟨eq_of_beq hb, (Reaction.next.inj h).symm⟩)
      · -- from here on the first item is like any other
        rw [if_neg hspace]
        exact .inr (.inr h)

/-- Behind an opening bracket a byte is the first of what the container holds, or its end. -/
private theorem opened_of_step (c : Container) (outer : List Container) (b : UInt8) (s : State)
    (bs : Bytes) (h : step ⟨opened c, c :: outer⟩ b = .next s) (hlacks : s.Lacks bs) :
    Opened c outer (b :: bs) := by
  rcases opened_cases c outer b s h with ⟨hb, rfl⟩ | ⟨rfl, rfl⟩ | hitem
  · have hopened : Opened c outer bs := by cases c <;> exact hlacks
    obtain ⟨row, after, hrow, hafter, rfl⟩ := hopened
    exact ⟨b :: row, after, hrow.cons_space b hb, hafter, rfl⟩
  · obtain ⟨_, _, rfl, hafter, rfl⟩ := hlacks
    exact ⟨[], bs, contents_nil c true, hafter, rfl⟩
  · have hawaits := awaits_of_step c _ b s bs hitem hlacks
    obtain ⟨row, after, hrow, -, hafter, hbs⟩ := exists_contents_of_awaits c outer (b :: bs) hawaits
    exact ⟨row, after, hrow, hafter, hbs⟩

/-- After a key comes white space, or the colon. -/
private theorem afterKey_of_step (around : List Container) (b : UInt8) (s : State) (bs : Bytes)
    (h : step ⟨.colon, around⟩ b = .next s) (hlacks : s.Lacks bs) : AfterKey around (b :: bs) := by
  simp only [step, Mode.move] at h
  split at h
  · rename_i hb
    obtain rfl := Reaction.next.inj h
    obtain ⟨space, tail, hspace, hawaits, rfl⟩ := hlacks
    exact ⟨b :: space, tail, List.forall_mem_cons.mpr ⟨hb, hspace⟩, hawaits, rfl⟩
  · split at h
    · rename_i hb
      obtain rfl := Reaction.next.inj h
      rw [eq_of_beq hb]
      exact ⟨[], bs, spaces_nil, hlacks, rfl⟩
    · cases h

/-- Inside a word comes its next letter. Behind the last one the word is over. -/
private theorem word_lacks_of_step (c : UInt8) (tail : Bytes) (around : List Container) (b : UInt8)
    (s : State) (bs : Bytes) (h : step ⟨.literal (c :: tail), around⟩ b = .next s)
    (hlacks : s.Lacks bs) : State.Lacks ⟨.literal (c :: tail), around⟩ (b :: bs) := by
  simp only [step, Mode.move] at h
  split at h
  · rename_i hb
    obtain rfl := Reaction.next.inj h
    rw [eq_of_beq hb]
    -- the word is over with this byte, or its rest is lacking
    cases tail with
    | nil =>
      obtain ⟨_, _, rfl, hafter, rfl⟩ := hlacks
      exact ⟨[c], bs, rfl, hafter, rfl⟩
    | cons c' tail =>
      obtain ⟨_, after, htoken, hafter, rfl⟩ := hlacks
      exact ⟨_, after, rfl, hafter, by rw [htoken]; rfl⟩
  · cases h

/-- Inside a string or a number a byte goes on with it, or comes after it. -/
private theorem inside_cases (mode : Mode) (around : List Container) (b : UInt8) (s : State)
    (hmode : (∃ key, mode = .string key ∨ mode = .escape key ∨
      ∃ owed good, mode = .hex key owed good) ∨ mode ∈ numberModes)
    (h : step ⟨mode, around⟩ b = .next s) :
    (∃ mode', mode.move b = .go mode' ∧ s = ⟨mode', around⟩) ∨
      (mode.isWhole = true ∧ afterValue around b = .next s) := by
  -- such a mode goes on, refuses the byte or leaves it to what is around
  have hmove : (∃ mode', mode.move b = .go mode') ∨ (∃ cause read, mode.move b = .refuse cause read) ∨
      mode.isWhole = true ∧ mode.move b = .after := by
    -- the modes of a number are eight
    simp only [numberModes, List.mem_cons, List.not_mem_nil, or_false] at hmode
    rcases hmode with ⟨key, rfl | rfl | ⟨owed, good, rfl⟩⟩ | rfl | rfl | rfl | rfl | rfl | rfl | rfl |
      rfl
    all_goals
      simp only [Mode.move]
      repeat' split
      all_goals simp [Mode.isWhole]
  rcases hmove with ⟨mode', hmove⟩ | ⟨cause, read, hmove⟩ | ⟨hwhole, hmove⟩ <;>
    simp only [step, hmove, Move.apply] at h
  · exact .inl ⟨mode', hmove, (Reaction.next.inj h).symm⟩
  · cases h
  · exact .inr ⟨hwhole, h⟩

/-- A container that was just opened is the innermost one. -/
private theorem exists_of_opened_valid (c : Container) (around : List Container)
    (h : State.Valid ⟨opened c, around⟩) : ∃ outer, around = c :: outer := by
  cases around with
  | nil => cases c <;> cases h
  | cons c' outer =>
    refine ⟨outer, ?_⟩
    cases c <;> rw [Option.some.inj h]

/-- What was lacking before a step is the byte and what is lacking after it. -/
theorem State.lacks_of_step {s s' : State} {b : UInt8} {bs : Bytes} (hs : s.Valid)
    (h : step s b = .next s') (hlacks : s'.Lacks bs) : s.Lacks (b :: bs) := by
  obtain ⟨mode, around⟩ := s
  -- a number or a word that is over leaves the byte to what is around
  have hwhole : mode.isWhole = true → afterValue around b = .next s' →
      State.Lacks ⟨mode, around⟩ (b :: bs) := by
    intro hmode hafter
    apply lacks_of_isWhole mode around _ hmode
    exact after_of_afterValue around b s' bs hafter hlacks
  -- by what the state awaits: a value, an item, a key, the rest of a token, or nothing
  cases mode with
  | value => exact awaits_of_step .list around b s' bs h hlacks
  | nextKey => exact awaits_of_step .object around b s' bs h hlacks
  | firstElement =>
    obtain ⟨outer, rfl⟩ := exists_of_opened_valid .list around hs
    exact opened_of_step .list outer b s' bs h hlacks
  | firstKey =>
    obtain ⟨outer, rfl⟩ := exists_of_opened_valid .object around hs
    exact opened_of_step .object outer b s' bs h hlacks
  | colon => exact afterKey_of_step around b s' bs h hlacks
  | afterValue => exact hwhole rfl h
  | literal tail =>
    cases tail with
    | nil => exact hwhole rfl h
    | cons c tail => exact word_lacks_of_step c tail around b s' bs h hlacks
  | string key | escape key | hex key owed good =>
    rcases inside_cases _ around b s' (.inl ⟨key, by simp⟩) h with
      ⟨mode', hmove, rfl⟩ | ⟨hmode, -⟩
    · exact string_lacks_of_go key _ mode' around b bs (by simp) hmove hlacks
    · -- no value is over inside a string
      cases hmode
  | sign | zero | integer | point | fraction | exponentMark | exponentSign | exponent =>
    rcases inside_cases _ around b s' (.inr (by simp [numberModes])) h with
      ⟨mode', hmove, rfl⟩ | ⟨hmode, hafter⟩
    · exact number_lacks_of_go _ mode' around b bs (by simp [numberModes]) hmove hlacks
    · exact hwhole hmode hafter

/-! ### Runs -/

/-- What the machine takes up to the end of a value was lacking before it. -/
theorem State.lacks_of_run {s : State} {bs : Bytes} (hs : s.Valid) (h : run s bs = .ok []) :
    s.Lacks bs := by
  -- induction on the bytes: a value may be over at the end, and each step goes back by one byte
  induction bs generalizing s with
  | nil =>
    have hend : atEnd s = none := by
      simp only [run] at h
      split at h
      · assumption
      · cases h
    obtain ⟨mode, around⟩ := s
    obtain ⟨hmode, rfl⟩ := (atEnd_eq_none_iff _).mp hend
    exact lacks_of_isWhole mode [] [] hmode rfl
  | cons b bs ih =>
    simp only [run] at h
    split at h
    · -- what lacks behind the step lacks here with the byte in front
      rename_i s' hstep
      exact State.lacks_of_step hs hstep (ih (hs.step hstep) h)
    · cases h
    · cases h

/-- Exactly the values are passed over, and white space before them. -/
theorem skip_eq_ok_nil_iff (v : Bytes) :
    skip v = .ok [] ↔ ∃ space w, Spaces space ∧ WellFormed w ∧ v = space ++ w := by
  constructor
  · intro h
    -- at the start a value is lacking, and nothing around it
    obtain ⟨space, w, after, hspace, hw, rfl, hv⟩ := State.lacks_of_run valid_start h
    exact ⟨space, w, hspace, hw, by simpa using hv⟩
  · intro h
    obtain ⟨space, w, hspace, hw, rfl⟩ := h
    -- the machine passes over the value and stands where it may be over
    obtain ⟨mode, hmode, hreach⟩ := exists_reach_wellFormed [] w hw
    have hstart : reach start (space ++ w) = some ⟨mode, []⟩ := by
      rw [show start = ⟨.value, []⟩ from rfl, reach_space_append _ _ _ _ hspace (by simp), hreach]
    have hrun := run_append_of_reach start _ _ [] hstart
    rw [List.append_nil] at hrun
    rw [skip, hrun, run, (atEnd_eq_none_iff _).mpr ⟨hmode, rfl⟩]

end OneShot.Json.Skip
