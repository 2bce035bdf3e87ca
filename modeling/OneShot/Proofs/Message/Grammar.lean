import OneShot.Message.Decode
import OneShot.Proofs.Json.Passing

/-!
# The language of messages

A message is spelled as an object, in which a text and an identifier occur once each among other
members, or as a list of the two.

The object is read member by member, and what was read before a member is the only thing that
counts for it: `Members.Admits` says which members may still come.

## Key results

- `textValue_eq_ok_iff`, `idValue_eq_ok_iff`: what is read as a text and as an identifier
- `exists_of_member`, `member_of_value`: what is read as a member after its key
-/

namespace OneShot.Message

open Json
open Json.Skip (ends_spaces_append)
open Json.StringBody (Denotes)
open Json.Numeral (IntegerLiteral Ends ends_cons goesOn ne_of_isDigit)

/-! ### The language -/

/-- What a member of an object says about a message. -/
inductive Field where
  | text (s : String)
  | id (n : Int64)
  | other

/-- The text that a member gives. -/
def Field.text? : Field → Option String
  | .text s => some s
  | _ => none

/-- The identifier that a member gives. -/
def Field.id? : Field → Option Int64
  | .id n => some n
  | _ => none

/-- The value of the member with a key, and what it says. -/
inductive Value : String → Bytes → Field → Prop
  | text {space v : Bytes} {s : String} (hspace : Spaces space) (hv : Denotes v s) :
      Value "text" (space ++ quoteByte :: (v ++ [quoteByte])) (.text s)
  | id {space v : Bytes} {n : Int64} (hspace : Spaces space) (hv : IntegerLiteral v n.toInt) :
      Value "id" (space ++ v) (.id n)
  | other {key : String} {v : Bytes} (htext : key ≠ "text") (hid : key ≠ "id")
      (hv : skip v = .ok []) : Value key v .other

/-- A member, after the opening quote of its key. -/
inductive Member : Bytes → Field → Prop
  | mk {key space v : Bytes} {name : String} {f : Field} (hkey : Denotes key name)
      (hspace : Spaces space) (hv : Value name v f) :
      Member (key ++ quoteByte :: (space ++ colon :: v)) f

/-- The members of an object up to its closing brace, `true` if no member stands before them. -/
inductive Body : Bool → Bytes → List Field → Prop
  | close {first : Bool} {space : Bytes} (hspace : Spaces space) : Body first space []
  | first {space member body : Bytes} {f : Field} {fs : List Field} (hspace : Spaces space)
      (hmember : Member member f) (hbody : Body false body fs) :
      Body true (space ++ quoteByte :: (member ++ body)) (f :: fs)
  | next {space space' member body : Bytes} {f : Field} {fs : List Field} (hspace : Spaces space)
      (hspace' : Spaces space') (hmember : Member member f) (hbody : Body false body fs) :
      Body false (space ++ comma :: (space' ++ quoteByte :: (member ++ body))) (f :: fs)

/-- The spellings of a message, without white space around them. -/
inductive Spells : Bytes → Message → Prop
  /-- An object with one text and one identifier among its members. -/
  | object {body : Bytes} {fs : List Field} {m : Message} (hbody : Body true body fs)
      (htext : fs.filterMap Field.text? = [m.text]) (hid : fs.filterMap Field.id? = [m.id]) :
      Spells (openBrace :: (body ++ [closeBrace])) m
  /-- A list of the text and the identifier. -/
  | list {space₁ space₂ space₃ space₄ t i : Bytes} {m : Message} (h₁ : Spaces space₁)
      (ht : Denotes t m.text) (h₂ : Spaces space₂) (h₃ : Spaces space₃)
      (hi : IntegerLiteral i m.id.toInt) (h₄ : Spaces space₄) :
      Spells (openBracket :: (space₁ ++ quoteByte :: (t ++ quoteByte ::
        (space₂ ++ comma :: (space₃ ++ (i ++ (space₄ ++ [closeBracket]))))))) m

/-! ### Values -/

/-- A string is read as a text exactly if it denotes it. -/
theorem textValue_eq_ok_iff (bs rest : Bytes) (s : String) :
    textValue bs = .ok (s, rest) ↔
      ∃ space v, Spaces space ∧ Denotes v s ∧
        bs = space ++ quoteByte :: (v ++ quoteByte :: rest) := by
  constructor
  · intro h
    simp only [textValue] at h
    split at h
    · cases h
    · rename_i b tail hskip
      split at h
      · rename_i hb
        -- behind the white space stands the quote, and behind that the spelling
        obtain ⟨space, hspace, -, rfl⟩ := (skipSpace_eq_cons_iff b bs tail).mp hskip
        obtain ⟨v, hv, rfl⟩ := (StringBody.read_eq_ok_iff tail rest s).mp h
        exact ⟨space, v, hspace, hv, by rw [eq_of_beq hb]⟩
      · cases h
  · intro h
    obtain ⟨space, v, hspace, hv, rfl⟩ := h
    -- the white space is passed over, and the quote is found
    have hskip := (skipSpace_eq_cons_iff quoteByte _ (v ++ quoteByte :: rest)).mpr
      ⟨space, hspace, rfl, rfl⟩
    simp only [textValue, hskip, beq_self_eq_true, if_true]
    exact (StringBody.read_eq_ok_iff _ rest s).mpr ⟨v, hv, rfl⟩

/-- A number that is read as an identifier is no double. -/
private theorem ne_double_of_identifier (x : Numeral) (bs rest : Bytes) (n : Int64)
    (h : identifier x bs = .ok (n, rest)) (d : Number.Double) : x ≠ .double d := by
  rintro rfl
  cases h

/-- A natural number is read as the identifier of that value. -/
private theorem identifier_unsigned_iff (k : Nat) (bs rest : Bytes) (n : Int64) :
    identifier (Numeral.ofInteger false k) bs = .ok (n, rest) ↔ rest = bs ∧ n.toInt = k := by
  simp only [Numeral.ofInteger, Bool.not_false, if_true, identifier]
  constructor
  · intro h
    split at h
    · simp only [Except.ok.injEq, Prod.mk.injEq] at h
      exact ⟨h.2.symm, by rw [← h.1, Int64.toInt_ofInt_of_le (by omega) (by omega)]⟩
    · cases h
  · intro h
    obtain ⟨rfl, hn⟩ := h
    -- an identifier is below the limit
    have := n.toInt_lt
    rw [if_pos (by omega), ← hn, Int64.ofInt_toInt]

/-- A negative number is read as the identifier of that value, but for zero. -/
private theorem identifier_negative_iff (k : Nat) (bs rest : Bytes) (n : Int64) :
    identifier (Numeral.ofInteger true k) bs = .ok (n, rest) ↔
      rest = bs ∧ k ≠ 0 ∧ n.toInt = -(k : Int) := by
  by_cases hk : k = 0 ∨ Numeral.signedLimit < k
  · -- such a number is a double
    have hdouble : identifier (Numeral.ofInteger true k) bs ≠ .ok (n, rest) := by
      simp only [Numeral.ofInteger, Bool.not_true, Bool.false_eq_true, if_false, hk, if_true]
      intro h
      cases h
    have hmin := n.le_toInt
    have hlimit : Numeral.signedLimit = 2 ^ 63 := rfl
    constructor
    · intro h
      exact absurd h hdouble
    · intro h
      omega
  · -- such a number is read with its sign
    have hnegative : Numeral.ofInteger true k = .negative (-k) := by
      simp only [Numeral.ofInteger, Bool.not_true, Bool.false_eq_true, if_false, hk]
    have hlimit : Numeral.signedLimit = 2 ^ 63 := rfl
    -- within the limit it is taken over as it is
    simp only [hnegative, identifier, Except.ok.injEq, Prod.mk.injEq]
    constructor
    · intro h
      obtain ⟨rfl, rfl⟩ := h
      exact ⟨rfl, by omega, Int64.toInt_ofInt_of_le (by omega) (by omega)⟩
    · intro h
      obtain ⟨rfl, -, hn⟩ := h
      exact ⟨by rw [← hn, Int64.ofInt_toInt], rfl⟩

/-- A number is read as an identifier exactly if it is a literal for it that ends there. -/
theorem idValue_eq_ok_iff (bs rest : Bytes) (n : Int64) :
    idValue bs = .ok (n, rest) ↔
      ∃ space v, Spaces space ∧ IntegerLiteral v n.toInt ∧ Ends rest ∧
        bs = space ++ (v ++ rest) := by
  constructor
  · intro h
    simp only [idValue] at h
    split at h
    · cases h
    · rename_i b tail hskip
      obtain ⟨space, hspace, -, rfl⟩ := (skipSpace_eq_cons_iff b bs tail).mp hskip
      -- the sign decides how the digits are read
      split at h
      · rename_i hb
        obtain rfl := eq_of_beq hb
        split at h
        · rename_i x tail' hread
          obtain ⟨digits, hdigits, rfl, hends, rfl⟩ :=
            Numeral.exists_natural_of_read true tail tail' x hread (ne_double_of_identifier x _ _ n h)
          -- a minus sign in front of a number other than zero
          obtain ⟨rfl, hzero, hn⟩ := (identifier_negative_iff _ _ _ n).mp h
          exact ⟨space, minus :: digits, hspace, hn ▸ .negative hdigits hzero, hends, rfl⟩
        · cases h
      · split at h
        · split at h
          · rename_i x tail' hread
            obtain ⟨digits, hdigits, hbs, hends, rfl⟩ :=
              Numeral.exists_natural_of_read false _ tail' x hread (ne_double_of_identifier x _ _ n h)
            -- a number without a sign
            obtain ⟨rfl, hn⟩ := (identifier_unsigned_iff _ _ _ n).mp h
            exact ⟨space, digits, hspace, hn ▸ .unsigned hdigits, hends, by rw [hbs]⟩
          · cases h
        · cases h
  · intro h
    obtain ⟨space, v, hspace, hv, hends, rfl⟩ := h
    -- an identifier has 64 bits, so its digits are never read as a double
    have hmax := n.toInt_lt
    have hmin := n.le_toInt
    have hlimit : Numeral.unsignedLimit = 2 ^ 64 := rfl
    generalize hk : n.toInt = k at hv
    cases hv with
    | unsigned hdigits =>
      have hread := Numeral.read_natural false v rest hdigits hends (by omega)
      obtain ⟨b, tail, rfl, hb⟩ := hdigits.exists_cons
      -- a digit is neither white space nor a sign
      obtain ⟨hspace', hminus⟩ := ne_of_isDigit b hb
      have hskip : skipSpace (space ++ (b :: tail ++ rest)) = b :: (tail ++ rest) := by
        rw [skipSpace_append space _ hspace, List.cons_append, skipSpace_cons b _ hspace']
      simp only [idValue, hskip, hminus, Bool.false_eq_true, if_false, hb, if_true]
      rw [List.cons_append] at hread
      rw [hread]
      exact (identifier_unsigned_iff _ _ _ n).mpr ⟨rfl, hk⟩
    | @negative digits hdigits hzero =>
      have hread := Numeral.read_natural true digits rest hdigits hends (by omega)
      have hskip : skipSpace (space ++ (minus :: digits ++ rest)) = minus :: (digits ++ rest) := by
        rw [skipSpace_append space _ hspace, List.cons_append, skipSpace_cons minus _ rfl]
      simp only [idValue, hskip, beq_self_eq_true, if_true, hread]
      exact (identifier_negative_iff _ _ _ n).mpr ⟨rfl, hzero, hk⟩

/-- A value of no interest is passed over. -/
theorem exists_of_anyValue (bs rest : Bytes) (h : anyValue bs = .ok ((), rest)) :
    ∃ v, skip v = .ok [] ∧ bs = v ++ rest := by
  simp only [anyValue] at h
  split at h
  · rename_i tail hskip
    simp only [Except.ok.injEq, Prod.mk.injEq, true_and] at h
    obtain ⟨v, hbs, hv⟩ := Skip.exists_skip bs tail hskip
    exact ⟨v, hv, by rw [hbs, h]⟩
  · cases h

/-! ### Members -/

/-- The members read so far and one more. -/
def Members.add (ms : Members) : Field → Members
  | .text s => { ms with text := some s }
  | .id n => { ms with id := some n }
  | .other => ms

/-- Whether a member may come after those read so far. -/
def Members.Admits (ms : Members) : Field → Prop
  | .text _ => ms.text = none
  | .id _ => ms.id = none
  | .other => True

/-- What is read after a key is a colon and a value. -/
private theorem memberValue_eq_ok_iff {α : Type} (read : Bytes → Result α) (bs rest : Bytes)
    (x : α) :
    memberValue read bs = .ok (x, rest) ↔
      ∃ space tail, Spaces space ∧ bs = space ++ colon :: tail ∧ read tail = .ok (x, rest) := by
  constructor
  · intro h
    simp only [memberValue, afterColon] at h
    split at h
    · cases h
    · rename_i tail hcolon
      split at h
      · cases h
      · rename_i value hread
        simp only [Except.ok.injEq] at h
        -- the colon was found behind white space
        split at hcolon
        · cases hcolon
        · rename_i b tail' hskip
          split at hcolon
          · rename_i hb
            simp only [Except.ok.injEq] at hcolon
            obtain ⟨space, hspace, -, rfl⟩ := (skipSpace_eq_cons_iff b bs tail').mp hskip
            exact ⟨space, tail, hspace, by rw [eq_of_beq hb, hcolon], by rw [hread, h]⟩
          · cases hcolon
  · intro h
    obtain ⟨space, tail, hspace, rfl, hread⟩ := h
    -- behind the white space the colon is found, and then the value is read
    have hskip := (skipSpace_eq_cons_iff colon _ tail).mpr ⟨space, hspace, rfl, rfl⟩
    simp only [memberValue, afterColon, hskip, beq_self_eq_true, if_true, hread]

/-- What is read as a member after its key is a colon and a value that may still come. -/
theorem exists_of_member (ms ms' : Members) (name : String) (bs rest : Bytes)
    (h : member ms name bs = .ok (ms', rest)) :
    ∃ space v f, Spaces space ∧ Value name v f ∧ ms.Admits f ∧ ms' = ms.add f ∧
      bs = space ++ colon :: (v ++ rest) := by
  simp only [member] at h
  -- the key decides: a text, an identifier, or a value of no interest
  split at h
  · -- the text, which must not have come before
    rename_i hname
    split at h
    · cases h
    · rename_i hnone
      split at h
      · rename_i s tail hvalue
        simp only [Except.ok.injEq, Prod.mk.injEq] at h
        obtain ⟨rfl, rfl⟩ := h
        obtain ⟨space, tail', hspace, rfl, hread⟩ := (memberValue_eq_ok_iff _ _ _ _).mp hvalue
        obtain ⟨space', v, hspace', hv, rfl⟩ := (textValue_eq_ok_iff _ _ _).mp hread
        refine ⟨space, space' ++ quoteByte :: (v ++ [quoteByte]), .text s, hspace,
          by rw [hname]; exact .text hspace' hv, ?_, rfl, by simp⟩
        -- the text was not there before, so it is admitted
        simpa [Members.Admits] using hnone
      · cases h
  · rename_i htext
    split at h
    · rename_i hname
      split at h
      · cases h
      · rename_i hnone
        split at h
        · rename_i n tail hvalue
          simp only [Except.ok.injEq, Prod.mk.injEq] at h
          obtain ⟨rfl, rfl⟩ := h
          obtain ⟨space, tail', hspace, rfl, hread⟩ := (memberValue_eq_ok_iff _ _ _ _).mp hvalue
          obtain ⟨space', v, hspace', hv, -, rfl⟩ := (idValue_eq_ok_iff _ _ _).mp hread
          refine ⟨space, space' ++ v, .id n, hspace, by rw [hname]; exact .id hspace' hv, ?_, rfl,
            by simp⟩
          simpa [Members.Admits] using hnone
        · cases h
    · -- any other key: its value is passed over
      rename_i hid
      split at h
      · rename_i tail hvalue
        simp only [Except.ok.injEq, Prod.mk.injEq] at h
        obtain ⟨rfl, rfl⟩ := h
        obtain ⟨space, tail', hspace, rfl, hread⟩ := (memberValue_eq_ok_iff _ _ _ _).mp hvalue
        obtain ⟨v, hv, rfl⟩ := exists_of_anyValue _ _ hread
        exact ⟨space, v, .other, hspace, .other htext hid hv, trivial, rfl, rfl⟩
      · cases h

/-- A value that may still come is read as a member after its key. -/
theorem member_of_value (ms : Members) (name : String) (space v rest : Bytes) (f : Field)
    (hspace : Spaces space) (hv : Value name v f) (hadmits : ms.Admits f) (hends : Ends rest) :
    member ms name (space ++ colon :: (v ++ rest)) = .ok (ms.add f, rest) := by
  -- each field is read under its own key, and the key admits it
  cases hv with
  | @text space' v s hspace' hv =>
    have hnone : ms.text = none := hadmits
    have hread := (textValue_eq_ok_iff (space' ++ quoteByte :: (v ++ quoteByte :: rest)) rest s).mpr
      ⟨space', v, hspace', hv, rfl⟩
    have hvalue := (memberValue_eq_ok_iff textValue _ rest s).mpr ⟨space, _, hspace, rfl, hread⟩
    simp only [List.append_assoc, List.cons_append, List.nil_append, member, if_true, hnone,
      Option.isSome_none, Bool.false_eq_true, if_false, hvalue, Members.add]
  | @id space' v n hspace' hv =>
    have hnone : ms.id = none := hadmits
    have hread := (idValue_eq_ok_iff (space' ++ (v ++ rest)) rest n).mpr
      ⟨space', v, hspace', hv, hends, rfl⟩
    have hvalue := (memberValue_eq_ok_iff idValue _ rest n).mpr ⟨space, _, hspace, rfl, hread⟩
    have hname : ("id" = "text") = False := by decide
    simp only [List.append_assoc, member, hname, if_true, hnone, Option.isSome_none,
      Bool.false_eq_true, if_false, hvalue, Members.add]
  | other htext hid hv =>
    -- the machine stops behind the value
    have hread : anyValue (v ++ rest) = .ok ((), rest) := by
      simp only [anyValue, Skip.skip_append v rest hv hends]
    have hvalue := (memberValue_eq_ok_iff anyValue _ rest ()).mpr ⟨space, _, hspace, rfl, hread⟩
    simp only [member, htext, hid, if_false, hvalue, Members.add]

end OneShot.Message
