import OneShot.Proofs.Json.Integers
import OneShot.Proofs.Json.Machine
import OneShot.Proofs.Json.Strings

/-!
# The language of values

A value is a word, a string, a number, a list of values, or an object whose members have values.
Strings are taken by their bytes here: an escape has to be one of the grammar, but neither the
encoding of the raw bytes nor the pairing of surrogates counts, and a number may be of any size.

What lists and objects have in common is `Row`: items with commas between them and white space
around each. It is generic in its items, so that the members of a message are laid out by it too.

## Key results

- `quotable_of_unescapes`, `wellFormed_of_integerLiteral`: what has a meaning is well formed
- `Row.cons_space`: white space in front of a row belongs to it
- `WellFormed.exists_cons`: a value starts with none of the bytes that end or separate values
-/

namespace OneShot.Json

open StringBody (isRaw)
open Numeral (Natural)
open Skip (isSimpleEscape)

/-! ### Layout -/

/-- Items with commas between them and white space around each, `true` if none stands before
them. -/
inductive Row {α : Type} (Item : α → Bytes → Prop) : Bool → List α → Bytes → Prop
  | nil {first : Bool} {space : Bytes} (hspace : Spaces space) : Row Item first [] space
  | first {space item row : Bytes} {x : α} {xs : List α} (hspace : Spaces space)
      (hitem : Item x item) (hrow : Row Item false xs row) :
      Row Item true (x :: xs) (space ++ (item ++ row))
  | next {space space' item row : Bytes} {x : α} {xs : List α} (hspace : Spaces space)
      (hspace' : Spaces space') (hitem : Item x item) (hrow : Row Item false xs row) :
      Row Item false (x :: xs) (space ++ comma :: (space' ++ (item ++ row)))

/-- A member: a key, which its spelling between the quotes stands for, and the bytes of a value. -/
inductive Pair {κ : Type} (Key : Bytes → κ → Prop) : κ × Bytes → Bytes → Prop
  | mk {spelling space space' value : Bytes} {key : κ} (hkey : Key spelling key)
      (hspace : Spaces space) (hspace' : Spaces space') :
      Pair Key (key, value)
        (quoteByte :: (spelling ++ quoteByte :: (space ++ colon :: (space' ++ value))))

/-- The byte at the end of a container. -/
def Container.closing : Container → UInt8
  | .list => closeBracket
  | .object => closeBrace

/-! ### Scalars -/

/-- The words of the grammar. -/
def words : List Bytes := [0x6E :: nullTail, 0x74 :: trueTail, 0x66 :: falseTail]

/-- What may stand between the quotes of a string, as far as its bytes go. -/
inductive Quotable : Bytes → Prop
  | nil : Quotable []
  | raw {b : UInt8} {s : Bytes} (hb : isRaw b = true) (h : Quotable s) : Quotable (b :: s)
  | letter {b : UInt8} {s : Bytes} (hb : isSimpleEscape b = true) (h : Quotable s) :
      Quotable (backslash :: b :: s)
  | numeric {digits s : Bytes} (hlength : digits.length = 4)
      (hdigits : ∀ d ∈ digits, (hexValue? d).isSome = true) (h : Quotable s) :
      Quotable (backslash :: 0x75 :: (digits ++ s))

/-- Bytes that are decimal digits. -/
def Digits (bs : Bytes) : Prop := ∀ d ∈ bs, isDigit d = true

/-- The fraction of a number, if it has one. -/
inductive Fraction : Bytes → Prop
  | none : Fraction []
  | some {digits : Bytes} (hne : digits ≠ []) (hdigits : Digits digits) :
      Fraction (point :: digits)

/-- The exponent of a number after its mark. -/
inductive Power : Bytes → Prop
  | unsigned {digits : Bytes} (hne : digits ≠ []) (hdigits : Digits digits) : Power digits
  | signed {sign : UInt8} {digits : Bytes} (hsign : isSign sign = true) (hne : digits ≠ [])
      (hdigits : Digits digits) : Power (sign :: digits)

/-- The exponent of a number, if it has one. -/
inductive Exponent : Bytes → Prop
  | none : Exponent []
  | some {mark : UInt8} {power : Bytes} (hmark : isExponentMark mark = true)
      (hpower : Power power) : Exponent (mark :: power)

/-- A number without its sign. -/
inductive Unsigned : Bytes → Prop
  | mk {digits fraction exponent : Bytes} (hdigits : Natural digits) (hfraction : Fraction fraction)
      (hexponent : Exponent exponent) : Unsigned (digits ++ (fraction ++ exponent))

/-! ### Values -/

/-- The values of the language. -/
inductive WellFormed : Bytes → Prop
  | word {v : Bytes} (h : v ∈ words) : WellFormed v
  | string {s : Bytes} (h : Quotable s) : WellFormed (quoteByte :: (s ++ [quoteByte]))
  | number {v : Bytes} (h : Unsigned v) : WellFormed v
  | negative {v : Bytes} (h : Unsigned v) : WellFormed (minus :: v)
  | list {row : Bytes} {vs : List Bytes} (hrow : Row Eq true vs row)
      (hvs : ∀ v ∈ vs, WellFormed v) : WellFormed (openBracket :: (row ++ [closeBracket]))
  | object {row : Bytes} {ms : List (Bytes × Bytes)} (hrow : Row (Pair Eq) true ms row)
      (hkeys : ∀ p ∈ ms, Quotable p.1) (hvs : ∀ p ∈ ms, WellFormed p.2) :
      WellFormed (openBrace :: (row ++ [closeBrace]))

/-! ### What has a meaning is well formed -/

/-- A letter that stands for a character may follow a backslash. -/
private theorem isSimpleEscape_of_simple? (b : UInt8) (c : Char)
    (h : StringBody.simple? b = some c) : isSimpleEscape b = true := by
  by_contra hb
  simp only [Bool.not_eq_true, isSimpleEscape, Bool.or_eq_false_iff] at hb
  simp [StringBody.simple?, hb] at h

/-- Four hexadecimal digits with a number may stand in a numeric escape. -/
private theorem Quotable.hexQuad {digits s : Bytes} {n : Nat} (hquad : StringBody.HexQuad digits n)
    (h : Quotable s) : Quotable (backslash :: 0x75 :: (digits ++ s)) := by
  obtain ⟨hp, hq, hr, ht⟩ := hquad
  exact .numeric rfl (by simp [hp, hq, hr, ht]) h

/-- A spelling that stands for bytes may stand between quotes. -/
theorem quotable_of_unescapes {spelling content : Bytes}
    (h : StringBody.Unescapes spelling content) : Quotable spelling := by
  induction h with
  | nil => exact .nil
  | raw hb h ih => exact .raw hb ih
  | escape he h ih =>
    cases he with
    | letter hsimple => exact .letter (isSimpleEscape_of_simple? _ _ hsimple) ih
    | scalar hquad _ => exact .hexQuad hquad ih
    | pair hquad _ hquad' _ =>
      have hpair := Quotable.hexQuad hquad (.hexQuad hquad' ih)
      simpa using hpair

/-- An integer literal is a value. -/
theorem wellFormed_of_integerLiteral {v : Bytes} {n : Int} (h : Numeral.IntegerLiteral v n) :
    WellFormed v := by
  have hunsigned : ∀ digits, Natural digits → Unsigned digits := by
    intro digits hdigits
    simpa using Unsigned.mk hdigits .none .none
  cases h with
  | unsigned h => exact .number (hunsigned _ h)
  | negative h _ => exact .negative (hunsigned _ h)

/-! ### How rows and values start -/

/-- White space in front of a row belongs to it. -/
theorem Row.cons_space {α : Type} {Item : α → Bytes → Prop} {first : Bool} {xs : List α}
    {row : Bytes} (h : Row Item first xs row) (b : UInt8) (hb : isSpace b = true) :
    Row Item first xs (b :: row) := by
  have hcons : ∀ space, Spaces space → Spaces (b :: space) :=
    fun space hspace => List.forall_mem_cons.mpr ⟨hb, hspace⟩
  cases h with
  | nil hspace => exact .nil (hcons _ hspace)
  | first hspace hitem hrow => exact .first (hcons _ hspace) hitem hrow
  | next hspace hspace' hitem hrow => exact .next (hcons _ hspace) hspace' hitem hrow

/-- A number without its sign starts with a digit. -/
theorem Unsigned.exists_cons {v : Bytes} (h : Unsigned v) :
    ∃ b tail, v = b :: tail ∧ isDigit b = true := by
  obtain ⟨hdigits, -, -⟩ := h
  obtain ⟨b, tail, rfl, hb⟩ := hdigits.exists_cons
  exact ⟨b, _, rfl, hb⟩

/-- A value starts with a byte that is neither white space nor a closing bracket. -/
theorem WellFormed.exists_cons {v : Bytes} (h : WellFormed v) :
    ∃ b tail, v = b :: tail ∧ isSpace b = false ∧ (b == closeBracket) = false := by
  -- each kind of value shows in its first byte
  cases h with
  | word h =>
    -- the three words begin with letters
    have hall : ∀ w ∈ words, ∃ b tail, w = b :: tail ∧ isSpace b = false ∧
        (b == closeBracket) = false := by
      intro w hw
      simp only [words, List.mem_cons, List.not_mem_nil, or_false] at hw
      rcases hw with rfl | rfl | rfl <;> exact ⟨_, _, rfl, rfl, rfl⟩
    exact hall v h
  | number h =>
    obtain ⟨b, tail, rfl, hb⟩ := h.exists_cons
    exact ⟨b, tail, rfl, (Numeral.ne_of_isDigit b hb).1,
      Numeral.beq_eq_false_of_test isDigit b closeBracket hb rfl⟩
  | string _ | negative _ | list _ _ | object _ _ _ => exact ⟨_, _, rfl, rfl, rfl⟩

end OneShot.Json
