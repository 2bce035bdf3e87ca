import OneShot.Json.Byte
import OneShot.Number.Shortest

/-! # Numbers

A number is read as an unsigned or a negative integer of 64 bits where it is one, and otherwise as
a double. The double is computed in two steps, each rounded: the digits as an integer of 64 bits,
then one multiplication or division by a power of ten. Digits that no longer fit are dropped, those
before the point after raising the exponent.

* `read`             a number without its sign, after the sign if there was one
* `encode`           the decimal digits of an integer
* `read_length_lt`   a number takes at least one byte
-/

namespace OneShot.Json

/-- A number as it was read. -/
inductive Numeral where
  | unsigned (n : Nat)
  | negative (n : Int)
  | double (x : Number.Double)
  deriving Repr, DecidableEq

/-- What a number is when something else was wanted. -/
def Numeral.found : Numeral → Found
  | .unsigned n => .integer n
  | .negative n => .integer n
  | .double x => .float x.compactText

namespace Numeral

open Number (Magnitude Double)

def unsignedLimit : Nat := 0x10000000000000000

def signedLimit : Nat := 0x8000000000000000

/-- The largest exponent that is read as written. -/
def exponentLimit : Nat := 0x80000000

/-- Whether a digit can be appended to `n` within 64 bits. -/
def fits (n digit : Nat) : Bool := n * 10 + digit < unsignedLimit

/-- The greatest power of ten that is kept as a double. -/
def tableEnd : Nat := 308

/-- The double nearest to `10 ^ k`. -/
def powerOfTen (k : Nat) : Magnitude := (Magnitude.ofNat (Nat.pow 10 k)).getD .zero

/-- Divides by `10 ^ 308` until the exponent is back in the table or nothing is left. -/
def scaleDown (x : Magnitude) (exponent : Nat) : Magnitude :=
  if exponent ≤ tableEnd then (x.div (powerOfTen exponent)).getD .zero
  else if x.isZero then x
  else scaleDown ((x.div (powerOfTen tableEnd)).getD .zero) (exponent - tableEnd)
termination_by exponent
decreasing_by simp only [tableEnd] at *; omega

/-- `significand * 10 ^ exponent` in doubles, `none` if it is too large. -/
def toMagnitude (significand : Nat) (exponent : Int) : Option Magnitude := do
  let x ← Magnitude.ofNat significand
  if exponent < 0 then some (scaleDown x exponent.natAbs)
  else if exponent.natAbs ≤ tableEnd then x.mul (powerOfTen exponent.natAbs)
  else if x.isZero then some x
  else none

/-- The double with the given parts; `rest` holds the bytes after the number. -/
def ofParts (negative : Bool) (significand : Nat) (exponent : Int) (rest : Bytes) :
    Result Numeral :=
  match toMagnitude significand exponent with
  | some x => .ok (.double ⟨negative, x⟩, rest)
  | none => .error ⟨.numberOutOfRange, rest, 0⟩

/-- The digits of an exponent. One that is too large makes the number zero, if that is what the
exponent says, or puts it out of range. -/
def exponentDigits (negative : Bool) (significand : Nat) (before : Int) (down : Bool)
    (value : Nat) :
    Bytes → Result Numeral
  | b :: bs =>
    if isDigit b then
      let value' := value * 10 + digitValue b
      if value' < exponentLimit then exponentDigits negative significand before down value' bs
      else if significand ≠ 0 ∧ !down then .error ⟨.numberOutOfRange, bs, 0⟩
      else .ok (.double ⟨negative, .zero⟩, bs.dropWhile isDigit)
    else ofParts negative significand (if down then before - value else before + value) (b :: bs)
  | [] => ofParts negative significand (if down then before - value else before + value) []

/-- The exponent after its mark. -/
def exponent (negative : Bool) (significand : Nat) (before : Int) (bs : Bytes) : Result Numeral :=
  let down := bs.head? == some minus
  let bs := match bs with
    | [] => []
    | b :: rest => if isSign b then rest else b :: rest
  match bs with
  | [] => .error ⟨.endInValue, [], 0⟩
  | b :: rest =>
    if isDigit b then exponentDigits negative significand before down 0 (b :: rest)
    else .error ⟨.invalidNumber, rest, 0⟩

/-- The number after its last digit: an exponent may follow. -/
def afterDigits (negative : Bool) (significand : Nat) (power : Int) (bs : Bytes) :
    Result Numeral :=
  match bs with
  | b :: rest =>
    if isExponentMark b then exponent negative significand power rest
    else ofParts negative significand power bs
  | [] => ofParts negative significand power []

/-- The digits after the point, of which `seen` were read. Those that do not fit are dropped. -/
def fraction (negative : Bool) (significand : Nat) (power : Int) (seen : Bool) :
    Bytes → Result Numeral
  | b :: bs =>
    if isDigit b then
      if fits significand (digitValue b) then
        fraction negative (significand * 10 + digitValue b) (power - 1) true bs
      else afterDigits negative significand power (bs.dropWhile isDigit)
    else if seen then afterDigits negative significand power (b :: bs)
    else .error ⟨.invalidNumber, bs, 0⟩
  | [] =>
    if seen then afterDigits negative significand power []
    else .error ⟨.endInValue, [], 0⟩

/-- The integer digits that no longer fit raise the exponent. -/
def overlong (negative : Bool) (significand : Nat) (power : Nat) : Bytes → Result Numeral
  | b :: bs =>
    if isDigit b then overlong negative significand (power + 1) bs
    else if b == point then fraction negative significand power false bs
    else afterDigits negative significand power (b :: bs)
  | [] => ofParts negative significand power []

/-- An integer, if nothing else follows its digits. -/
def ofInteger (negative : Bool) (significand : Nat) : Numeral :=
  if !negative then .unsigned significand
  else if significand = 0 ∨ signedLimit < significand then
    .double ⟨true, (Magnitude.ofNat significand).getD .zero⟩
  else .negative (-significand)

/-- The number after its integer digits. -/
def afterInteger (negative : Bool) (significand : Nat) (bs : Bytes) : Result Numeral :=
  match bs with
  | b :: rest =>
    if b == point then fraction negative significand 0 false rest
    else if isExponentMark b then exponent negative significand 0 rest
    else .ok (ofInteger negative significand, bs)
  | [] => .ok (ofInteger negative significand, [])

/-- The integer digits after the first one. -/
def integerDigits (negative : Bool) (significand : Nat) : Bytes → Result Numeral
  | b :: bs =>
    if isDigit b then
      if fits significand (digitValue b) then
        integerDigits negative (significand * 10 + digitValue b) bs
      else overlong negative significand 1 bs
    else afterInteger negative significand (b :: bs)
  | [] => afterInteger negative significand []

/-- A number without its sign. -/
def read (negative : Bool) : Bytes → Result Numeral
  | [] => .error ⟨.endInValue, [], 0⟩
  | b :: bs =>
    if b == zeroDigit then
      match bs with
      | d :: rest =>
        if isDigit d then .error ⟨.invalidNumber, rest, 0⟩ else afterInteger negative 0 bs
      | [] => afterInteger negative 0 []
    else if isLeadingDigit b then integerDigits negative (digitValue b) bs
    else .error ⟨.invalidNumber, bs, 0⟩

theorem ofParts_length_le {neg : Bool} {n : Nat} {e : Int} {bs rest : Bytes} {x : Numeral}
    (h : ofParts neg n e bs = .ok (x, rest)) : rest.length ≤ bs.length := by
  simp only [ofParts] at h
  split at h <;> cases h
  exact Nat.le_refl _

theorem dropWhile_length_le (p : UInt8 → Bool) (bs : Bytes) :
    (bs.dropWhile p).length ≤ bs.length := (List.dropWhile_sublist p).length_le

theorem exponentDigits_length_le {neg down : Bool} {n v : Nat} {e : Int} {bs rest : Bytes}
    {x : Numeral} (h : exponentDigits neg n e down v bs = .ok (x, rest)) :
    rest.length ≤ bs.length := by
  induction bs generalizing v with
  | nil => exact ofParts_length_le h
  | cons b bs ih =>
    simp only [exponentDigits] at h
    split at h
    · split at h
      · exact Nat.le_succ_of_le (ih h)
      · split at h <;> cases h
        exact Nat.le_succ_of_le (dropWhile_length_le isDigit bs)
    · exact ofParts_length_le h

theorem exponent_length_le {neg : Bool} {n : Nat} {e : Int} {bs rest : Bytes} {x : Numeral}
    (h : exponent neg n e bs = .ok (x, rest)) : rest.length ≤ bs.length := by
  cases bs with
  | nil => cases h
  | cons b bs =>
    simp only [exponent] at h
    split at h
    · cases h
    next c tail heq =>
      split at h
      · have := exponentDigits_length_le h
        split at heq <;> simp_all
        omega
      · cases h

theorem afterDigits_length_le {neg : Bool} {n : Nat} {e : Int} {bs rest : Bytes} {x : Numeral}
    (h : afterDigits neg n e bs = .ok (x, rest)) : rest.length ≤ bs.length := by
  cases bs with
  | nil => exact ofParts_length_le h
  | cons b bs =>
    simp only [afterDigits] at h
    split at h
    · exact Nat.le_succ_of_le (exponent_length_le h)
    · exact ofParts_length_le h

theorem fraction_length_le {neg seen : Bool} {n : Nat} {e : Int} {bs rest : Bytes} {x : Numeral}
    (h : fraction neg n e seen bs = .ok (x, rest)) : rest.length ≤ bs.length := by
  induction bs generalizing n e seen with
  | nil =>
    simp only [fraction] at h
    split at h
    · exact afterDigits_length_le h
    · cases h
  | cons b bs ih =>
    simp only [fraction] at h
    split at h
    · split at h
      · exact Nat.le_succ_of_le (ih h)
      · exact Nat.le_succ_of_le
          (Nat.le_trans (afterDigits_length_le h) (dropWhile_length_le isDigit bs))
    · split at h
      · exact afterDigits_length_le h
      · cases h

theorem overlong_length_le {neg : Bool} {n e : Nat} {bs rest : Bytes} {x : Numeral}
    (h : overlong neg n e bs = .ok (x, rest)) : rest.length ≤ bs.length := by
  induction bs generalizing e with
  | nil => exact ofParts_length_le h
  | cons b bs ih =>
    simp only [overlong] at h
    split at h
    · exact Nat.le_succ_of_le (ih h)
    · split at h
      · exact Nat.le_succ_of_le (fraction_length_le h)
      · exact afterDigits_length_le h

theorem afterInteger_length_le {neg : Bool} {n : Nat} {bs rest : Bytes} {x : Numeral}
    (h : afterInteger neg n bs = .ok (x, rest)) : rest.length ≤ bs.length := by
  cases bs with
  | nil => cases h; exact Nat.le_refl _
  | cons b bs =>
    simp only [afterInteger] at h
    split at h
    · exact Nat.le_succ_of_le (fraction_length_le h)
    · split at h
      · exact Nat.le_succ_of_le (exponent_length_le h)
      · cases h; exact Nat.le_refl _

theorem integerDigits_length_le {neg : Bool} {n : Nat} {bs rest : Bytes} {x : Numeral}
    (h : integerDigits neg n bs = .ok (x, rest)) : rest.length ≤ bs.length := by
  induction bs generalizing n with
  | nil => exact afterInteger_length_le h
  | cons b bs ih =>
    simp only [integerDigits] at h
    split at h
    · split at h
      · exact Nat.le_succ_of_le (ih h)
      · exact Nat.le_succ_of_le (overlong_length_le h)
    · exact afterInteger_length_le h

theorem read_length_lt {neg : Bool} {bs rest : Bytes} {x : Numeral}
    (h : read neg bs = .ok (x, rest)) : rest.length < bs.length := by
  cases bs with
  | nil => cases h
  | cons b bs =>
    simp only [read] at h
    refine Nat.lt_succ_of_le ?_
    split at h
    · split at h
      · split at h
        · cases h
        · exact afterInteger_length_le h
      · exact afterInteger_length_le h
    · split at h
      · exact integerDigits_length_le h
      · cases h

/-- The decimal digits of a natural number. -/
def encodeNat (n : Nat) : Bytes := (Nat.toDigits 10 n).map fun c => c.toNat.toUInt8

/-- An integer in decimal. -/
def encode (n : Int) : Bytes :=
  if n < 0 then minus :: encodeNat n.natAbs else encodeNat n.natAbs

end Numeral

end OneShot.Json
