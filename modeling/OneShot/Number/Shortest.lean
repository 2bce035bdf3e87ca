import OneShot.Number.Binary64

/-! # The fewest digits that read back

`shortest x` is the decimal with the fewest digits among those that round to the magnitude `x`, and
of these the one nearest to `x`. All comparisons are between products of natural numbers.

A decimal is written in one of two layouts: `plain` spells every digit, `scientific` one digit
before the point and an exponent.
-/

namespace OneShot.Number

/-- The value `digits * 10 ^ exponent`. -/
structure Decimal where
  digits : Nat
  exponent : Int
  deriving Repr, DecidableEq

namespace Decimal

/-- Moves zeros at the end of the digits into the exponent, `fuel` of them at most. -/
def strip : Nat → Decimal → Decimal
  | 0, x => x
  | fuel + 1, x =>
    if x.digits ≠ 0 ∧ x.digits % 10 = 0 then strip fuel ⟨x.digits / 10, x.exponent + 1⟩ else x

/-- Whether `digits * 10 ^ exponent` rounds to `x`: it lies between the midpoints to the two
neighbours of `x`, and on one of them only if the significand is even. -/
def roundsTo (x : Magnitude) (digits : Nat) (exponent : Int) : Bool :=
  let narrow := x.significand == Magnitude.leastNormal && x.exponent != Magnitude.leastExponent
  -- everything below is in units of a quarter of the last place
  let low := 4 * x.significand - (if narrow then 1 else 2)
  let high := 4 * x.significand + 2
  let (n, d) := if 0 ≤ exponent then (digits * Nat.pow 10 exponent.toNat, 1)
    else (digits, Nat.pow 10 (-exponent).toNat)
  let (p, q) := Magnitude.scaled 1 (x.exponent - 2)
  let value := n * q
  let low := low * p * d
  let high := high * p * d
  if x.significand % 2 == 0 then low ≤ value && value ≤ high else low < value && value < high

/-- The integer part of `x / 10 ^ exponent`, and twice the part after it against a whole. -/
def onGrid (x : Magnitude) (exponent : Int) : Nat × Ordering :=
  let (p, q) := Magnitude.scaled x.significand x.exponent
  let (n, d) := if 0 ≤ exponent then (p, q * Nat.pow 10 exponent.toNat)
    else (p * Nat.pow 10 (-exponent).toNat, q)
  (n / d, compare (2 * (n % d)) d)

/-- The decimal on one grid that rounds to `x` and is nearest to it. -/
def nearestOn (x : Magnitude) (exponent : Int) : Option Decimal :=
  let (below, half) := onGrid x exponent
  let lower := roundsTo x below exponent
  let upper := roundsTo x (below + 1) exponent
  match lower, upper with
  | false, false => none
  | true, false => some ⟨below, exponent⟩
  | false, true => some ⟨below + 1, exponent⟩
  | true, true =>
    match half with
    | .lt => some ⟨below, exponent⟩
    | .gt => some ⟨below + 1, exponent⟩
    | .eq => some ⟨below + below % 2, exponent⟩

/-- The first hit on the grids from `exponent` down. -/
def firstHit (x : Magnitude) : Nat → Int → Decimal
  | 0, exponent => ⟨(onGrid x exponent).1, exponent⟩
  | fuel + 1, exponent =>
    match nearestOn x exponent with
    | some d => if d.digits = 0 then firstHit x fuel (exponent - 1) else d
    | none => firstHit x fuel (exponent - 1)

/-- The decimal with the fewest digits that rounds to `x`. The first grid is coarser than `x`, so
at most twenty more grids follow before seventeen digits are reached. -/
def shortest (x : Magnitude) : Decimal :=
  if x.isZero then ⟨0, 0⟩
  else
    let bits : Int := (Nat.log2 x.significand : Int) + x.exponent
    strip 20 (firstHit x 22 ((bits * 30103) / 100000 + 2))

/-- The digits as characters. -/
def digitChars (d : Decimal) : List Char := Nat.toDigits 10 d.digits

/-- The exponent of the first digit. -/
def leading (d : Decimal) : Int := d.exponent + (d.digitChars.length : Int) - 1

/-- Every digit spelled, with a point and at least one digit after it. -/
def plain (d : Decimal) : List Char :=
  let cs := d.digitChars
  if 0 ≤ d.exponent then cs ++ List.replicate d.exponent.toNat '0' ++ ['.', '0']
  else
    let places := (-d.exponent).toNat
    if places < cs.length then
      cs.take (cs.length - places) ++ '.' :: cs.drop (cs.length - places)
    else ['0', '.'] ++ List.replicate (places - cs.length) '0' ++ cs

/-- One digit before the point, the others after it, and a signed exponent. -/
def scientific (d : Decimal) : List Char :=
  let point := match d.digitChars with
    | [] => []
    | [c] => [c]
    | c :: cs => c :: '.' :: cs
  let e := d.leading
  point ++ ['e', if 0 ≤ e then '+' else '-'] ++ Nat.toDigits 10 e.natAbs

end Decimal

/-- A double with its sign. -/
structure Double where
  negative : Bool
  magnitude : Magnitude
  deriving Repr, DecidableEq

namespace Double

/-- The layout of a number in a data text: plain from five places after the point up to sixteen
digits before it, scientific beyond. -/
def compactText (x : Double) : String :=
  let d := Decimal.shortest x.magnitude
  let body := if -5 ≤ d.leading ∧ d.leading ≤ 15 then d.plain else d.scientific
  String.ofList (if x.negative then '-' :: body else body)

/-- The layout of a number in a configuration text: always plain. -/
def plainText (x : Double) : String :=
  let body := (Decimal.shortest x.magnitude).plain
  String.ofList (if x.negative then '-' :: body else body)

end Double

end OneShot.Number
