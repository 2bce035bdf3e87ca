/-! # Binary floating point, 64 bits wide

Non-negative doubles in exact arithmetic on natural numbers. A `Magnitude` stands for
`significand * 2 ^ exponent`. Every operation rounds its exact result once, to the nearest
magnitude and from a tie to the even one; `none` stands for a result that is too large.
-/

namespace OneShot.Number

/-- The quotient `n / d` rounded to the nearest integer, from a tie to the even one. -/
def roundDiv (n d : Nat) : Nat :=
  let q := n / d
  let r := n % d
  if 2 * r < d then q else if d < 2 * r then q + 1 else q + q % 2

/-- A non-negative finite double: `significand * 2 ^ exponent`, with a significand of 53 bits
unless the exponent is the least one. -/
structure Magnitude where
  significand : Nat
  exponent : Int
  deriving Repr, DecidableEq

namespace Magnitude

/-- The least exponent. -/
def leastExponent : Int := -1074

/-- The greatest exponent. -/
def greatestExponent : Int := 971

/-- The least significand of 53 bits, `2 ^ 52`. -/
def leastNormal : Nat := 0x10000000000000

/-- The least number of 54 bits, `2 ^ 53`. -/
def significandLimit : Nat := 0x20000000000000

def zero : Magnitude := ⟨0, leastExponent⟩

def isZero (x : Magnitude) : Bool := x.significand == 0

/-- The numerator and the denominator of `s * 2 ^ e`. -/
def scaled (s : Nat) (e : Int) : Nat × Nat :=
  if 0 ≤ e then (s * Nat.pow 2 e.toNat, 1) else (s, Nat.pow 2 (-e).toNat)

/-- The exponent at which `n / d` has a significand of 53 bits, or the least one. -/
def exponentFor (n d : Nat) : Int :=
  let e : Int := (Nat.log2 n : Int) - (Nat.log2 d : Int) - 53
  let (p, q) := scaled n (-e)
  let e := if p / (q * d) < significandLimit then e else e + 1
  max e leastExponent

/-- The magnitude nearest to `n / d`. -/
def ofRatio (n d : Nat) : Option Magnitude :=
  if n = 0 then some zero
  else
    let e := exponentFor n d
    let (p, q) := scaled n (-e)
    let s := roundDiv p (q * d)
    let x : Magnitude := if s = significandLimit then ⟨leastNormal, e + 1⟩ else ⟨s, e⟩
    if greatestExponent < x.exponent then none else some x

/-- The magnitude nearest to a natural number. -/
def ofNat (n : Nat) : Option Magnitude := ofRatio n 1

/-- The magnitude nearest to `digits * 10 ^ exponent`. -/
def ofDecimal (digits : Nat) (exponent : Int) : Option Magnitude :=
  if 0 ≤ exponent then ofRatio (digits * Nat.pow 10 exponent.toNat) 1
  else ofRatio digits (Nat.pow 10 (-exponent).toNat)

/-- The product of two magnitudes. -/
def mul (x y : Magnitude) : Option Magnitude :=
  let (p, q) := scaled (x.significand * y.significand) (x.exponent + y.exponent)
  ofRatio p q

/-- The quotient of two magnitudes, the second not zero. -/
def div (x y : Magnitude) : Option Magnitude :=
  let (p, q) := scaled x.significand (x.exponent - y.exponent)
  ofRatio p (q * y.significand)

end Magnitude

end OneShot.Number
