import OneShot.Toml.Document

/-! # Scalars without quotes

Numbers, truth values, dates and times. A scalar is recognised as a whole: the run of characters
that can belong to one must be one.

* `Scalar.read?`   the scalar that a run of characters spells
-/

namespace OneShot.Toml

/-- A value that is written without quotes or brackets. -/
inductive Scalar where
  | integer (n : Int)
  | real (x : Real)
  | boolean (b : Bool)
  | dateTime
  deriving Repr, DecidableEq

namespace Scalar

/-- The characters of unquoted scalars. -/
def isScalarChar (c : Char) : Bool :=
  c.isAlphanum || c == '+' || c == '-' || c == '_' || c == '.' || c == ':'

/-- The value of a digit in bases up to sixteen. -/
def hexValue? (c : Char) : Option Nat :=
  if '0' ≤ c ∧ c ≤ '9' then some (c.toNat - '0'.toNat)
  else if 'a' ≤ c ∧ c ≤ 'f' then some (c.toNat - 'a'.toNat + 10)
  else if 'A' ≤ c ∧ c ≤ 'F' then some (c.toNat - 'A'.toNat + 10)
  else none

/-- The value of a digit in the given base. -/
def digitIn? (base : Nat) (c : Char) : Option Nat := (hexValue? c).filter (· < base)

/-- The digits of a run in which single underscores may stand between digits. -/
def digitsFrom (base : Nat) (afterDigit : Bool) : List Char → Option (List Nat)
  | [] => if afterDigit then some [] else none
  | c :: cs =>
    if c = '_' then if afterDigit then digitsFrom base false cs else none
    else
      match digitIn? base c with
      | some d => (digitsFrom base true cs).map (d :: ·)
      | none => none

/-- The number that digits make. -/
def ofDigits (base : Nat) (ds : List Nat) : Nat := ds.foldl (fun n d => n * base + d) 0

/-- A natural number in a base other than ten. -/
def natIn? (base : Nat) (cs : List Char) : Option Nat :=
  (digitsFrom base false cs).map (ofDigits base)

/-- Decimal digits without a leading zero. -/
def decimalDigits? (cs : List Char) : Option (List Nat) :=
  match digitsFrom 10 false cs with
  | some [d] => some [d]
  | some (0 :: _) => none
  | ds => ds

/-- The sign, and what follows it. -/
def splitSign : List Char → Bool × List Char
  | '-' :: cs => (true, cs)
  | '+' :: cs => (false, cs)
  | cs => (false, cs)

/-- The parts before and after the first character for which `p` holds. -/
def splitAt? (p : Char → Bool) (cs : List Char) : Option (List Char × List Char) :=
  match cs.span (!p ·) with
  | (before, _ :: after) => some (before, after)
  | (_, []) => none

/-- An exponent with its sign. -/
def exponent? (cs : List Char) : Option Int :=
  let (negative, cs) := splitSign cs
  (digitsFrom 10 false cs).map fun ds =>
    let n := ofDigits 10 ds
    if negative then -n else n

/-- An exponent beyond any that a double can have, given the digits before it. -/
def exponentBound (digits : Nat) : Nat := 2000 + digits

/-- The real number `± digits * 10 ^ exponent`. -/
def realOf (negative : Bool) (digits : List Nat) (exponent : Int) : Real :=
  let n := ofDigits 10 digits
  if n = 0 then .finite ⟨negative, .zero⟩
  else if exponent < -(exponentBound digits.length : Int) then .finite ⟨negative, .zero⟩
  else if (exponentBound digits.length : Int) < exponent then .tooLarge
  else
    match Number.Magnitude.ofDecimal n exponent with
    | some x => .finite ⟨negative, x⟩
    | none => .tooLarge

/-- Digits with a fraction, an exponent or both. -/
def real? (negative : Bool) (body : List Char) : Option Real := do
  let (mantissa, exponent) ←
    match splitAt? (fun c => c == 'e' || c == 'E') body with
    | some (mantissa, e) => (exponent? e).map fun e => (mantissa, some e)
    | none => some (body, none)
  match splitAt? (· == '.') mantissa with
  | some (whole, fraction) =>
    let ds ← decimalDigits? whole
    let fs ← digitsFrom 10 false fraction
    some (realOf negative (ds ++ fs) (exponent.getD 0 - fs.length))
  | none =>
    let ds ← decimalDigits? mantissa
    let e ← exponent
    some (realOf negative ds e)

/-- A number after its sign. -/
def number? (negative : Bool) (body : List Char) : Option Scalar :=
  if body = ['i', 'n', 'f'] then some (.real (.infinite negative))
  else if body = ['n', 'a', 'n'] then some (.real .notANumber)
  else
    match decimalDigits? body with
    | some ds =>
      let n : Int := ofDigits 10 ds
      some (.integer (if negative then -n else n))
    | none => (real? negative body).map .real

/-- Two decimal digits at the front, as a number of at most `greatest`. -/
def twoDigits? (greatest : Nat) : List Char → Option (Nat × List Char)
  | a :: b :: cs => do
    let a ← digitIn? 10 a
    let b ← digitIn? 10 b
    if a * 10 + b ≤ greatest then some (a * 10 + b, cs) else none
  | _ => none

def expect? (c : Char) : List Char → Option (List Char)
  | d :: cs => if d = c then some cs else none
  | [] => none

def isLeapYear (year : Nat) : Bool := year % 4 == 0 && (year % 100 != 0 || year % 400 == 0)

def daysInMonth (year month : Nat) : Nat :=
  if month = 2 then if isLeapYear year then 29 else 28
  else if month = 4 ∨ month = 6 ∨ month = 9 ∨ month = 11 then 30
  else 31

/-- A date at the front, and what follows it. -/
def date? (cs : List Char) : Option (List Char) := do
  let (century, cs) ← twoDigits? 99 cs
  let (year, cs) ← twoDigits? 99 cs
  let cs ← expect? '-' cs
  let (month, cs) ← twoDigits? 12 cs
  let cs ← expect? '-' cs
  let (day, cs) ← twoDigits? 31 cs
  if 1 ≤ month ∧ 1 ≤ day ∧ day ≤ daysInMonth (century * 100 + year) month then some cs else none

/-- The fraction of a second, if a point follows. -/
def secondFraction? : List Char → Option (List Char)
  | '.' :: c :: cs => if c.isDigit then some (cs.dropWhile Char.isDigit) else none
  | '.' :: [] => none
  | cs => some cs

/-- A time at the front, and what follows it. Seconds may be left out. -/
def time? (cs : List Char) : Option (List Char) := do
  let (_, cs) ← twoDigits? 23 cs
  let cs ← expect? ':' cs
  let (_, cs) ← twoDigits? 59 cs
  match cs with
  | ':' :: cs =>
    let (_, cs) ← twoDigits? 60 cs
    secondFraction? cs
  | cs => some cs

/-- Whether this is an offset from universal time, of less than a day, or nothing. -/
def isOffset : List Char → Bool
  | [] => true
  | ['Z'] | ['z'] => true
  | c :: cs =>
    (c == '+' || c == '-') &&
      (match twoDigits? 23 cs with
       | some (_, ':' :: cs) => (twoDigits? 59 cs).any (·.2 == [])
       | _ => false)

/-- Whether the run is a date, a time, or a date and a time. -/
def isDateTime (cs : List Char) : Bool :=
  match date? cs with
  | some [] => true
  | some (c :: cs) =>
    (c == 'T' || c == 't' || c == ' ') &&
      (match time? cs with
       | some cs => isOffset cs
       | none => false)
  | none => time? cs == some []

/-- The scalar that a run of characters spells. -/
def read? (cs : List Char) : Option Scalar :=
  if cs = ['t', 'r', 'u', 'e'] then some (.boolean true)
  else if cs = ['f', 'a', 'l', 's', 'e'] then some (.boolean false)
  else if isDateTime cs then some .dateTime
  else
    match cs with
    | '0' :: 'x' :: cs => (natIn? 16 cs).map fun n => .integer n
    | '0' :: 'o' :: cs => (natIn? 8 cs).map fun n => .integer n
    | '0' :: 'b' :: cs => (natIn? 2 cs).map fun n => .integer n
    | cs =>
      let (negative, body) := splitSign cs
      number? negative body

/-- Whether a run is a whole date, which a time may follow after a space. -/
def isDate (cs : List Char) : Bool := date? cs == some []

end Scalar

end OneShot.Toml
