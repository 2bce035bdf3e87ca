import OneShot.Json.Fault

/-! # The bytes of JSON

Names for the bytes that the grammar mentions, its white space and its digits.
-/

namespace OneShot.Json

def quoteByte : UInt8 := 0x22
def backslash : UInt8 := 0x5C
def comma : UInt8 := 0x2C
def colon : UInt8 := 0x3A
def openBracket : UInt8 := 0x5B
def closeBracket : UInt8 := 0x5D
def openBrace : UInt8 := 0x7B
def closeBrace : UInt8 := 0x7D
def minus : UInt8 := 0x2D
def plus : UInt8 := 0x2B
def point : UInt8 := 0x2E
def zeroDigit : UInt8 := 0x30

/-- Space, tab, line feed and carriage return. -/
def isSpace (b : UInt8) : Bool := b == 0x20 || b == 0x09 || b == 0x0A || b == 0x0D

def isDigit (b : UInt8) : Bool := 0x30 ≤ b && b ≤ 0x39

/-- The digits without zero. -/
def isLeadingDigit (b : UInt8) : Bool := 0x31 ≤ b && b ≤ 0x39

def digitValue (b : UInt8) : Nat := b.toNat - 0x30

/-- The letter that starts an exponent, in either case. -/
def isExponentMark (b : UInt8) : Bool := b == 0x65 || b == 0x45

def isSign (b : UInt8) : Bool := b == plus || b == minus

/-- A byte that may not stand raw in a string. -/
def isControl (b : UInt8) : Bool := b < 0x20

/-- The value of a hexadecimal digit in either case. -/
def hexValue? (b : UInt8) : Option Nat :=
  if 0x30 ≤ b ∧ b ≤ 0x39 then some (b.toNat - 0x30)
  else if 0x41 ≤ b ∧ b ≤ 0x46 then some (b.toNat - 0x41 + 10)
  else if 0x61 ≤ b ∧ b ≤ 0x66 then some (b.toNat - 0x61 + 10)
  else none

/-- The bytes after the white space at the front. -/
def skipSpace (bs : Bytes) : Bytes := bs.dropWhile isSpace

theorem skipSpace_length_le (bs : Bytes) : (skipSpace bs).length ≤ bs.length :=
  (List.dropWhile_sublist isSpace).length_le

theorem length_lt_of_skipSpace {bs rest : Bytes} {b : UInt8} (h : skipSpace bs = b :: rest) :
    rest.length < bs.length := by
  have := skipSpace_length_le bs
  simp only [h, List.length_cons] at this
  omega

/-- The words of the grammar without their first letter. -/
def nullTail : Bytes := [0x75, 0x6C, 0x6C]
def trueTail : Bytes := [0x72, 0x75, 0x65]
def falseTail : Bytes := [0x61, 0x6C, 0x73, 0x65]

/-- The rest of a word by its first letter: `n`, `t` or `f`. -/
def literalTail? (b : UInt8) : Option Bytes :=
  if b == 0x6E then some nullTail
  else if b == 0x74 then some trueTail
  else if b == 0x66 then some falseTail
  else none

end OneShot.Json
