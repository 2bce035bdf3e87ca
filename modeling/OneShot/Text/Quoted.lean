import OneShot.Text.Unprintable

/-! # Quoted text

Text between double quotes, as it stands in the summary of a message and in diagnostics: on one
line, with nothing in it that does not print. Five characters have a short escape besides the quote;
any other character without a printed form is spelled `\u{hex}`.

* `escape`  the characters of a text, escaped one by one
* `quote`   the same between two quotes
-/

namespace OneShot.Text

/-- The lowercase hexadecimal digits of a number. -/
def lowerHex (n : Nat) : List Char := Nat.toDigits 16 n

/-- The spelling of one character inside quotes. -/
def escapeChar (c : Char) : List Char :=
  match c with
  | '\x00' => ['\\', '0']
  | '\t' => ['\\', 't']
  | '\r' => ['\\', 'r']
  | '\n' => ['\\', 'n']
  | '"' => ['\\', '"']
  | '\\' => ['\\', '\\']
  | c =>
    if 0x20 ≤ c.toNat ∧ c.toNat < 0x7F then [c]
    else if isUnprintable c then ['\\', 'u', '\x7b'] ++ lowerHex c.toNat ++ ['\x7d']
    else [c]

/-- The spelling of a text inside quotes. -/
def escape (text : List Char) : List Char := text.flatMap escapeChar

/-- A text in double quotes. -/
def quote (s : String) : String := String.ofList ('"' :: (escape s.toList ++ ['"']))

end OneShot.Text
