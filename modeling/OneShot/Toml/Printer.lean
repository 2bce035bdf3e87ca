import OneShot.Toml.QuotedString

/-! # Writing strings

A string is written in the first of these forms that can hold it: basic without escapes, literal,
basic over several lines without escapes, literal over several lines; and otherwise with escapes,
over several lines if it has more than one. A tab is written as an escape between double quotes.

* `writeString`   the written form
-/

namespace OneShot.Toml

/-- A control character in a string, by its code point. -/
def isControl (c : Char) : Bool := c.toNat < 0x20 || c.toNat == 0x7F

/-- The longest run of the character `q`. -/
def longestRun (q : Char) (cs : List Char) : Nat :=
  (cs.foldl (fun (best, run) c => if c = q then (max best (run + 1), run + 1) else (best, 0))
    (0, 0)).1

/-- A hexadecimal digit in upper case. -/
def upperHexDigit (n : Nat) : Char :=
  if n < 10 then Char.ofNat (0x30 + n) else Char.ofNat (0x41 + n - 10)

/-- The escape of a control character, a quote or a backslash. -/
def escapeOf (c : Char) : List Char :=
  match c with
  | '\x08' => ['\\', 'b']
  | '\t' => ['\\', 't']
  | '\n' => ['\\', 'n']
  | '\x0c' => ['\\', 'f']
  | '\r' => ['\\', 'r']
  | '"' => ['\\', '"']
  | '\\' => ['\\', '\\']
  | c =>
    ['\\', 'u', upperHexDigit (c.toNat / 0x1000 % 16), upperHexDigit (c.toNat / 0x100 % 16),
      upperHexDigit (c.toNat / 0x10 % 16), upperHexDigit (c.toNat % 16)]

/-- The characters of a basic string on one line. -/
def escapeBasic (cs : List Char) : List Char :=
  cs.flatMap fun c => if isControl c || c == '"' || c == '\\' then escapeOf c else [c]

/-- The characters of a basic string over several lines. Line feeds stay as they are, and so do
quotes, except for every third in a row; `run` counts those just before. -/
def escapeMultiLine (run : Nat) : List Char → List Char
  | [] => []
  | c :: cs =>
    if c = '\n' then c :: escapeMultiLine 0 cs
    else if c = '"' then
      if run < 2 then c :: escapeMultiLine (run + 1) cs else escapeOf c ++ escapeMultiLine 0 cs
    else if isControl c || c == '\\' then escapeOf c ++ escapeMultiLine 0 cs
    else c :: escapeMultiLine 0 cs

/-- The forms of a string. -/
inductive StringForm where
  | basic
  | literal
  | multiLineBasic
  | multiLineLiteral
  deriving Repr, DecidableEq

/-- The first form that can hold the string. -/
def formFor (cs : List Char) : StringForm :=
  let onlyTabs := cs.all fun c => !isControl c || c == '\t'
  let onlyTabsAndBreaks := cs.all fun c => !isControl c || c == '\t' || c == '\n'
  if onlyTabs && !cs.contains '"' && !cs.contains '\\' then .basic
  else if onlyTabs && !cs.contains '\'' then .literal
  else if onlyTabsAndBreaks && !cs.contains '\\' && longestRun '"' cs ≤ 2 then .multiLineBasic
  else if onlyTabsAndBreaks && longestRun '\'' cs ≤ 2 then .multiLineLiteral
  else if cs.contains '\n' then .multiLineBasic
  else .basic

/-- A line break after the opening quotes, where the string has more than one line. -/
def firstBreak (cs : List Char) : List Char := if cs.contains '\n' then ['\n'] else []

/-- The written form of a string. -/
def writeString (s : String) : List Char :=
  let cs := s.toList
  match formFor cs with
  | .basic => '"' :: (escapeBasic cs ++ ['"'])
  | .literal => '\'' :: (cs ++ ['\''])
  | .multiLineBasic =>
    ['"', '"', '"'] ++ firstBreak cs ++ escapeMultiLine 0 cs ++ ['"', '"', '"']
  | .multiLineLiteral => ['\'', '\'', '\''] ++ firstBreak cs ++ cs ++ ['\'', '\'', '\'']

end OneShot.Toml
