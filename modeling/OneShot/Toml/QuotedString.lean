import OneShot.Toml.Document

/-! # Strings

The four written forms of a string: basic (double quotes, with escapes) and literal (single quotes,
without), each on one line or over several lines between triple quotes. A line ends with a line feed
or a carriage return and a line feed; a carriage return may not stand alone.

* `QuotedString.read?`   a string of any form, from its opening quote on
-/

namespace OneShot.Toml.QuotedString

/-- A control character that may not stand raw in a string or comment. -/
def isForbidden (c : Char) : Bool := (c.toNat < 0x20 && c != '\t') || c.toNat == 0x7F

/-- The character with a code point, unless it is a surrogate or too great. -/
def charOf? (n : Nat) : Option Char := if h : n.isValidChar then some (Char.ofNatAux n h) else none

/-- The value of a hexadecimal digit. -/
def hexValue? (c : Char) : Option Nat :=
  if '0' ≤ c ∧ c ≤ '9' then some (c.toNat - '0'.toNat)
  else if 'a' ≤ c ∧ c ≤ 'f' then some (c.toNat - 'a'.toNat + 10)
  else if 'A' ≤ c ∧ c ≤ 'F' then some (c.toNat - 'A'.toNat + 10)
  else none

/-- The number that hexadecimal digits make. -/
def hexNumber? (cs : List Char) : Option Nat :=
  cs.foldl (fun n c => do some ((← n) * 16 + (← hexValue? c))) (some 0)

/-- A numeric escape of `count` digits. -/
def numericEscape? (count : Nat) (cs : List Char) : Option (Char × List Char) :=
  if cs.length < count then none
  else
    match (hexNumber? (cs.take count)).bind charOf? with
    | some c => some (c, cs.drop count)
    | none => none

/-- An escape after its backslash. -/
def escape? : List Char → Option (Char × List Char)
  | 'b' :: cs => some ('\x08', cs)
  | 't' :: cs => some ('\t', cs)
  | 'n' :: cs => some ('\n', cs)
  | 'f' :: cs => some ('\x0c', cs)
  | 'r' :: cs => some ('\r', cs)
  | 'e' :: cs => some ('\x1b', cs)
  | '"' :: cs => some ('"', cs)
  | '\\' :: cs => some ('\\', cs)
  | 'x' :: cs => numericEscape? 2 cs
  | 'u' :: cs => numericEscape? 4 cs
  | 'U' :: cs => numericEscape? 8 cs
  | _ => none

theorem numericEscape?_length {count : Nat} {cs rest : List Char} {c : Char}
    (h : numericEscape? count cs = some (c, rest)) : rest.length ≤ cs.length := by
  simp only [numericEscape?] at h
  split at h
  · cases h
  · split at h
    · simp only [Option.some.injEq, Prod.mk.injEq] at h
      obtain ⟨-, rfl⟩ := h
      simp
    · cases h

theorem escape?_length_lt {cs rest : List Char} {c : Char} (h : escape? cs = some (c, rest)) :
    rest.length < cs.length := by
  unfold escape? at h
  split at h
  all_goals first
    | exact Nat.lt_succ_of_le (numericEscape?_length h)
    | (cases h; simp)
    | cases h

/-- A basic string on one line, after its quote and the characters in `done`, last first. -/
def basic (done : List Char) : List Char → Option (String × List Char)
  | [] => none
  | c :: cs =>
    if c = '"' then some (String.ofList done.reverse, cs)
    else if c = '\\' then
      match _h : escape? cs with
      | some (e, rest) => basic (e :: done) rest
      | none => none
    else if isForbidden c then none
    else basic (c :: done) cs
termination_by cs => cs.length
decreasing_by
  · have := escape?_length_lt _h; simp only [List.length_cons]; omega
  · simp

/-- A literal string on one line. -/
def literal (done : List Char) : List Char → Option (String × List Char)
  | [] => none
  | c :: cs =>
    if c = '\'' then some (String.ofList done.reverse, cs)
    else if isForbidden c then none
    else literal (c :: done) cs

/-- The number of characters `q` at the front. -/
def runLength (q : Char) (cs : List Char) : Nat := (cs.takeWhile (· == q)).length

/-- What follows a line break at the front, if there is one. -/
def afterLineBreak? : List Char → Option (List Char)
  | '\n' :: cs => some cs
  | '\r' :: '\n' :: cs => some cs
  | _ => none

def isSpaceOrTab (c : Char) : Bool := c == ' ' || c == '\t'

/-- What follows the blanks and line breaks at the front. A carriage return counts only before a
line feed. -/
def skipBlankLines : List Char → List Char
  | ' ' :: cs | '\t' :: cs | '\n' :: cs => skipBlankLines cs
  | '\r' :: '\n' :: cs => skipBlankLines cs
  | cs => cs

/-- A backslash at the end of a line joins the next text to it: what follows the backslash. -/
def continuation? (cs : List Char) : Option (List Char) :=
  (afterLineBreak? (cs.dropWhile isSpaceOrTab)).map skipBlankLines

theorem skipBlankLines_length_le (cs : List Char) : (skipBlankLines cs).length ≤ cs.length := by
  fun_induction skipBlankLines cs <;> simp_all <;> omega

theorem continuation?_length_lt {cs rest : List Char} (h : continuation? cs = some rest) :
    rest.length < cs.length := by
  simp only [continuation?, Option.map_eq_some_iff] at h
  obtain ⟨tail, h, rfl⟩ := h
  have h₁ := skipBlankLines_length_le tail
  have h₂ := (List.dropWhile_sublist isSpaceOrTab (l := cs)).length_le
  unfold afterLineBreak? at h
  split at h
  · cases h; simp_all; omega
  · cases h; simp_all; omega
  · cases h

/-- A string over several lines, after its opening quotes; `q` is the quote, and `escapes` says
whether a backslash is special. Up to two quotes before the closing three belong to the string. -/
def multiLine (q : Char) (escapes : Bool) (done : List Char) :
    List Char → Option (String × List Char)
  | [] => none
  | c :: cs =>
    if c = q then
      let run := runLength q cs + 1
      if run < 3 then multiLine q escapes (q :: done) cs
      else
        let inside := min (run - 3) 2
        some (String.ofList (List.replicate inside q ++ done).reverse, cs.drop (inside + 2))
    else if c = '\\' ∧ escapes then
      match _h : continuation? cs with
      | some rest => multiLine q escapes done rest
      | none =>
        match _h' : escape? cs with
        | some (e, rest) => multiLine q escapes (e :: done) rest
        | none => none
    else if c = '\n' then multiLine q escapes (c :: done) cs
    else if c = '\r' then
      match cs with
      | '\n' :: cs => multiLine q escapes ('\n' :: c :: done) cs
      | _ => none
    else if isForbidden c then none
    else multiLine q escapes (c :: done) cs
termination_by cs => cs.length
decreasing_by
  · simp
  · have := continuation?_length_lt _h; simp only [List.length_cons]; omega
  · have := escape?_length_lt _h'; simp only [List.length_cons]; omega
  · simp
  · simp only [List.length_cons]; omega
  · simp

/-- The text without a line break at its start. -/
def trimFirstBreak (cs : List Char) : List Char := (afterLineBreak? cs).getD cs

/-- A string of one line. -/
def readSingle? : List Char → Option (String × List Char)
  | '"' :: cs => basic [] cs
  | '\'' :: cs => literal [] cs
  | _ => none

/-- A string of any form. -/
def read? : List Char → Option (String × List Char)
  | '"' :: '"' :: '"' :: cs => multiLine '"' true [] (trimFirstBreak cs)
  | '\'' :: '\'' :: '\'' :: cs => multiLine '\'' false [] (trimFirstBreak cs)
  | cs => readSingle? cs

end OneShot.Toml.QuotedString
