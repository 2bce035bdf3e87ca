import OneShot.Toml.QuotedString
import OneShot.Toml.Scalar
import OneShot.Toml.Table

/-! # Reading a document

Readers take text from the front and return what follows. A document is read line by line. Values
nest in brackets and braces, up to a fixed depth. Which rule a malformed document breaks is not
recorded.

* `read?`   the root table of a text
-/

namespace OneShot.Toml

/-- The part of the text between two points, given what follows each of them. -/
def Span.between (start stop : List Char) : Span := ⟨start.length, stop.length⟩

/-- What follows the spaces and tabs at the front. -/
def skipBlanks (cs : List Char) : List Char := cs.dropWhile QuotedString.isSpaceOrTab

/-- A character that may stand in a comment. -/
def isCommentChar (c : Char) : Bool := !QuotedString.isForbidden c

/-- What follows a comment at the front, if there is one: the end of its line. -/
def skipComment : List Char → List Char
  | '#' :: cs => cs.dropWhile isCommentChar
  | cs => cs

/-- What follows the rest of a line that holds nothing more but blanks and a comment. -/
def endOfLine? (cs : List Char) : Option (List Char) :=
  match skipComment (skipBlanks cs) with
  | [] => some []
  | cs => QuotedString.afterLineBreak? cs

/-- What follows blanks, comments and line breaks, at most `fuel` lines of them. -/
def skipLines : (fuel : Nat) → List Char → List Char
  | 0, cs => cs
  | fuel + 1, cs =>
    let rest := skipComment (skipBlanks cs)
    match QuotedString.afterLineBreak? rest with
    | some rest => skipLines fuel rest
    | none => rest

/-- What follows blanks, comments and line breaks. -/
def skipSpace (cs : List Char) : List Char := skipLines cs.length cs

def isBareKeyChar (c : Char) : Bool := c.isAlphanum || c == '_' || c == '-'

/-- One part of a key: a bare word or a string. -/
def simpleKey? (cs : List Char) : Option (Key × List Char) :=
  match cs with
  | '"' :: _ | '\'' :: _ =>
    (QuotedString.readSingle? cs).map fun (name, rest) => (⟨name, .between cs rest⟩, rest)
  | _ =>
    match cs.takeWhile isBareKeyChar with
    | [] => none
    | word =>
      let rest := cs.drop word.length
      some (⟨String.ofList word, .between cs rest⟩, rest)

/-- A key of one or more parts with points between them, at most `fuel`, and the blanks after it. -/
def keyParts? : (fuel : Nat) → List Char → Option (List Key × List Char)
  | 0, _ => none
  | fuel + 1, cs => do
    let (k, rest) ← simpleKey? cs
    match skipBlanks rest with
    | '.' :: rest =>
      let (ks, rest) ← keyParts? fuel (skipBlanks rest)
      some (k :: ks, rest)
    | rest => some ([k], rest)

/-- How deep values may nest, in brackets and braces or below a dotted key. -/
def greatestDepth : Nat := 80

/-- A dotted key and the blanks after it. -/
def key? (cs : List Char) : Option (List Key × List Char) :=
  (keyParts? cs.length cs).filter fun (path, _) => path.dropLast.length < greatestDepth

/-- The part of a key line up to its value. -/
def keyAndEquals? (cs : List Char) : Option (List Key × List Char) := do
  let (path, rest) ← key? cs
  match rest with
  | '=' :: rest => some (path, skipBlanks rest)
  | _ => none

/-- A value without quotes or brackets. A date and a time may have a space between them. -/
def scalar? (cs : List Char) : Option (Item × List Char) := do
  let run := cs.takeWhile Scalar.isScalarChar
  let rest := cs.drop run.length
  let (run, rest) :=
    match Scalar.isDate run, rest with
    | true, ' ' :: d :: more =>
      if d.isDigit then
        let time := (d :: more).takeWhile Scalar.isScalarChar
        (run ++ ' ' :: time, (d :: more).drop time.length)
      else (run, rest)
    | _, _ => (run, rest)
  let span := Span.between cs rest
  match ← Scalar.read? run with
  | .integer n => some (.integer span n, rest)
  | .real x => some (.real span x, rest)
  | .boolean b => some (.boolean span b, rest)
  | .dateTime => some (.dateTime span, rest)

mutual

/-- A value, with at most `depth` levels of brackets and braces; every call uses up `fuel`. -/
def value? (fuel depth : Nat) (cs : List Char) : Option (Item × List Char) :=
  match fuel with
  | 0 => none
  | fuel + 1 =>
    match cs with
    | '"' :: _ | '\'' :: _ =>
      (QuotedString.read? cs).map fun (s, rest) => (.string (.between cs rest) s, rest)
    | '[' :: inner =>
      if depth = 0 then none
      else
        match elements? fuel (depth - 1) (skipSpace inner) with
        | some (items, rest) => some (.array (.between cs rest) items, rest)
        | none => none
    | '{' :: inner =>
      if depth = 0 then none
      else
        match bracedLines? fuel (depth - 1) [] (skipSpace inner) with
        | some (entries, rest) => some (.table (.between cs rest) .braces entries, rest)
        | none => none
    | cs => scalar? cs

/-- The elements up to the closing bracket. -/
def elements? (fuel depth : Nat) (cs : List Char) : Option (List Item × List Char) :=
  match fuel with
  | 0 => none
  | fuel + 1 =>
    match cs with
    | ']' :: rest => some ([], rest)
    | cs =>
      match value? fuel depth cs with
      | none => none
      | some (item, rest) =>
        match skipSpace rest with
        | ',' :: rest =>
          match elements? fuel depth (skipSpace rest) with
          | some (items, rest) => some (item :: items, rest)
          | none => none
        | ']' :: rest => some ([item], rest)
        | _ => none

/-- The lines up to the closing brace, added to `entries`. -/
def bracedLines? (fuel depth : Nat) (entries : Entries) (cs : List Char) :
    Option (Entries × List Char) :=
  match fuel with
  | 0 => none
  | fuel + 1 =>
    match cs with
    | '}' :: rest => some (entries, rest)
    | cs =>
      match keyAndEquals? cs with
      | none => none
      | some (path, rest) =>
        match value? fuel depth rest with
        | none => none
        | some (item, rest) =>
          match entries.addLine? path item with
          | none => none
          | some entries =>
            match skipSpace rest with
            | ',' :: rest => bracedLines? fuel depth entries (skipSpace rest)
            | '}' :: rest => some (entries, rest)
            | _ => none

end

/-- A value of any depth allowed. -/
def topValue? (cs : List Char) : Option (Item × List Char) :=
  value? (2 * cs.length + 2) greatestDepth cs

/-- A header, from its opening bracket on. -/
def header? (cs : List Char) : Option (Header × List Char) := do
  match cs with
  | '[' :: '[' :: inner =>
    let (path, rest) ← key? (skipBlanks inner)
    match rest with
    | ']' :: ']' :: rest => some (⟨path, true, .between cs rest⟩, rest)
    | _ => none
  | '[' :: inner =>
    let (path, rest) ← key? (skipBlanks inner)
    match rest with
    | ']' :: rest => some (⟨path, false, .between cs rest⟩, rest)
    | _ => none
  | _ => none

/-- One line that is not blank, added to the document. -/
def line? (d : Draft) (cs : List Char) : Option (Draft × List Char) := do
  match cs with
  | '[' :: _ =>
    let (h, rest) ← header? cs
    let d ← d.open? h
    some (d, rest)
  | cs =>
    let (path, rest) ← keyAndEquals? cs
    let (item, rest) ← topValue? rest
    let d ← d.addLine? path item
    some (d, rest)

/-- All lines, at most `fuel`. -/
def lines? : (fuel : Nat) → Draft → List Char → Option Draft
  | 0, _, _ => none
  | fuel + 1, d, cs =>
    match skipSpace cs with
    | [] => some d
    | cs => do
      let (d, rest) ← line? d cs
      lines? fuel d (← endOfLine? rest)

/-- The text without a byte order mark. -/
def dropMark (cs : List Char) : List Char :=
  match cs with
  | c :: rest => if c.toNat = 0xFEFF then rest else cs
  | [] => []

/-- The root table of a text, `none` if the text is malformed. -/
def read? (text : List Char) : Option Entries := do
  let cs := dropMark text
  let d ← lines? (cs.length + 1) {} cs
  d.close?

end OneShot.Toml
