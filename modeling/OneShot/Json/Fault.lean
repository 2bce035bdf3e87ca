import OneShot.Text.Quoted
import OneShot.Text.Utf8

/-! # What can be wrong with a JSON text

A parser stops with a `Fault`: the cause, and the bytes that were not yet read when it was found.
The place of the fault in the whole text follows from these, see `Fault.locate`.

* `Cause.category`  tells an unfinished text from a malformed one and from a misfit
* `Cause.message`   the wording
-/

namespace OneShot

/-- The kind of value met where another was wanted. -/
inductive Found where
  | null
  | boolean (b : Bool)
  | integer (n : Int)
  /-- A floating-point number, by its text. -/
  | float (text : String)
  | string (s : String)
  | sequence
  | map
  deriving Repr, DecidableEq

/-- The wording of a kind of value. -/
def Found.describe : Found → String
  | .null => "null"
  | .boolean b => "boolean `" ++ (if b then "true" else "false") ++ "`"
  | .integer n => "integer `" ++ toString n ++ "`"
  | .float text => "floating point `" ++ text ++ "`"
  | .string s => "string " ++ Text.quote s
  | .sequence => "sequence"
  | .map => "map"

/-- A well-formed text whose value does not fit. -/
inductive Misfit where
  | wrongType (found : Found) (expected : String)
  | wrongValue (found : Found) (expected : String)
  | wrongLength (length : Nat) (expected : String)
  | duplicate (field : String)
  | missing (field : String)
  deriving Repr, DecidableEq

/-- The wording of a misfit. -/
def Misfit.message : Misfit → String
  | .wrongType found expected => "invalid type: " ++ found.describe ++ ", expected " ++ expected
  | .wrongValue found expected => "invalid value: " ++ found.describe ++ ", expected " ++ expected
  | .wrongLength n expected => "invalid length " ++ toString n ++ ", expected " ++ expected
  | .duplicate field => "duplicate field `" ++ field ++ "`"
  | .missing field => "missing field `" ++ field ++ "`"

namespace Json

/-- Why a JSON text is rejected. -/
inductive Cause where
  | endInList
  | endInObject
  | endInString
  | endInValue
  | expectedColon
  | expectedListCommaOrEnd
  | expectedObjectCommaOrEnd
  | expectedLiteral
  | expectedValue
  | invalidEscape
  | invalidNumber
  | numberOutOfRange
  | invalidCodePoint
  | controlCharacter
  | keyNotString
  | loneSurrogate
  | trailingComma
  | trailingCharacters
  | unfinishedSurrogatePair
  | misfit (m : Misfit)
  deriving Repr, DecidableEq

/-- The classes of causes. -/
inductive Category where
  /-- The text ended too early. -/
  | unfinished
  /-- No continuation can mend the text. -/
  | malformed
  /-- The text is well formed, its value does not fit. -/
  | misfit
  deriving Repr, DecidableEq

def Cause.category : Cause → Category
  | .endInList | .endInObject | .endInString | .endInValue => .unfinished
  | .misfit _ => .misfit
  | _ => .malformed

/-- The wording of a cause, without its place. -/
def Cause.message : Cause → String
  | .endInList => "EOF while parsing a list"
  | .endInObject => "EOF while parsing an object"
  | .endInString => "EOF while parsing a string"
  | .endInValue => "EOF while parsing a value"
  | .expectedColon => "expected `:`"
  | .expectedListCommaOrEnd => "expected `,` or `]`"
  | .expectedObjectCommaOrEnd => "expected `,` or `\x7d`"
  | .expectedLiteral => "expected ident"
  | .expectedValue => "expected value"
  | .invalidEscape => "invalid escape"
  | .invalidNumber => "invalid number"
  | .numberOutOfRange => "number out of range"
  | .invalidCodePoint => "invalid unicode code point"
  | .controlCharacter => "control character (\\u0000-\\u001F) found while parsing a string"
  | .keyNotString => "key must be a string"
  | .loneSurrogate => "lone leading surrogate in hex escape"
  | .trailingComma => "trailing comma"
  | .trailingCharacters => "trailing characters"
  | .unfinishedSurrogatePair => "unexpected end of hex escape"
  | .misfit m => m.message

/-- A cause and the bytes that stood unread when it was found. The place of an ill-formed
character lies `back` bytes before them. -/
structure Fault where
  cause : Cause
  rest : Bytes
  back : Nat := 0
  deriving Repr, DecidableEq

/-- What parsers return: a value and the bytes after it. -/
abbrev Result (α : Type) := Except Fault (α × Bytes)

/-- A fault at the next byte, which counts as read. -/
def faultAtNext (cause : Cause) (rest : Bytes) : Fault := ⟨cause, rest.drop 1, 0⟩

/-- A cause and its place: lines count from 1, a column is the number of bytes read on the line. -/
structure Error where
  cause : Cause
  line : Nat
  column : Nat
  deriving Repr, DecidableEq

def newline : UInt8 := 0x0A

/-- The number of bytes after the last newline. -/
def columnAfter (read : Bytes) : Nat := (read.reverse.takeWhile (· != newline)).length

/-- The place of a fault in the whole text. -/
def Fault.locate (text : Bytes) (f : Fault) : Error :=
  let read := text.take (text.length - f.rest.length)
  { cause := f.cause
    line := 1 + read.count newline
    column := columnAfter read - f.back }

/-- The wording of an error. -/
def Error.message (e : Error) : String :=
  e.cause.message ++ " at line " ++ toString e.line ++ " column " ++ toString e.column

end Json

end OneShot
