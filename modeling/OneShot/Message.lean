import OneShot.Json.Numeral
import OneShot.Json.StringBody

/-! # Messages

The record that travels in both directions of a call: a text and a number chosen by the caller.

* `Message.encode`    the payload on the wire, a JSON object without white space
* `Message.summary`   the line printed for people
* `Message.reply`     the answer of the reference server
-/

namespace OneShot

/-- A text and an identifier. -/
structure Message where
  text : String
  id : Int64
  deriving Repr, DecidableEq

namespace Message

/-- The bytes from the opening brace to the quote before the text. -/
def opening : Bytes := [0x7B, 0x22, 0x74, 0x65, 0x78, 0x74, 0x22, 0x3A, 0x22]

/-- The bytes from the quote after the text to the identifier. -/
def middle : Bytes := [0x22, 0x2C, 0x22, 0x69, 0x64, 0x22, 0x3A]

/-- The payload: an object with the members `text` and `id` in this order. -/
def encode (m : Message) : Bytes :=
  opening ++ Json.StringBody.encode m.text.toList ++ middle ++ Json.Numeral.encode m.id.toInt ++
    [Json.closeBrace]

/-- The line printed for people, with the text quoted. -/
def summary (m : Message) : String :=
  "\x7btext: " ++ Text.quote m.text ++ ", id: " ++ toString m.id.toInt ++ "\x7d"

/-- The answer to a request: its text behind a fixed beginning, its identifier unchanged. -/
def reply (start : String) (request : Message) : Message :=
  { text := start ++ request.text, id := request.id }

end Message

end OneShot
