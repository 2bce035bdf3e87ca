import OneShot.Toml.Document

/-! # Showing a part of a text

A value that does not fit is shown in its line, with carets below it, between the place and the
reason.

* `excerpt`   the whole message
-/

namespace OneShot.Toml

/-- The characters before a span, and those in it. -/
def Span.split (span : Span) (text : List Char) : List Char × List Char :=
  let before := text.take (text.length - span.start)
  (before, (text.drop before.length).take (span.start - span.stop))

/-- The characters after the last line feed. -/
def lastLine (cs : List Char) : List Char := (cs.reverse.takeWhile (· != '\n')).reverse

/-- The number of bytes of a text. -/
def byteLength (cs : List Char) : Nat := (Utf8.encode cs).length

/-- The place, the line and the carets of a span, with a reason. -/
def excerpt (text : List Char) (span : Span) (reason : String) : String :=
  let (before, inside) := span.split text
  let lineNumber := before.count '\n' + 1
  let start := lastLine before
  let column := start.length
  let line := start ++ (text.drop before.length).takeWhile (· != '\n')
  let carets := max 1 (min (byteLength inside) (byteLength line - column))
  let gutter := (toString lineNumber).length
  let margin := String.ofList (List.replicate (gutter + 1) ' ')
  "TOML parse error at line " ++ toString lineNumber ++ ", column " ++ toString (column + 1) ++
    "\n" ++
    margin ++ "|\n" ++
    toString lineNumber ++ " | " ++ String.ofList line ++ "\n" ++
    margin ++ "|" ++ String.ofList (List.replicate (column + 1) ' ') ++
    String.ofList (List.replicate carets '^') ++ "\n" ++
    reason ++ "\n"

end OneShot.Toml
