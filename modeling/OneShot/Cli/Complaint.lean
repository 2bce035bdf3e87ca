import OneShot.Config.Parse
import OneShot.Exchange.Error
import OneShot.Server.Error

/-! # Complaints

What the program says when it gives up: what it wanted, and the chain of causes below that. A single
cause is indented, several are numbered; further lines of a cause line up with its first.
-/

namespace OneShot

/-- What the program says when it gives up. -/
structure Complaint where
  headline : String
  causes : List String := []
  deriving Repr, DecidableEq

namespace Complaint

/-- Puts the beginning in front of a text, and an indentation in front of its further lines. -/
def indented (beginning indentation text : String) : String :=
  beginning ++ String.ofList (text.toList.flatMap fun c =>
    if c = '\n' then '\n' :: indentation.toList else [c])

/-- The number of a cause, right-aligned. -/
def numeral (n : Nat) : String :=
  let digits := toString n
  String.ofList (List.replicate (5 - digits.length) ' ') ++ digits

/-- The numbered lines of several causes. -/
def numbered (n : Nat) : List String → String
  | [] => ""
  | cause :: rest =>
    "\n" ++ indented (numeral n ++ ": ") "       " cause ++ numbered (n + 1) rest

/-- The text of the complaint. -/
def text (c : Complaint) : String :=
  "Error: " ++ c.headline ++
    match c.causes with
    | [] => ""
    | [cause] => "\n\nCaused by:\n" ++ indented "    " "    " cause
    | causes => "\n\nCaused by:" ++ numbered 0 causes

end Complaint

/-- What a malformed document is said to be. -/
def Config.malformedText : String := "TOML parse error: the document is malformed\n"

/-- The causes of an unusable configuration. -/
def ConfigError.causes (e : ConfigError) : List String :=
  match e with
  | .unreadable failure => [e.message, failure.message]
  | .malformed => [e.message ++ Config.malformedText, Config.malformedText]
  | .misfit excerpt => [e.message, excerpt]
  | .invalid _ => [e.message]

/-- The causes of a failed call. -/
def ExchangeError.causes (e : ExchangeError) : List String := e.message :: e.reason?.toList

/-- The causes of a failed start of the server. -/
def ServerError.causes (e : ServerError) : List String :=
  match e with
  | .bind _ failure | .io failure => [e.message, failure.message]
  | .malformed error => [e.message, error.message]
  | .silent _ => [e.message]

end OneShot
