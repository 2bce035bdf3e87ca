import OneShot.Json.Fault
import OneShot.Number.Shortest

/-! # TOML documents

A document is a tree of items. Every item knows the part of the text that it comes from, so that a
value that does not fit can be shown where it stands.

* `Item.found`   what an item is when something else was wanted
* `Item.within`  whether all its numbers lie in given bounds
-/

namespace OneShot.Toml

/-- A part of a text, by the number of characters from its start and from its end to the end of the
whole text. -/
structure Span where
  start : Nat
  stop : Nat
  deriving Repr, DecidableEq

/-- One part of a dotted name. -/
structure Key where
  name : String
  span : Span
  deriving Repr, DecidableEq

/-- A floating-point number. -/
inductive Real where
  | finite (x : Number.Double)
  | infinite (negative : Bool)
  | notANumber
  /-- A number that no double can hold. -/
  | tooLarge
  deriving Repr, DecidableEq

/-- The spelling of a number in messages. -/
def Real.text : Real → String
  | .finite x => x.plainText
  | .infinite negative => if negative then "-inf" else "inf"
  | .notANumber => "NaN"
  | .tooLarge => "inf"

/-- How a table came to be. -/
inductive Origin where
  /-- Named only as a part of a longer header. -/
  | implied
  /-- Named by its own header. -/
  | header
  /-- Named by a dotted key. -/
  | dotted
  /-- Written between braces. -/
  | braces
  deriving Repr, DecidableEq

/-- A value, table or list of tables. -/
inductive Item where
  | string (span : Span) (s : String)
  | integer (span : Span) (n : Int)
  | real (span : Span) (x : Real)
  | boolean (span : Span) (b : Bool)
  | dateTime (span : Span)
  | array (span : Span) (items : List Item)
  | table (span : Span) (origin : Origin) (entries : List (String × Item))
  /-- Tables with one and the same header in double brackets. -/
  | tables (span : Span) (items : List Item)

/-- The entries of a table, in the order in which they were added. -/
abbrev Entries := List (String × Item)

namespace Item

/-- Where an item stands. -/
def span : Item → Span
  | string s _ | integer s _ | real s _ | boolean s _ | dateTime s | array s _ | table s _ _
  | tables s _ => s

/-- What an item is when something else was wanted. A date or time counts as a table. -/
def found : Item → Found
  | string _ s => .string s
  | integer _ n => .integer n
  | real _ x => .float x.text
  | boolean _ b => .boolean b
  | dateTime _ => .map
  | array _ _ => .sequence
  | table _ _ _ => .map
  | tables _ _ => .sequence

mutual

/-- Whether every integer inside lies in `low..high` and every other number can be held. -/
def within (low high : Int) : Item → Bool
  | integer _ n => low ≤ n && n ≤ high
  | real _ x => x != .tooLarge
  | array _ items | tables _ items => allWithin low high items
  | table _ _ entries => entriesWithin low high entries
  | _ => true

def allWithin (low high : Int) : List Item → Bool
  | [] => true
  | item :: items => within low high item && allWithin low high items

def entriesWithin (low high : Int) : List (String × Item) → Bool
  | [] => true
  | (_, item) :: entries => within low high item && entriesWithin low high entries

end

/-- Whether all integers are signed ones of 64 bits, as plain documents have them. -/
def isPlain (item : Item) : Bool := item.within (-0x8000000000000000) 0x7FFFFFFFFFFFFFFF

/-- Whether all numbers can be read at all, in up to 128 bits. -/
def isReadable (item : Item) : Bool :=
  item.within (-0x80000000000000000000000000000000) 0xFFFFFFFFFFFFFFFFFFFFFFFFFFFFFFFF

end Item

/-- The entry with a name. -/
def Entries.get? (es : Entries) (name : String) : Option Item := es.lookup name

/-- Replaces the entry with a name, or adds it at the end. -/
def Entries.set (name : String) (item : Item) : Entries → Entries
  | [] => [(name, item)]
  | (n, old) :: es => if n = name then (n, item) :: es else (n, old) :: Entries.set name item es

end OneShot.Toml
