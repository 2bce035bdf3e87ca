import OneShot.Log

/-! # Log filters

A filter is a list of directives. A directive sets the greatest level for the records whose target
begins with its own; the longest target decides, and of equal ones the last. Directives for spans
are understood and select nothing, for nothing is logged inside a span.

* `LogFilter.ofText`       directives that make no sense are passed over
* `LogFilter.ofStrictText?`   they make the whole text useless
* `LogFilter.allows`       whether a record is written
-/

namespace OneShot

/-- One directive. The ceiling is the rank of the least grave level that is written. -/
structure LogDirective where
  target : Option String := none
  ceiling : Nat
  /-- Whether the directive is for spans. -/
  forSpans : Bool := false
  deriving Repr, DecidableEq

/-- The directives in their order. -/
abbrev LogFilter := List LogDirective

namespace LogDirective

/-- The rank of the least grave level. -/
def everything : Nat := LogLevel.trace.rank

/-- The levels by name, and the word that turns all off. -/
def levelNames : List (String × Nat) :=
  [("error", 1), ("warn", 2), ("info", 3), ("debug", 4), ("trace", 5), ("off", 0)]

/-- The number that decimal digits spell, behind an optional plus sign. -/
def number? (s : List Char) : Option Nat :=
  let digits := match s with
    | '+' :: rest => rest
    | _ => s
  if digits ≠ [] ∧ digits.all Char.isDigit then
    some (digits.foldl (fun n d => n * 10 + (d.toNat - '0'.toNat)) 0)
  else none

/-- The ceiling that a word names, by number or by name in any case. -/
def ceiling? (s : List Char) : Option Nat :=
  match (number? s).filter (· ≤ everything) with
  | some n => some n
  | none => levelNames.lookup (String.ofList (s.map Char.toLower))

/-- The ceiling after an equals sign; nothing stands for everything. -/
def ceilingAfterEquals? (s : List Char) : Option Nat :=
  if s = [] then some everything else ceiling? s

/-- The ceiling after the bracket that closes the part for spans. -/
def ceilingAfterSpan? : List Char → Option Nat
  | [] => some everything
  | '=' :: level => ceilingAfterEquals? level
  | _ => none

/-- What follows the bracket that closes the part for spans. -/
def afterSpan? (s : List Char) : Option (List Char) :=
  match s.dropWhile fun c => c != ']' && c != '\x7b' with
  | ']' :: rest => some rest
  | '\x7b' :: fields =>
    match fields.span (· != '\x7d') with
    | ([], _) => none
    | (_, '\x7d' :: ']' :: rest) => some rest
    | _ => none
  | _ => none

/-- Whether a target may start with the character. -/
def startsTarget (c : Char) : Bool :=
  c.isAlphanum || c == '-' || c == ':' || c == '_' || 0x80 ≤ c.toNat

/-- The directive that a text without commas spells. -/
def ofText? (s : List Char) : Option LogDirective :=
  match s with
  | [] => none
  | '[' :: rest =>
    match (afterSpan? rest).bind ceilingAfterSpan? with
    | some ceiling => some { ceiling, forSpans := true }
    | none => none
  | c :: _ =>
    if !startsTarget c then none
    else
      let head := s.takeWhile fun c => c != '=' && c != '['
      match s.drop head.length with
      | [] =>
        match ceiling? head with
        | some ceiling => some { ceiling }
        | none => some { target := some (String.ofList head), ceiling := everything }
      | '=' :: level =>
        match ceilingAfterEquals? level with
        | some ceiling => some { target := some (String.ofList head), ceiling }
        | none => none
      | _ :: rest =>
        match (afterSpan? rest).bind ceilingAfterSpan? with
        | some ceiling => some { target := some (String.ofList head), ceiling, forSpans := true }
        | none => none

/-- Whether the directive concerns records of a target. -/
def concerns (d : LogDirective) (target : String) : Bool :=
  !d.forSpans && match d.target with
    | none => true
    | some start => start.toList.isPrefixOf target.toList

/-- How closely the directive selects. -/
def closeness (d : LogDirective) : Nat :=
  match d.target with
  | none => 0
  | some start => start.utf8ByteSize + 1

end LogDirective

namespace LogFilter

/-- The parts of a text between its commas that are not empty. -/
def parts (text : String) : List (List Char) :=
  (text.toList.splitOn ',').filter (· ≠ [])

/-- A filter without directives writes errors only. -/
def orErrors (ds : List LogDirective) : LogFilter :=
  if ds = [] then [{ ceiling := LogLevel.error.rank }] else ds

/-- The filter that a text describes; what makes no sense is passed over. -/
def ofText (text : String) : LogFilter := orErrors ((parts text).filterMap LogDirective.ofText?)

/-- The filter that a text describes, if all of it makes sense. -/
def ofStrictText? (text : String) : Option LogFilter :=
  ((parts text).mapM LogDirective.ofText?).map orErrors

/-- The directive that decides about a target. -/
def decisive? (f : LogFilter) (target : String) : Option LogDirective :=
  (f.filter (·.concerns target)).foldl (fun best d =>
    match best with
    | none => some d
    | some b => if b.closeness ≤ d.closeness then some d else best) none

/-- Whether a record is written. -/
def allows (f : LogFilter) (r : LogRecord) : Bool :=
  match f.decisive? r.source.target with
  | some d => r.level.rank ≤ d.ceiling
  | none => false

end LogFilter

end OneShot
