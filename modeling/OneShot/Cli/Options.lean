import OneShot.Text.Utf8

/-! # Command-line options

The words of a command line are options, their values, and other words. `--name value`,
`--name=value`, `-n value`, `-nvalue` and `-n=value` are alike; short flags may share a dash. A word
that begins with a dash is a value only behind an equals sign, or as a number where one is expected.

* `scan`   the options of a command line, up to the first other word
-/

namespace OneShot.Cli

/-- What an option asks for. -/
inductive OptionKind where
  /-- Present or not, at most once. -/
  | flag
  /-- Counts how often it is given. -/
  | counter
  /-- A value, at most once. -/
  | value
  /-- A value, at most once, that may be a negative number. -/
  | number
  | help
  | version
  deriving Repr, DecidableEq

/-- One option of a command. -/
structure OptionRule where
  long : String
  short : Option Char := none
  kind : OptionKind
  /-- The values that are taken. -/
  accepts : Bytes → Bool := fun _ => true

/-- An option as it was given, with its value, empty for flags. -/
abbrev Given := String × Bytes

/-- What a word says. -/
inductive Token where
  | given (rule : OptionRule) (value : Bytes)
  /-- The value of the option is the next word. -/
  | awaits (rule : OptionRule)
  | unknown

/-- What a scan of the words comes to. -/
inductive Scanned where
  | options (given : List Given)
  /-- The options before the first other word, that word, and the words after it. -/
  | command (given : List Given) (word : Bytes) (rest : List Bytes)
  | help
  | version
  | misuse

def dash : UInt8 := 0x2D
def equals : UInt8 := 0x3D

/-- The word that ends the options. -/
def terminator : Bytes := [dash, dash]

/-- Whether a word begins as options do. -/
def isOption (word : Bytes) : Bool := word.head? == some dash && word != [dash]

def OptionKind.takesValue : OptionKind → Bool
  | .value | .number => true
  | _ => false

/-- Whether digits spell a number that can stand as a value behind a dash: digits with at most one
point, not in front, and at most one exponent, which is not empty. -/
def isNumeral (bs : Bytes) : Bool :=
  go 0 false none bs
where
  /-- From the byte at `i` on, given whether a point was seen and where the exponent began. -/
  go (i : Nat) (point : Bool) (exponent : Option Nat) : Bytes → Bool
    | [] => exponent != some (i - 1)
    | b :: bs =>
      if 0x30 ≤ b && b ≤ 0x39 then go (i + 1) point exponent bs
      else if b == 0x2E && !point && exponent.isNone && 0 < i then go (i + 1) true exponent bs
      else if b == 0x65 && exponent.isNone && 0 < i then go (i + 1) point (some i) bs
      else false

/-- Whether the word may be the value of an option that awaits one. -/
def OptionRule.mayTake (rule : OptionRule) (word : Bytes) : Bool :=
  !isOption word || (rule.kind == .number && isNumeral (word.drop 1))

/-- The word `--name` or `--name=value`, without its dashes. -/
def longToken (rules : List OptionRule) (body : Bytes) : Token :=
  let name := body.takeWhile (· != equals)
  match rules.find? fun r => Utf8.encodeString r.long == name, body.drop name.length with
  | none, _ => .unknown
  | some rule, [] => if rule.kind.takesValue then .awaits rule else .given rule []
  | some rule, _ :: value => if rule.kind.takesValue then .given rule value else .unknown

/-- The short options of a word, without their dash. -/
def shortTokens (rules : List OptionRule) : Bytes → List Token
  | [] => []
  | b :: bs =>
    match rules.find? fun r => r.short.any fun c => c.toNat == b.toNat with
    | none => [.unknown]
    | some rule =>
      if rule.kind.takesValue then
        match bs with
        | [] => [.awaits rule]
        | v :: value => [.given rule (if v == equals then value else v :: value)]
      else .given rule [] :: shortTokens rules bs

/-- What an option word says. -/
def tokens (rules : List OptionRule) (word : Bytes) : List Token :=
  if terminator.isPrefixOf word then [longToken rules (word.drop 2)]
  else shortTokens rules (word.drop 1)

/-- What the options so far come to. -/
inductive Progress where
  | more (given : List Given) (awaiting : Option OptionRule)
  | stop (s : Scanned)

/-- Adds an option to those given. -/
def add (rule : OptionRule) (value : Bytes) (given : List Given) : Progress :=
  match rule.kind with
  | .help => .stop .help
  | .version => .stop .version
  | .counter => .more (given ++ [(rule.long, value)]) none
  | _ =>
    if given.any (·.1 == rule.long) || !rule.accepts value then .stop .misuse
    else .more (given ++ [(rule.long, value)]) none

/-- Adds what a word says. -/
def addAll (given : List Given) : List Token → Progress
  | [] => .more given none
  | .unknown :: _ => .stop .misuse
  | .awaits rule :: _ => .more given (some rule)
  | .given rule value :: rest =>
    match add rule value given with
    | .more given _ => addAll given rest
    | stop => stop

/-- Scans the words; an option that awaits its value takes the first of them. -/
def scan (rules : List OptionRule) : Option OptionRule → List Given → List Bytes → Scanned
  | none, given, [] => .options given
  | some _, _, [] => .misuse
  | some rule, given, word :: rest =>
    if rule.mayTake word then
      match add rule word given with
      | .more given awaiting => scan rules awaiting given rest
      | .stop s => s
    else .misuse
  | none, given, word :: rest =>
    if word == terminator then (if rest.isEmpty then .options given else .misuse)
    else if isOption word then
      match addAll given (tokens rules word) with
      | .more given awaiting => scan rules awaiting given rest
      | .stop s => s
    else .command given word rest

end OneShot.Cli
