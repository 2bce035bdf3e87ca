import OneShot.Cli.Options
import OneShot.Message

/-! # The command line

The program is told where its configuration is, how much to log, and one of three commands: a call,
the reference server, or a look at the configuration.

* `Request.ofWords`   what the words of a command line ask for
-/

namespace OneShot.Cli

/-- The three commands. What is given here stands above the configuration. -/
inductive Command where
  | call (socket : Option Bytes) (framing : Option String) (request : Message) (json : Bool)
  | serve (socket : Option Bytes) (framing replyPrefix : Option String)
  /-- Checks the configuration; shows all of it if `resolved` is set. -/
  | config (resolved : Bool)
  deriving Repr, DecidableEq

/-- A command with what concerns all commands. -/
structure Invocation where
  configPath : Bytes
  verbosity : Nat
  command : Command
  deriving Repr, DecidableEq

/-- What help is asked for. -/
inductive Topic where
  | program
  | call
  | serve
  | config
  | help
  deriving Repr, DecidableEq

/-- What a command line asks for. -/
inductive Request where
  | run (i : Invocation)
  | help (topic : Topic)
  | version
  | misuse
  deriving Repr, DecidableEq

/-- Whether bytes are text. -/
def isText (bs : Bytes) : Bool := (Utf8.decode bs).toOption.isSome

/-- Whether bytes can be a path. -/
def isPath (bs : Bytes) : Bool := !bs.isEmpty

/-- The digits of a number without its sign. -/
def magnitude? (bs : Bytes) : Option Nat :=
  if !bs.isEmpty && bs.all fun b => 0x30 ≤ b && b ≤ 0x39 then
    some (bs.foldl (fun n b => n * 10 + (b.toNat - 0x30)) 0)
  else none

/-- The number that digits spell, behind an optional sign. -/
def integer? (bs : Bytes) : Option Int :=
  match bs with
  | 0x2D :: digits => (magnitude? digits).map fun n => -(n : Int)
  | 0x2B :: digits => (magnitude? digits).map fun n => (n : Int)
  | digits => (magnitude? digits).map fun n => (n : Int)

/-- The identifier that a word spells. -/
def identifier? (bs : Bytes) : Option Int64 :=
  ((integer? bs).filter fun n => -0x8000000000000000 ≤ n ∧ n < 0x8000000000000000).map Int64.ofInt

def helpRule : OptionRule := { long := "help", short := some 'h', kind := .help }

def socketRule : OptionRule :=
  { long := "socket", short := some 's', kind := .value, accepts := isPath }

def framingRule : OptionRule := { long := "framing", kind := .value, accepts := isText }

def programRules : List OptionRule :=
  [{ long := "config", short := some 'c', kind := .value, accepts := isPath },
   { long := "verbose", short := some 'v', kind := .counter },
   helpRule, { long := "version", short := some 'V', kind := .version }]

def callRules : List OptionRule :=
  [socketRule, framingRule,
   { long := "text", short := some 't', kind := .value, accepts := isText },
   { long := "id", kind := .number, accepts := fun bs => (identifier? bs).isSome },
   { long := "json", kind := .flag }, helpRule]

def serveRules : List OptionRule :=
  [socketRule, framingRule, { long := "prefix", kind := .value, accepts := isText }, helpRule]

def configRules : List OptionRule := [{ long := "show", kind := .flag }, helpRule]

/-- The path used where no configuration is named. -/
def standardConfigPath : Bytes := Utf8.encodeString "unixcall.toml"

/-- The text of a call where none is given. -/
def standardText : String := "Hello, server!"

/-- The text given for an option. -/
def textOf? (given : List Given) (name : String) : Option String :=
  (given.lookup name).bind fun bs => (Utf8.decodeString bs).toOption

def callOf (given : List Given) : Command :=
  .call (given.lookup "socket") (textOf? given "framing")
    { text := (textOf? given "text").getD standardText
      id := ((given.lookup "id").bind identifier?).getD 1 }
    (given.lookup "json").isSome

def serveOf (given : List Given) : Command :=
  .serve (given.lookup "socket") (textOf? given "framing") (textOf? given "prefix")

def configOf (given : List Given) : Command := .config (given.lookup "show").isSome

namespace Request

/-- A command, given the options before it and the words after it. -/
def ofCommand (program : List Given) (topic : Topic) (rules : List OptionRule)
    (command : List Given → Command) (words : List Bytes) : Request :=
  match scan rules none [] words with
  | .options given =>
    .run {
      configPath := (program.lookup "config").getD standardConfigPath
      verbosity := program.countP (·.1 == "verbose")
      command := command given }
  | .help => .help topic
  | _ => .misuse

/-- The commands that have help, by name. -/
def topics : List (Bytes × Topic) :=
  [(Utf8.encodeString "call", .call), (Utf8.encodeString "serve", .serve),
   (Utf8.encodeString "config", .config), (Utf8.encodeString "help", .help)]

/-- Help on what the words name. -/
def ofHelp : List Bytes → Request
  | [] => .help .program
  | [word] =>
    match topics.lookup word with
    | some topic => .help topic
    | none => .misuse
  | _ => .misuse

/-- What the words of a command line ask for. -/
def ofWords (words : List Bytes) : Request :=
  match scan programRules none [] words with
  | .command given word rest =>
    match topics.lookup word with
    | some .call => ofCommand given .call callRules callOf rest
    | some .serve => ofCommand given .serve serveRules serveOf rest
    | some .config => ofCommand given .config configRules configOf rest
    | some _ => ofHelp rest
    | none => .misuse
  | .help => .help .program
  | .version => .version
  | _ => .misuse

end Request

end OneShot.Cli
