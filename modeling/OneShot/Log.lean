/-! # Log records

What is logged says how grave it is and which part of the program it comes from.
-/

namespace OneShot

/-- How grave a record is, from the gravest on. -/
inductive LogLevel where
  | error
  | warn
  | info
  | debug
  | trace
  deriving Repr, DecidableEq

namespace LogLevel

def name : LogLevel → String
  | .error => "ERROR"
  | .warn => "WARN"
  | .info => "INFO"
  | .debug => "DEBUG"
  | .trace => "TRACE"

/-- The place in the order, the gravest first. -/
def rank : LogLevel → Nat
  | .error => 1
  | .warn => 2
  | .info => 3
  | .debug => 4
  | .trace => 5

end LogLevel

/-- The part of the program that a record comes from. -/
inductive LogSource where
  | program
  | connection
  | client
  | server
  deriving Repr, DecidableEq

/-- The name by which filters select records. -/
def LogSource.target : LogSource → String
  | .program => "unixcall"
  | .connection => "unixcall_core::exchange::connection"
  | .client => "unixcall_core::exchange::client"
  | .server => "unixcall_core::exchange::server"

/-- A record. -/
structure LogRecord where
  level : LogLevel
  source : LogSource
  deriving Repr, DecidableEq

/-- The line of a record. -/
def LogRecord.line (r : LogRecord) : String := r.level.name ++ " " ++ r.source.target

end OneShot
