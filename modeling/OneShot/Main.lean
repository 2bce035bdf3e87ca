import OneShot.Cli.Help
import OneShot.Cli.Plan
import OneShot.Log.Trail

/-! # The program

Reads the command line, the environment and the configuration file, and does what the plan says.
Local sockets are out of reach from here, so that calls and servers end with a complaint about that.
-/

namespace OneShot.Main

/-- The failure of everything that needs a socket. -/
def noSockets : Failure := ⟨.unsupported, "local sockets are not supported"⟩

/-- What a call meets where there are no sockets. -/
def surroundings : Surroundings where
  attempt := [(0, .done (.error noSockets))]
  writer := ⟨fun _ => .fails noSockets, .error noSockets⟩
  course := []

/-- What a plan comes to: the bytes to print or a complaint, and the records on the way. -/
def perform : Cli.Plan → Except Complaint Bytes × List LogRecord
  | .print text => (.ok (Utf8.encodeString text), [])
  | .call client request json =>
    let outcome := (client.call surroundings request).outcome
    let log := ⟨.info, .program⟩ :: outcome.trail
    match outcome with
    | .ok reply => (.ok (Cli.replyLine json reply), log)
    | .error e => (.error (Cli.callComplaint client.path e), log)
    | .waiting => (.ok [], log)
  | .serve path _ => (.error (Cli.serveComplaint (.bind path noSockets)), [])

/-- Writes bytes. -/
def put (stream : IO.FS.Stream) (bytes : Bytes) : IO Unit := do
  stream.write ⟨bytes.toArray⟩
  stream.flush

/-- Prints a complaint. -/
def complain (c : Complaint) : IO UInt32 := do
  put (← IO.getStderr) (Utf8.encodeString (c.text ++ "\n"))
  return 1

/-- The file at a path, if something is there. -/
def load (path : Bytes) : IO (Bool × Except Failure Bytes) := do
  let name := pathText path
  try
    let bytes ← IO.FS.readBinFile name
    return (true, .ok bytes.toList)
  catch
    | .noFileOrDirectory .. => return (false, .error SystemError.noSuchFile.failure)
    | .inappropriateType .. => return (true, .error SystemError.isADirectory.failure)
    | e => return (true, .error ⟨.other, toString e⟩)

/-- Does what an invocation asks for. -/
def run (i : Cli.Invocation) : IO UInt32 := do
  let (found, file) ← load i.configPath
  match Cli.loadConfig i.configPath found file with
  | .error c => complain c
  | .ok config =>
    let filter := Cli.logFilter (← IO.getEnv "RUST_LOG") i.verbosity config
    let (result, log) :=
      match i.plan found config with
      | .ok plan => perform plan
      | .error c => (.error c, [])
    let records := (⟨.debug, .program⟩ :: log).filter filter.allows
    put (← IO.getStderr) (Utf8.encodeString (String.join (records.map fun r => r.line ++ "\n")))
    match result with
    | .ok bytes =>
      put (← IO.getStdout) bytes
      return 0
    | .error c => complain c

end OneShot.Main

def main (words : List String) : IO UInt32 := do
  match OneShot.Cli.Request.ofWords (words.map OneShot.Utf8.encodeString) with
  | .run i => OneShot.Main.run i
  | .help topic =>
    IO.print topic.text
    return 0
  | .version =>
    IO.print OneShot.Cli.versionText
    return 0
  | .misuse =>
    IO.eprint OneShot.Cli.Topic.program.text
    return 2
