import OneShot.Cli.Arguments
import OneShot.Cli.Complaint
import OneShot.Config.Render
import OneShot.Exchange.Call
import OneShot.Log.Filter
import OneShot.Options

/-! # From the command line to what is done

The configuration is loaded, what the command line says stands above it, and what is to be done
follows; nothing is opened before that.

* `loadConfig`            the configuration at a path
* `ClientConfig.override`, `ServerConfig.override`   the command line above a section
* `Invocation.plan`       what is to be done
-/

namespace OneShot

/-- The text of a socket path; sections hold paths as text. -/
def socketText (path : Bytes) : Except Complaint String :=
  match Utf8.decodeString path with
  | .ok text => .ok text
  | .error _ => .error { headline := "socket path " ++ pathText path ++ " is not valid UTF-8" }

/-- The text of a socket path that is given, or else the one of the section. -/
def socketOr (standard : String) : Option Bytes → Except Complaint String
  | some path => socketText path
  | none => .ok standard

/-- The section with what is given above it. -/
def ClientConfig.override (c : ClientConfig) (socket : Option Bytes) (framing : Option String) :
    Except Complaint ClientConfig :=
  match socketOr c.socketPath socket with
  | .ok socketPath => .ok { c with socketPath, framing := framing.getD c.framing }
  | .error e => .error e

/-- The section with what is given above it. -/
def ServerConfig.override (c : ServerConfig) (socket : Option Bytes)
    (framing replyPrefix : Option String) : Except Complaint ServerConfig :=
  match socketOr c.socketPath socket with
  | .ok socketPath =>
    .ok { c with socketPath, framing := framing.getD c.framing,
                 replyPrefix := replyPrefix.getD c.replyPrefix }
  | .error e => .error e

namespace Cli

/-- The configuration at a path, if something is there, and else the standard one. -/
def loadConfig (path : Bytes) (found : Bool) (file : Except Failure Bytes) :
    Except Complaint Config :=
  if !found then .ok {}
  else
    match Config.load file with
    | .ok config => .ok config
    | .error e =>
      .error { headline := "invalid configuration at '" ++ pathText path ++ "'",
               causes := e.causes }

/-- What is to be done. -/
inductive Plan where
  | print (text : String)
  | call (client : Client) (request : Message) (json : Bool)
  | serve (path : Bytes) (options : ServerOptions)

/-- The complaint about a framing that nobody knows. -/
def complaintOf (e : UnknownFraming) : Complaint := { headline := e.message }

/-- The plan of a call. -/
def planCall (c : ClientConfig) (request : Message) (json : Bool) : Except Complaint Plan :=
  match Client.ofConfig c with
  | .ok client => .ok (.call client request json)
  | .error e => .error (complaintOf e)

/-- The plan of a server. -/
def planServe (c : ServerConfig) : Except Complaint Plan :=
  match c.options with
  | .ok options => .ok (.serve (Utf8.encodeString c.socketPath) options)
  | .error e => .error (complaintOf e)

/-- What is said about a configuration. -/
def verdict (path : Bytes) (found : Bool) : String :=
  if found then "Configuration at '" ++ pathText path ++ "' is valid.\n"
  else "No configuration at '" ++ pathText path ++ "'; defaults are in effect.\n"

/-- What is to be done under a configuration. -/
def Invocation.plan (i : Invocation) (found : Bool) (config : Config) : Except Complaint Plan :=
  match i.command with
  | .call socket framing request json =>
    match config.client.override socket framing with
    | .ok c => planCall c request json
    | .error e => .error e
  | .serve socket framing replyPrefix =>
    match config.server.override socket framing replyPrefix with
    | .ok c => planServe c
    | .error e => .error e
  | .config resolved =>
    .ok (.print (if resolved then config.render ++ "\n" else verdict i.configPath found))

/-- What is printed for a reply. -/
def replyLine (json : Bool) (reply : Message) : Bytes :=
  if json then reply.encode ++ [0x0A]
  else Utf8.encodeString ("Received response: " ++ reply.summary ++ "\n")

/-- The complaint about a call that failed. -/
def callComplaint (path : Bytes) (e : ExchangeError) : Complaint :=
  { headline := "call to " ++ pathText path ++ " failed", causes := e.causes }

/-- The complaint about a server that failed. -/
def serveComplaint (e : ServerError) : Complaint :=
  { headline := "server failed", causes := e.causes }

/-- The filter for log records: the environment decides, if it makes sense, then the command line,
then the configuration. -/
def logFilter (environment : Option String) (verbosity : Nat) (config : Config) : LogFilter :=
  match environment.bind LogFilter.ofStrictText? with
  | some filter => filter
  | none =>
    LogFilter.ofText (match verbosity with
      | 0 => config.logging.level
      | 1 => "debug"
      | _ => "trace")

end Cli

end OneShot
