import OneShot.Cli.Help
import OneShot.Cli.Plan
import OneShot.Log.Trail
import OneShot.Rehearsal.Service

/-! # Rehearsing the program

A run of the whole program with a given command line, in a working directory that holds a
configuration and the socket of a scripted peer. The peer takes one connection, reads the request,
writes and closes, or keeps the connection until the program is told to stop. The server is sent
requests, each over a connection of its own, and is told to stop after the last.

* `Transcript`       what a run leaves behind
* `rehearseUnder`    a run from where the configuration is known
* `rehearse`         a whole run
-/

namespace OneShot

/-- What is around the program. -/
structure ProgramScene where
  /-- The name and the content of a file. -/
  configFile : Option (Bytes × Bytes) := none
  /-- The filter that the environment asks for. -/
  logDirectives : Option String := none
  /-- What the peer writes, if there is one. -/
  peer : Option Bytes := none
  /-- Whether the peer keeps the connection until the program is told to stop. -/
  keeps : Bool := false
  requests : List Bytes := []

/-- What a run leaves behind. -/
structure Transcript where
  exitCode : Nat
  output : Bytes := []
  log : List LogRecord := []
  complaint : Option Complaint := none
  /-- Whether a connection to the peer was opened. -/
  reached : Bool := false
  /-- What the peer has read. -/
  sent : Bytes := []
  /-- What came back for each request. -/
  replies : List Bytes := []
  /-- The working directory afterwards. -/
  files : FileSystem

namespace ProgramScene

/-- The path of the peer. -/
def peerPath : Bytes := Target.bytes "peer.sock"

/-- The working directory. -/
def files (s : ProgramScene) : FileSystem :=
  let configured : FileSystem :=
    match s.configFile with
    | some (name, content) => ({} : FileSystem).insert [name] (.file content)
    | none => {}
  if s.peer.isSome then configured.insert [peerPath] (.socket (some 0)) else configured

/-- What happens to a call while it waits for the reply. -/
def course (s : ProgramScene) : Course :=
  let written := s.peer.getD []
  (if written.isEmpty then [] else [(0, .arrival (.bytes written))]) ++
    [(0, if s.keeps then .cancel else .arrival .closed)]

/-- What a call to a path meets with. -/
def surroundings (s : ProgramScene) (path : Bytes) : Surroundings :=
  { attempt := [(0, .done (s.files.connect path))]
    writer := ({} : Link).writer
    course := s.course }

end ProgramScene

/-- A run that ends with a complaint, with nothing done. -/
def Transcript.refusal (s : ProgramScene) (c : Complaint) : Transcript :=
  { exitCode := 1, complaint := some c, files := s.files }

/-- The run of a call. -/
def rehearseCallPlan (s : ProgramScene) (client : Client) (request : Message) (json : Bool) :
    Transcript :=
  let available := s.files.isAvailable client.path
  let surroundings := s.surroundings client.path
  let p := client.call surroundings request
  let ended : Transcript :=
    match p.outcome with
    | .ok reply => { exitCode := 0, output := Cli.replyLine json reply, files := s.files }
    | .error e => .refusal s (Cli.callComplaint client.path e)
    | .waiting => { exitCode := 1, files := s.files }
  { ended with
    log := (if available then [] else [⟨.warn, .program⟩]) ++ [⟨.info, .program⟩] ++ p.outcome.trail
    reached := (client.connection.connect surroundings.attempt).outcome == .ok ()
    sent := p.written }

/-- Sends a request to a server over a connection of its own, and reads what comes back. -/
def Service.ask (v : Service) (request : Bytes) : Service × Bytes :=
  let name := "client"
  let opened := (v.step (.connect name)).1
  let written := (opened.step (.write name request)).1
  let ended := (written.step (.endWriting name)).1
  match ended.step (.read name) with
  | (v, .took bytes _) => ((v.step (.drop name)).1, bytes)
  | (v, _) => (v, [])

/-- All requests, one after the other. -/
def Service.askAll (v : Service) : List Bytes → Service × List Bytes
  | [] => (v, [])
  | request :: rest =>
    let asked := v.ask request
    let later := Service.askAll asked.1 rest
    (later.1, asked.2 :: later.2)

/-- The run of a server. -/
def rehearseServePlan (s : ProgramScene) (path : Bytes) (options : ServerOptions) : Transcript :=
  match Service.startAmong s.files path options with
  | .error e =>
    { exitCode := 1
      complaint := some (Cli.serveComplaint e)
      files := (Nat.repeat (Tenure.advance Service.listener path) 4 (.looking, s.files)).2 }
  | .ok v =>
    let (asked, replies) := v.askAll s.requests
    let stopped := ((asked.step .shutdown).1.step .join).1
    { exitCode := 0
      log := Server.startRecord :: ⟨.warn, .program⟩ ::
        stopped.history.flatMap Server.Effect.trail
      replies
      files := stopped.files }

/-- The run of a plan. -/
def rehearsePlan (s : ProgramScene) : Cli.Plan → Transcript
  | .print text => { exitCode := 0, output := Utf8.encodeString text, files := s.files }
  | .call client request json => rehearseCallPlan s client request json
  | .serve path options => rehearseServePlan s path options

/-- The run of an invocation under a configuration. -/
def rehearseUnder (s : ProgramScene) (i : Cli.Invocation) (found : Bool) (config : Config) :
    Transcript :=
  let filter := Cli.logFilter s.logDirectives i.verbosity config
  let ended :=
    match i.plan found config with
    | .ok plan => rehearsePlan s plan
    | .error e => .refusal s e
  { ended with log := (⟨.debug, .program⟩ :: ended.log).filter filter.allows }

theorem rehearseUnder_of_ok (s : ProgramScene) (i : Cli.Invocation) (found : Bool) (config : Config)
    (plan : Cli.Plan) (h : i.plan found config = .ok plan) :
    ∃ log, rehearseUnder s i found config = { rehearsePlan s plan with log } :=
  ⟨_, by rw [rehearseUnder, h]⟩

theorem rehearseUnder_of_error (s : ProgramScene) (i : Cli.Invocation) (found : Bool)
    (config : Config) (e : Complaint) (h : i.plan found config = .error e) :
    ∃ log, rehearseUnder s i found config = { Transcript.refusal s e with log } :=
  ⟨_, by rw [rehearseUnder, h]⟩

/-- The run of an invocation. -/
def rehearseInvocation (s : ProgramScene) (i : Cli.Invocation) : Transcript :=
  let found := s.files.isAvailable i.configPath
  match Cli.loadConfig i.configPath found (s.files.content i.configPath) with
  | .error e => .refusal s e
  | .ok config => rehearseUnder s i found config

theorem rehearseInvocation_of_ok (s : ProgramScene) (i : Cli.Invocation) (config : Config)
    (h : Cli.loadConfig i.configPath (s.files.isAvailable i.configPath)
      (s.files.content i.configPath) = .ok config) :
    rehearseInvocation s i = rehearseUnder s i (s.files.isAvailable i.configPath) config := by
  rw [rehearseInvocation, h]

theorem rehearseInvocation_of_error (s : ProgramScene) (i : Cli.Invocation) (e : Complaint)
    (h : Cli.loadConfig i.configPath (s.files.isAvailable i.configPath)
      (s.files.content i.configPath) = .error e) :
    rehearseInvocation s i = .refusal s e := by
  rw [rehearseInvocation, h]

/-- A run of the program. -/
def rehearse (s : ProgramScene) (words : List Bytes) : Transcript :=
  match Cli.Request.ofWords words with
  | .run i => rehearseInvocation s i
  | .help topic => { exitCode := 0, output := Utf8.encodeString topic.text, files := s.files }
  | .version => { exitCode := 0, output := Utf8.encodeString Cli.versionText, files := s.files }
  | .misuse => { exitCode := 2, files := s.files }

end OneShot
