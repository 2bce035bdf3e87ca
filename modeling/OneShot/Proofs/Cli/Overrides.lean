import OneShot.Proofs.Cli.Words
import OneShot.Proofs.Config.Validation
import OneShot.Rehearsal.Program

/-!
# What the command line says above a valid configuration

A configuration is checked when it is loaded, and not again when the command line changes one of its
sections. That is enough. A framing is changed to a known one or the program stops, a socket path is
text or the program stops, and the command line gives no empty path; the other settings are the
checked ones. Where the program stops nothing has been done yet: neither has a connection been
opened nor a file been touched, the one at the socket path included.

## Key results

- `validate_of_loadConfig`: what is loaded is valid
- `overrides_checked`: a command is refused with nothing done, or it acts on a section that differs
  from the loaded one in what is given, and keeps the configuration valid
- `validate_of_plan_ofWords`: so it is for every command line
-/

namespace OneShot

/-- A client is made of a section exactly if it names a framing. -/
theorem Client.exists_ofConfig_iff (c : ClientConfig) :
    (∃ client, Client.ofConfig c = .ok client) ↔ c.framing ∈ framingNames := by
  rw [← c.exists_options_iff]
  unfold Client.ofConfig
  cases c.options <;> simp

/-- Nothing was done: no connection was opened, nothing was sent or served, and the files are those
that were there. -/
structure Transcript.Untouched (t : Transcript) (s : ProgramScene) : Prop where
  reached : t.reached = false
  sent : t.sent = []
  replies : t.replies = []
  files : t.files = s.files

namespace Cli

/-- What is loaded is valid. -/
theorem validate_of_loadConfig {path : Bytes} {found : Bool} {file : Except Failure Bytes}
    {config : Config} (h : loadConfig path found file = .ok config) : config.validate = .ok () := by
  rw [Config.validate_eq_ok_iff]
  unfold loadConfig at h
  -- without a file it is the default, with one it was parsed and so validated
  split at h
  · -- nothing in the default is broken
    rw [← Except.ok.inj h]
    exact Config.violation?_default
  · split at h
    · rename_i loaded hload
      rw [← Except.ok.inj h]
      unfold Config.load at hload
      split at hload
      · cases hload
      · split at hload
        · exact Config.violation?_of_parse _ _ hload
        · cases hload
    · cases h

/-! ### What is given -/

/-- The framing that a command is given. -/
def Command.framing? : Command → Option String
  | .call _ framing _ _ => framing
  | .serve _ framing _ => framing
  | .config _ => none

/-- What is given is text, if anything is. -/
def GivesText (given : Option Bytes) : Prop :=
  ∀ bytes ∈ given, ∃ text, Utf8.decodeString bytes = .ok text

/-- What is given is the name of a framing, if anything is. -/
def GivesFraming (given : Option String) : Prop :=
  ∀ name ∈ given, ∃ f, Framing.parse name = .ok f

/-- The socket path is text and the framing has a known name, where they are given. -/
structure Command.Sensible (c : Command) : Prop where
  socket : GivesText c.socket?
  framing : GivesFraming c.framing?

/-- The path that stands is the one that is given, or else that of the section. -/
def Stands (given : Option Bytes) (standard path : String) : Prop :=
  match given with
  | some bytes => bytes = Utf8.encodeString path
  | none => path = standard

/-- A plan that carries out a command under a configuration, and the configuration with the section
that it acts on in place of the loaded one. The section differs in what the command is given. -/
inductive CarriesOut (config : Config) : Command → Plan → Config → Prop where
  | call {socket : Option Bytes} {framing : Option String} {request : Message} {json : Bool}
      {path : String} {client : Client} {c : ClientConfig}
      (hpath : Stands socket config.client.socketPath path)
      (hsection : c = { config.client with
        socketPath := path, framing := framing.getD config.client.framing })
      (hclient : Client.ofConfig c = .ok client) :
      CarriesOut config (.call socket framing request json) (.call client request json)
        { config with client := c }
  | serve {socket : Option Bytes} {framing replyPrefix : Option String}
      {path : String} {options : ServerOptions} {c : ServerConfig}
      (hpath : Stands socket config.server.socketPath path)
      (hsection : c = { config.server with
        socketPath := path, framing := framing.getD config.server.framing,
        replyPrefix := replyPrefix.getD config.server.replyPrefix })
      (hoptions : c.options = .ok options) :
      CarriesOut config (.serve socket framing replyPrefix)
        (.serve (Utf8.encodeString c.socketPath) options) { config with server := c }

/-- The path that is made of what is given stands. -/
theorem socketOr_eq_ok_iff (standard : String) (given : Option Bytes) (path : String) :
    socketOr standard given = .ok path ↔ Stands given standard path := by
  cases given with
  | none =>
    show Except.ok standard = .ok path ↔ path = standard
    rw [Except.ok.injEq, eq_comm]
  | some bytes =>
    -- the bytes that were given have to be text
    show socketText bytes = .ok path ↔ bytes = Utf8.encodeString path
    rw [← Utf8.decodeString_eq_ok_iff, socketText]
    cases Utf8.decodeString bytes with
    | error fault => simp
    | ok text => simp

/-- A path can be made of what is given exactly if that is text. -/
theorem exists_socketOr_iff (standard : String) (given : Option Bytes) :
    (∃ path, socketOr standard given = .ok path) ↔ GivesText given := by
  cases given with
  | none => exact iff_of_true ⟨standard, rfl⟩ nofun
  | some bytes =>
    simp only [GivesText, Option.mem_some_iff, forall_eq', socketOr_eq_ok_iff, Stands,
      Utf8.decodeString_eq_ok_iff]

/-- The path that stands is not empty, if no empty path is given or loaded. -/
theorem Stands.ne_empty {given : Option Bytes} {standard path : String}
    (h : Stands given standard path) (hgiven : given ≠ some []) (hstandard : standard ≠ "") :
    path ≠ "" := by
  rintro rfl
  cases given with
  | none => exact hstandard h.symm
  | some bytes =>
    have hempty : bytes = [] := h
    exact hgiven (congrArg some hempty)

/-- What is loaded or given above it is known exactly if what is given is. -/
theorem getD_mem_framingNames_iff (given : Option String) (standard : String)
    (h : standard ∈ framingNames) :
    given.getD standard ∈ framingNames ↔ GivesFraming given := by
  cases given with
  | none => exact iff_of_true h nofun
  | some name =>
    rw [Option.getD_some, ← Framing.exists_parse_iff]
    simp only [GivesFraming, Option.mem_some_iff, forall_eq']

/-! ### Plans -/

/-- A section is edited with the path that stands, and something is made of it. That fails exactly if
the path that is given is no text or the framing that is given is not known. -/
private theorem refused_or_made {σ β : Type} (standard : String) (socket : Option Bytes)
    (framing : Option String) (edit : String → σ) (make : σ → Except UnknownFraming β)
    (hmake : ∀ path, (∃ made, make (edit path) = .ok made) ↔ GivesFraming framing) :
    (¬(GivesText socket ∧ GivesFraming framing) ∧
      ((∃ e, socketOr standard socket = .error e) ∨
        ∃ path e, socketOr standard socket = .ok path ∧ make (edit path) = .error e)) ∨
    (GivesText socket ∧ GivesFraming framing ∧
      ∃ path made, socketOr standard socket = .ok path ∧ make (edit path) = .ok made) := by
  have hsocket := exists_socketOr_iff standard socket
  -- the path is looked at first, and the framing only if it stands
  cases hpath : socketOr standard socket with
  | error e =>
    refine .inl ⟨fun h => ?_, .inl ⟨e, rfl⟩⟩
    -- a path that is text would have been found
    obtain ⟨path, hok⟩ := hsocket.mpr h.1
    cases hpath.symm.trans hok
  | ok path =>
    cases hmade : make (edit path) with
    | error e =>
      refine .inl ⟨fun h => ?_, .inr ⟨path, e, rfl, hmade⟩⟩
      -- a framing that is known would have been made
      obtain ⟨made, hok⟩ := (hmake path).mpr h.2
      cases hmade.symm.trans hok
    | ok made =>
      exact .inr ⟨hsocket.mp ⟨path, hpath⟩, (hmake path).mp ⟨made, hmade⟩, path, made, rfl, hmade⟩

section Plans

variable {config : Config} {i : Invocation} (found : Bool)

/-- A call is refused if what it is given is not sensible, and else carried out. -/
private theorem plan_call {socket : Option Bytes} {framing : Option String} {request : Message}
    {json : Bool} (hcall : i.command = .call socket framing request json)
    (husable : config.IsUsable) :
    (¬i.command.Sensible ∧ ∃ e, i.plan found config = .error e) ∨
    (i.command.Sensible ∧ ∃ plan config', i.plan found config = .ok plan ∧
      CarriesOut config i.command plan config') := by
  -- the framing that is asked for is known exactly if the client can be made
  have hframing := getD_mem_framingNames_iff framing config.client.framing
    (config.client.exists_options_iff.mp husable.clientOptions)
  rw [hcall]
  simp only [Invocation.plan, hcall, ClientConfig.override, planCall]
  -- either the path or the framing is refused, or both stand
  obtain ⟨hno, ⟨e, herror⟩ | ⟨path, e, hpath, herror⟩⟩ | ⟨htext, hknown, path, client, hpath, hok⟩ :=
    refused_or_made config.client.socketPath socket framing
      (fun path => { config.client with
        socketPath := path, framing := framing.getD config.client.framing })
      Client.ofConfig (fun path => by rw [Client.exists_ofConfig_iff, hframing])
  · exact .inl ⟨fun h => hno ⟨h.socket, h.framing⟩, e, by simp only [herror]⟩
  · exact .inl ⟨fun h => hno ⟨h.socket, h.framing⟩, complaintOf e, by simp only [hpath, herror]⟩
  · -- both stand, and the plan carries the command out
    have hcarries : CarriesOut config (.call socket framing request json)
        (.call client request json) _ := .call ((socketOr_eq_ok_iff _ _ _).mp hpath) rfl hok
    exact .inr ⟨⟨htext, hknown⟩, _, _, by simp only [hpath, hok], hcarries⟩

/-- A server is refused if what it is given is not sensible, and else started. -/
private theorem plan_serve {socket : Option Bytes} {framing replyPrefix : Option String}
    (hserve : i.command = .serve socket framing replyPrefix) (husable : config.IsUsable) :
    (¬i.command.Sensible ∧ ∃ e, i.plan found config = .error e) ∨
    (i.command.Sensible ∧ ∃ plan config', i.plan found config = .ok plan ∧
      CarriesOut config i.command plan config') := by
  have hframing := getD_mem_framingNames_iff framing config.server.framing
    (config.server.exists_options_iff.mp husable.serverOptions)
  rw [hserve]
  simp only [Invocation.plan, hserve, ServerConfig.override, planServe]
  -- the same three ways: no path, no framing, or both
  obtain ⟨hno, ⟨e, herror⟩ | ⟨path, e, hpath, herror⟩⟩ | ⟨htext, hknown, path, options, hpath, hok⟩ :=
    refused_or_made config.server.socketPath socket framing
      (fun path => { config.server with
        socketPath := path, framing := framing.getD config.server.framing,
        replyPrefix := replyPrefix.getD config.server.replyPrefix })
      ServerConfig.options (fun path => by rw [ServerConfig.exists_options_iff, hframing])
  · exact .inl ⟨fun h => hno ⟨h.socket, h.framing⟩, e, by simp only [herror]⟩
  · exact .inl ⟨fun h => hno ⟨h.socket, h.framing⟩, complaintOf e, by simp only [hpath, herror]⟩
  · have hcarries := CarriesOut.serve ((socketOr_eq_ok_iff _ _ _).mp hpath) rfl hok
    exact .inr ⟨⟨htext, hknown⟩, _, _, by simp only [hpath, hok], hcarries⟩

/-- A command is refused if what it is given is not sensible, and else carried out. -/
theorem refused_or_carriesOut (husable : config.IsUsable)
    (hacts : ∀ resolved, i.command ≠ .config resolved) :
    (¬i.command.Sensible ∧ ∃ e, i.plan found config = .error e) ∨
    (i.command.Sensible ∧ ∃ plan config', i.plan found config = .ok plan ∧
      CarriesOut config i.command plan config') := by
  cases hcommand : i.command with
  | call => exact hcommand ▸ plan_call found hcommand husable
  | serve => exact hcommand ▸ plan_serve found hcommand husable
  | config resolved => exact absurd hcommand (hacts resolved)

/-- The configuration with the section that is acted on is valid, as the loaded one was. -/
theorem CarriesOut.validate {command : Command} {plan : Plan} {config' : Config}
    (h : CarriesOut config command plan config') (hsocket : command.socket? ≠ some [])
    (husable : config.IsUsable) : config'.validate = .ok () := by
  -- of what makes a configuration usable only the path and the framing of one section can change
  rw [Config.validate_eq_ok_iff_isUsable]
  cases h with
  | @call socket framing request json path client c hpath hsection hclient =>
    have hoptions := c.exists_options_iff.mpr (Client.exists_ofConfig_iff c |>.mp ⟨client, hclient⟩)
    have hne := hpath.ne_empty hsocket husable.clientPath
    -- the section of the call, with the others as they were
    rw [hsection] at hoptions ⊢
    exact { husable with clientPath := hne, clientOptions := hoptions }
  | @serve socket framing replyPrefix path options c hpath hsection hoptions =>
    have hne := hpath.ne_empty hsocket husable.serverPath
    rw [hsection] at hoptions ⊢
    exact { husable with serverPath := hne, serverOptions := ⟨options, hoptions⟩ }

end Plans

/-- A run without a plan has done nothing. -/
theorem untouched_of_error (s : ProgramScene) (i : Invocation) (found : Bool) (config : Config)
    (e : Complaint) (h : i.plan found config = .error e) :
    (rehearseUnder s i found config).exitCode = 1 ∧
    (rehearseUnder s i found config).complaint = some e ∧
    (rehearseUnder s i found config).Untouched s := by
  obtain ⟨log, hrun⟩ := rehearseUnder_of_error s i found config e h
  rw [hrun]
  exact ⟨rfl, rfl, rfl, rfl, rfl, rfl⟩

/-- Under a configuration that was loaded, a call or a server is refused if it is given a socket path
that is no text or a framing that nobody knows, and then nothing was done. Else it acts on a section
that differs from the loaded one in what is given alone. With this section in place of the loaded
one the configuration is valid, if the socket path that is given is not empty. -/
theorem overrides_checked (s : ProgramScene) (i : Invocation) (found : Bool)
    (file : Except Failure Bytes) (config : Config)
    (hload : loadConfig i.configPath found file = .ok config)
    (hacts : ∀ resolved, i.command ≠ .config resolved) (hsocket : i.command.socket? ≠ some []) :
    (¬i.command.Sensible ∧ ∃ e, i.plan found config = .error e ∧
      (rehearseUnder s i found config).exitCode = 1 ∧
      (rehearseUnder s i found config).complaint = some e ∧
      (rehearseUnder s i found config).Untouched s) ∨
    (i.command.Sensible ∧ ∃ plan config', i.plan found config = .ok plan ∧
      CarriesOut config i.command plan config' ∧ config'.validate = .ok () ∧
      ∃ log, rehearseUnder s i found config = { rehearsePlan s plan with log }) := by
  -- what was loaded is usable, so only the overrides can be wrong
  have husable := (Config.validate_eq_ok_iff_isUsable config).mp (validate_of_loadConfig hload)
  cases refused_or_carriesOut found husable hacts with
  | inl hrefused =>
    obtain ⟨hsensible, e, herror⟩ := hrefused
    exact .inl ⟨hsensible, e, herror, untouched_of_error s i found config e herror⟩
  | inr hcarried =>
    obtain ⟨hsensible, plan, config', hok, hcarries⟩ := hcarried
    exact .inr ⟨hsensible, plan, config', hok, hcarries, hcarries.validate hsocket husable,
      rehearseUnder_of_ok s i found config plan hok⟩

/-- A file with a prefix for replies; a server that is given a path and a framing above it; and a
call that is given a path that is no text. -/
theorem overrides_checked_server_and_call :
    let file := Utf8.encodeString "[server]\nreply_prefix = \"> \"\n"
    let config : Config := { server := { replyPrefix := "> " } }
    let path := Utf8.encodeString "/run/b.sock"
    let serving : Invocation := ⟨standardConfigPath, 0, .serve (some path) (some "newline") none⟩
    let calling : Invocation := ⟨standardConfigPath, 0, .call (some [0xFF]) none ⟨"a", 1⟩ false⟩
    loadConfig standardConfigPath true (.ok file) = .ok config ∧
    (∃ plan config', serving.plan true config = .ok plan ∧
      CarriesOut config serving.command plan config' ∧ config'.validate = .ok ()) ∧
    (rehearseUnder {} calling true config).Untouched {} := by
  intro file config path serving calling
  have hload : loadConfig standardConfigPath true (.ok file) = .ok config := by decide +kernel
  have hserving : Request.ofWords [Utf8.encodeString "serve", Utf8.encodeString "--socket", path,
      Utf8.encodeString "--framing=newline"] = .run serving := by decide +kernel
  have hcalling : Request.ofWords [Utf8.encodeString "call", Utf8.encodeString "-s", [0xFF],
      Utf8.encodeString "-ta"] = .run calling := by decide +kernel
  refine ⟨hload, ?_, ?_⟩
  · -- the server: both overrides make sense
    have hsensible : serving.command.Sensible :=
      ⟨by rintro _ ⟨⟩; exact ⟨"/run/b.sock", by decide +kernel⟩,
        by rintro _ ⟨⟩; exact ⟨.newline, by decide⟩⟩
    have h := overrides_checked {} serving true (.ok file) config hload nofun
      (Request.socket?_ne_empty _ _ hserving)
    obtain ⟨-, plan, config', hplan, hcarries, hvalid, -⟩ := h.resolve_left fun h => h.1 hsensible
    exact ⟨plan, config', hplan, hcarries, hvalid⟩
  · have hsenseless : ¬calling.command.Sensible := by
      rintro ⟨hsocket, -⟩
      obtain ⟨text, htext⟩ := hsocket _ rfl
      -- the byte is no text
      have hfault : (Utf8.decodeString [0xFF]).toOption = none := by decide +kernel
      rw [htext] at hfault
      cases hfault
    have h := overrides_checked {} calling true (.ok file) config hload nofun
      (Request.socket?_ne_empty _ _ hcalling)
    obtain ⟨-, e, -, -, -, huntouched⟩ := h.resolve_right fun h => hsenseless h.1
    exact huntouched

/-- Whatever the words of a command line are: a plan that they lead to under a configuration that was
loaded acts on a valid section. -/
theorem validate_of_plan_ofWords (words : List Bytes) (i : Invocation) (found : Bool)
    (file : Except Failure Bytes) (config : Config) (plan : Plan)
    (hwords : Request.ofWords words = .run i)
    (hload : loadConfig i.configPath found file = .ok config)
    (hacts : ∀ resolved, i.command ≠ .config resolved) (hplan : i.plan found config = .ok plan) :
    ∃ config', CarriesOut config i.command plan config' ∧ config'.validate = .ok () := by
  have husable := (Config.validate_eq_ok_iff_isUsable config).mp (validate_of_loadConfig hload)
  obtain ⟨-, e, herror⟩ | ⟨-, plan', config', hok, hcarries⟩ :=
    refused_or_carriesOut found husable hacts
  · cases herror.symm.trans hplan
  · obtain rfl := Except.ok.inj (hok.symm.trans hplan)
    have hsocket := Request.socket?_ne_empty words i hwords
    exact ⟨config', hcarries, hcarries.validate hsocket husable⟩

end Cli

end OneShot
