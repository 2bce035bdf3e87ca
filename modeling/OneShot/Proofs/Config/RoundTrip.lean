import OneShot.Config.Parse
import OneShot.Config.Render
import OneShot.Proofs.Toml.Documents

/-!
# Configurations are read as they were written

The text of a configuration is a plain document of three sections that hold all settings. Reading it
gives each section its settings back, so the configuration comes out as it went in, whatever
characters its strings hold and however large its numbers are.

## Key results

- `toList_render`: the text of a configuration is a plain document
- `config_of_tables`: the tables of that document are read as the configuration
- `parse_render`: a valid configuration is read as it was written
-/

namespace OneShot

open Toml (Value Holds Entries Item)

namespace Config

/-! ### The document -/

/-- The settings of the section `client`. -/
def clientSettings (c : ClientConfig) : List (String × Value) :=
  [("socket_path", .string c.socketPath), ("framing", .string c.framing),
    ("max_reply_bytes", .number c.maxReplyBytes.toNat),
    ("connect_timeout_ms", .number c.connectTimeoutMs.toNat),
    ("read_timeout_ms", .number c.readTimeoutMs.toNat)]

/-- The settings of the section `server`. -/
def serverSettings (c : ServerConfig) : List (String × Value) :=
  [("socket_path", .string c.socketPath), ("framing", .string c.framing),
    ("reply_prefix", .string c.replyPrefix),
    ("max_request_bytes", .number c.maxRequestBytes.toNat),
    ("read_timeout_ms", .number c.readTimeoutMs.toNat)]

/-- The settings of the section `logging`. -/
def loggingSettings (c : LoggingConfig) : List (String × Value) := [("level", .string c.level)]

/-- The sections of a configuration. -/
def sections (c : Config) : List Toml.Section :=
  [{ name := "client", settings := clientSettings c.client },
    { gap := 1, name := "server", settings := serverSettings c.server },
    { gap := 1, name := "logging", settings := loggingSettings c.logging }]

/-- The text of a configuration is a document of its sections. -/
theorem toList_render (c : Config) :
    c.render.toList = (sections c).flatMap Toml.Section.text := by
  rw [render, String.toList_ofList]
  simp [sections, Toml.Section.text, clientLines, serverLines, loggingLines, clientSettings,
    serverSettings, loggingSettings, Toml.settingLines]
  rfl

/-- The sections of a configuration make a plain document. -/
theorem isPlain_sections (c : Config) : Toml.IsPlain (sections c) where
  distinct := by
    -- three names, each other than the others
    simp [sections]
  bare := by
    simp only [sections, List.forall_mem_cons]
    exact ⟨by decide, by decide, by decide, nofun⟩
  distinct_settings := by
    simp [sections, clientSettings, serverSettings, loggingSettings]
  bare_settings := by
    simp only [sections, clientSettings, serverSettings, loggingSettings, List.forall_mem_cons]
    exact ⟨⟨by decide, by decide, by decide, by decide, by decide, nofun⟩,
      ⟨by decide, by decide, by decide, by decide, by decide, nofun⟩, ⟨by decide, nofun⟩, nofun⟩

/-! ### The sections -/

section Settings

variable {σ : Type}

/-- A setting whose key is found is taken from its item. -/
private theorem ofTable_cons {entries : Entries} {item : Item} {s s' : σ} (f : Schema.Setting σ)
    (fs : List (Schema.Setting σ)) (hget : entries.get? f.key = some item)
    (hset : f.set s item = .ok s') :
    Schema.ofTable entries (f :: fs) s = Schema.ofTable entries fs s' := by
  rw [Schema.ofTable, hget]
  simp only [hset]

/-- A string is taken as it is. -/
theorem set_string (key standard : String) (put : σ → String → σ) (s : σ) (span : Toml.Span)
    (v : String) : (Schema.setting key Schema.string standard put).set s
      ((Value.string v).item span) = .ok (put s v) := rfl

/-- A number of 64 bits is taken as it is. -/
theorem set_unsigned (key expected : String) (standard : UInt64) (put : σ → UInt64 → σ) (s : σ)
    (span : Toml.Span) (x : UInt64) :
    (Schema.setting key (Schema.unsigned expected) standard put).set s
      ((Value.number x.toNat).item span) = .ok (put s x) := by
  have hlt : (x.toNat : Int) < 0x10000000000000000 := by
    have := x.toNat_lt
    omega
  -- a number of 64 bits is within the range that is read
  have hread : Schema.unsigned expected ((Value.number x.toNat).item span) = .ok x := by
    rw [Value.item, Schema.unsigned, if_pos ⟨Int.natCast_nonneg _, hlt⟩, Int.toNat_natCast,
      UInt64.ofNat_toNat]
  rw [Schema.setting]
  simp only [hread]
  rfl

end Settings

/-- The section `client` is read from the table that holds its settings. -/
theorem client_read (c : ClientConfig) (entries : Entries) (h : Holds (clientSettings c) entries)
    (span : Toml.Span) : Schema.client.read {} (.table span .header entries) = .ok c := by
  obtain ⟨_, hpath⟩ := h.get? "socket_path" _ rfl
  obtain ⟨_, hframing⟩ := h.get? "framing" _ rfl
  obtain ⟨_, hlimit⟩ := h.get? "max_reply_bytes" _ rfl
  obtain ⟨_, hconnect⟩ := h.get? "connect_timeout_ms" _ rfl
  obtain ⟨_, hread⟩ := h.get? "read_timeout_ms" _ rfl
  -- fields are read in the order of their keys, settings were written in the order of the record
  rw [Schema.Section.read, Schema.client,
    ofTable_cons Schema.Client.connectTimeoutMs _ hconnect (set_unsigned _ _ _ _ _ _ _),
    ofTable_cons Schema.Client.framing _ hframing (set_string _ _ _ _ _ _),
    ofTable_cons Schema.Client.maxReplyBytes _ hlimit (set_unsigned _ _ _ _ _ _ _),
    ofTable_cons Schema.Client.readTimeoutMs _ hread (set_unsigned _ _ _ _ _ _ _),
    ofTable_cons Schema.Client.socketPath _ hpath (set_string _ _ _ _ _ _), Schema.ofTable]

/-- The section `server` is read from the table that holds its settings. -/
theorem server_read (c : ServerConfig) (entries : Entries) (h : Holds (serverSettings c) entries)
    (span : Toml.Span) : Schema.server.read {} (.table span .header entries) = .ok c := by
  obtain ⟨_, hpath⟩ := h.get? "socket_path" _ rfl
  obtain ⟨_, hframing⟩ := h.get? "framing" _ rfl
  obtain ⟨_, hprefix⟩ := h.get? "reply_prefix" _ rfl
  obtain ⟨_, hlimit⟩ := h.get? "max_request_bytes" _ rfl
  obtain ⟨_, hread⟩ := h.get? "read_timeout_ms" _ rfl
  -- as for the client, in the order of the keys
  rw [Schema.Section.read, Schema.server,
    ofTable_cons Schema.Server.framing _ hframing (set_string _ _ _ _ _ _),
    ofTable_cons Schema.Server.maxRequestBytes _ hlimit (set_unsigned _ _ _ _ _ _ _),
    ofTable_cons Schema.Server.readTimeoutMs _ hread (set_unsigned _ _ _ _ _ _ _),
    ofTable_cons Schema.Server.replyPrefix _ hprefix (set_string _ _ _ _ _ _),
    ofTable_cons Schema.Server.socketPath _ hpath (set_string _ _ _ _ _ _), Schema.ofTable]

/-- The section `logging` is read from the table that holds its setting. -/
theorem logging_read (c : LoggingConfig) (entries : Entries)
    (h : Holds (loggingSettings c) entries) (span : Toml.Span) :
    Schema.logging.read {} (.table span .header entries) = .ok c := by
  obtain ⟨_, hlevel⟩ := h.get? "level" _ rfl
  rw [Schema.Section.read, Schema.logging,
    ofTable_cons Schema.Logging.level _ hlevel (set_string _ _ _ _ _ _), Schema.ofTable]

/-- The tables of a configuration, in their order. -/
private theorem exists_of_tables (c : Config) (root : Entries)
    (h : Toml.Tables (sections c) root) :
    ∃ client server logging : Entries, ∃ s₁ s₂ s₃ : Toml.Span,
      Holds (clientSettings c.client) client ∧ Holds (serverSettings c.server) server ∧
      Holds (loggingSettings c.logging) logging ∧
      root = [("client", .table s₁ .header client), ("server", .table s₂ .header server),
        ("logging", .table s₃ .header logging)] := by
  unfold sections at h
  -- three tables in the order in which they are written
  cases h with
  | cons _ s₁ hclient h =>
    cases h with
    | cons _ s₂ hserver h =>
      cases h with
      | cons _ s₃ hlogging h =>
        cases h
        exact ⟨_, _, _, s₁, s₂, s₃, hclient, hserver, hlogging, rfl⟩

/-- The tables of a configuration are read as the configuration. -/
theorem config_of_tables (c : Config) (root : Entries) (h : Toml.Tables (sections c) root) :
    Schema.config root = .ok c := by
  obtain ⟨client, server, logging, s₁, s₂, s₃, hclient, hserver, hlogging, hroot⟩ :=
    exists_of_tables c root h
  -- each section is found by its name
  have hfirst : root.get? "client" = some (.table s₁ .header client) := by rw [hroot]; rfl
  have hsecond : root.get? "server" = some (.table s₂ .header server) := by rw [hroot]; rfl
  have hthird : root.get? "logging" = some (.table s₃ .header logging) := by rw [hroot]; rfl
  simp only [Schema.config, Schema.sectionOf, hfirst, hsecond, hthird,
    client_read c.client client hclient, server_read c.server server hserver,
    logging_read c.logging logging hlogging]
  rfl

/-- Whether a value is a string or a number of 64 bits. -/
private def Fits : Value → Prop
  | .string _ => True
  | .number n => n < 0x10000000000000000

private theorem fits_string (s : String) : Fits (.string s) := trivial

private theorem fits_toNat (x : UInt64) : Fits (.number x.toNat) := x.toNat_lt

/-- A table can be read whose numbers are of 64 bits. -/
private theorem isReadable_table {settings : List (String × Value)} {entries : Entries}
    (h : Holds settings entries) (span : Toml.Span) (hfits : ∀ s ∈ settings, Fits s.2) :
    Item.isReadable (.table span .header entries) = true := by
  refine h.entriesWithin _ _ fun s hs => ?_
  have hvalue := hfits s hs
  cases hs : s.2 with
  | string text => rfl
  | number n =>
    rw [hs, Fits] at hvalue
    simp only [Value.item, Item.within, Bool.and_eq_true, decide_eq_true_eq]
    omega

/-- All numbers of a configuration can be read. -/
theorem readable_of_tables (c : Config) (root : Entries) (h : Toml.Tables (sections c) root) :
    Schema.readable root = true := by
  obtain ⟨client, server, logging, s₁, s₂, s₃, hclient, hserver, hlogging, rfl⟩ :=
    exists_of_tables c root h
  have hclient' := isReadable_table hclient s₁ (by simp [clientSettings, fits_string, fits_toNat])
  have hserver' := isReadable_table hserver s₂ (by simp [serverSettings, fits_string, fits_toNat])
  have hlogging' := isReadable_table hlogging s₃ (by simp [loggingSettings, fits_string])
  simp [Schema.readable, Schema.Section.seen, hclient', hserver', hlogging']

/-! ### All of it -/

/-- A configuration is read as it was written, also with blank lines behind it. -/
theorem ofText_render (c : Config) (gap : Nat) :
    ofText (c.render ++ String.ofList (List.replicate gap '\n')) = .ok c := by
  obtain ⟨root, htables, hread⟩ := Toml.read?_of_isPlain (sections c) (isPlain_sections c) gap
  rw [ofText, String.toList_append, String.toList_ofList, toList_render, hread]
  simp only [config_of_tables c root htables, readable_of_tables c root htables, if_true]

/-- A configuration is accepted if it breaks no rule. -/
theorem validate_eq_ok_iff (c : Config) : c.validate = .ok () ↔ c.violation? = none := by
  unfold validate
  cases c.violation? <;> simp

/-- A configuration that was accepted is valid. -/
theorem violation?_of_parse (text : String) (c : Config) (h : parse text = .ok c) :
    c.violation? = none := by
  unfold parse at h
  split at h
  · cases h
  · split at h
    · rename_i hvalid
      cases h
      exact hvalid
    · cases h

/-- A valid configuration is read as it was written, also with blank lines behind it. -/
theorem parse_append_of_violation? (c : Config) (h : c.violation? = none) (gap : Nat) :
    parse (c.render ++ String.ofList (List.replicate gap '\n')) = .ok c := by
  rw [parse, ofText_render]
  simp only [h]

/-- A valid configuration is read as it was written, also with the line break that follows it when
it is shown. Every configuration that is read from a text is valid. -/
theorem parse_render :
    (∀ c : Config, c.validate = .ok () →
      parse c.render = .ok c ∧ parse (c.render ++ "\n") = .ok c) ∧
    ∀ (text : String) (c : Config), parse text = .ok c →
      parse c.render = .ok c ∧ parse (c.render ++ "\n") = .ok c := by
  have hboth : ∀ c : Config, c.violation? = none →
      parse c.render = .ok c ∧ parse (c.render ++ "\n") = .ok c := by
    intro c hc
    have hnone := parse_append_of_violation? c hc 0
    rw [List.replicate_zero, String.ofList_nil, String.append_empty] at hnone
    -- the line break behind the text is one blank line more
    exact ⟨hnone, parse_append_of_violation? c hc 1⟩
  exact ⟨fun c hc => hboth c (c.validate_eq_ok_iff.mp hc),
    fun text c hc => hboth c (violation?_of_parse text c hc)⟩

/-- Strings that need each of the written forms, and the greatest number. -/
theorem parse_render_awkward :
    let c : Config := {
      client := {
        socketPath := "\"\"\"\n'''\\\t\x7f"
        readTimeoutMs := 0xFFFFFFFFFFFFFFFF }
      server := { socketPath := "\"\\", replyPrefix := "\n'\"\"" }
      logging := { level := "\\\"\"\"\n''" } }
    c.validate = .ok () ∧ parse c.render = .ok c ∧ parse (c.render ++ "\n") = .ok c := by
  intro c
  have hvalid : c.validate = .ok () := c.validate_eq_ok_iff.mpr (by decide +kernel)
  -- read once, it is a configuration that comes from a text, and so may be read again
  have hread := (parse_render.1 c hvalid).1
  exact ⟨hvalid, parse_render.2 c.render c hread⟩

end Config

end OneShot
