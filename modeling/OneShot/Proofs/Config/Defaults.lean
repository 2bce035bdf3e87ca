import OneShot.Proofs.Config.RoundTrip

/-!
# Settings that are not given have their defaults

Of the settings of a configuration any may be given and any left out (`Given`), a section may be
missing, empty or full, and there may be other settings and sections among them, which nobody knows.
Whatever the order, a document is read as the default configuration in which the settings that are
given are replaced, and no others; and it is this configuration that is checked. This is said of all
texts that are read as a tree with the settings in it (`Given.Describes`), and of all texts that are
written line by line from a layout with the settings in it (`Given.IsLaidOut`).

## Key results

- `ofTable_setting`: a setting is taken from its entry, or has its default
- `config_of_describes`: a tree is read as the defaults with the given settings in their places
- `describes_of_isLaidOut`: a written document is read as a tree with its settings
- `exists_writes`: every layout can be written
- `parse_given`: a document is read and checked as the defaults with the given settings
-/

namespace OneShot

open Toml (Value Outline Entries Item)

namespace Config

/-! ### What is given -/

/-- The settings of the section `client` that are given. -/
structure ClientGiven where
  socketPath : Option String := none
  framing : Option String := none
  maxReplyBytes : Option UInt64 := none
  connectTimeoutMs : Option UInt64 := none
  readTimeoutMs : Option UInt64 := none

/-- The settings of the section `server` that are given. -/
structure ServerGiven where
  socketPath : Option String := none
  framing : Option String := none
  replyPrefix : Option String := none
  maxRequestBytes : Option UInt64 := none
  readTimeoutMs : Option UInt64 := none

/-- The settings of the section `logging` that are given. -/
structure LoggingGiven where
  level : Option String := none

/-- The settings that are given. -/
structure Given where
  client : ClientGiven := {}
  server : ServerGiven := {}
  logging : LoggingGiven := {}

/-- A number of 64 bits as a value. -/
def unsignedValue (x : UInt64) : Value := .number x.toNat

/-- Settings by their keys, each with its value if it is given. -/
abbrev Known := List (String × Option Value)

namespace ClientGiven

/-- The defaults, with the given settings in their places. -/
def config (g : ClientGiven) : ClientConfig :=
  let standard : ClientConfig := {}
  { socketPath := g.socketPath.getD standard.socketPath
    framing := g.framing.getD standard.framing
    maxReplyBytes := g.maxReplyBytes.getD standard.maxReplyBytes
    connectTimeoutMs := g.connectTimeoutMs.getD standard.connectTimeoutMs
    readTimeoutMs := g.readTimeoutMs.getD standard.readTimeoutMs }

def known (g : ClientGiven) : Known :=
  [("socket_path", g.socketPath.map .string), ("framing", g.framing.map .string),
    ("max_reply_bytes", g.maxReplyBytes.map unsignedValue),
    ("connect_timeout_ms", g.connectTimeoutMs.map unsignedValue),
    ("read_timeout_ms", g.readTimeoutMs.map unsignedValue)]

end ClientGiven

namespace ServerGiven

/-- The defaults, with the given settings in their places. -/
def config (g : ServerGiven) : ServerConfig :=
  let standard : ServerConfig := {}
  { socketPath := g.socketPath.getD standard.socketPath
    framing := g.framing.getD standard.framing
    replyPrefix := g.replyPrefix.getD standard.replyPrefix
    maxRequestBytes := g.maxRequestBytes.getD standard.maxRequestBytes
    readTimeoutMs := g.readTimeoutMs.getD standard.readTimeoutMs }

def known (g : ServerGiven) : Known :=
  [("socket_path", g.socketPath.map .string), ("framing", g.framing.map .string),
    ("reply_prefix", g.replyPrefix.map .string),
    ("max_request_bytes", g.maxRequestBytes.map unsignedValue),
    ("read_timeout_ms", g.readTimeoutMs.map unsignedValue)]

end ServerGiven

namespace LoggingGiven

/-- The defaults, with the given setting in its place. -/
def config (g : LoggingGiven) : LoggingConfig :=
  let standard : LoggingConfig := {}
  { level := g.level.getD standard.level }

def known (g : LoggingGiven) : Known := [("level", g.level.map .string)]

end LoggingGiven

/-- The default configuration, with the given settings in their places. -/
def Given.config (g : Given) : Config where
  client := g.client.config
  server := g.server.config
  logging := g.logging.config

/-! ### Settings in a tree -/

/-- Whether an entry is there exactly if its value is given, and is that value. -/
def Says (v? : Option Value) (item? : Option Item) : Prop :=
  match v? with
  | none => item? = none
  | some v => ∃ item, item? = some item ∧ v.Is item

/-- Whether a section has the given settings and of the known ones no others. A section that is
missing has none. -/
def Has (known : Known) : Option Item → Prop
  | none => ∀ s ∈ known, s.2 = none
  | some (.table _ _ entries) => ∀ s ∈ known, Says s.2 (Entries.get? entries s.1)
  | some _ => False

/-- Whether a tree has the given settings and of the known ones no others. -/
structure Given.Describes (g : Given) (root : Entries) : Prop where
  client : Has g.client.known (root.get? "client")
  server : Has g.server.known (root.get? "server")
  logging : Has g.logging.known (root.get? "logging")

section Tables

variable {σ α : Type} {entries : Entries}

/-- A setting is taken from its entry, or has its default. -/
theorem ofTable_setting (f : Schema.Setting σ) (fs : List (Schema.Setting σ)) (s : σ)
    {value : α → Value} {put : σ → α → σ}
    (hset : ∀ s span v, f.set s ((value v).item span) = .ok (put s v)) (v? : Option α)
    (h : Says (v?.map value) (entries.get? f.key)) :
    Schema.ofTable entries (f :: fs) s =
      Schema.ofTable entries fs (v?.elim (f.fill s) (put s)) := by
  cases v? with
  -- nothing is given, so the setting keeps its default
  | none =>
    have hnone : entries.get? f.key = none := h
    rw [Schema.ofTable, hnone]
    rfl
  | some v =>
    -- the item that was given is set
    obtain ⟨_, hget, span, rfl⟩ := h
    rw [Schema.ofTable, hget]
    simp only [hset]
    rfl

/-- A section is read the same whether it is missing, empty or has some settings only: where nothing
is given, the defaults of the settings make up the default of the section. -/
theorem sectionOf_of_has {root : Entries} {name : String} {sec : Schema.Section σ}
    {standard given : σ} {known : Known}
    (hstandard : Schema.ofTable [] sec.sorted standard = .ok standard)
    (hread : ∀ entries : Entries, (∀ s ∈ known, Says s.2 (entries.get? s.1)) →
      Schema.ofTable entries sec.sorted standard = .ok given) (h : Has known (root.get? name)) :
    Schema.sectionOf root name sec standard = .ok given := by
  unfold Schema.sectionOf
  cases hget : root.get? name with
  | none =>
    rw [hget] at h
    -- a section that is missing reads like one without settings
    have hempty := hread [] fun s hs => by rw [h s hs]; rfl
    exact hstandard.symm.trans hempty
  | some item =>
    rw [hget] at h
    cases item with
    -- a section that is there is read setting by setting
    | table span origin entries => exact hread entries h
    | _ => exact h.elim

end Tables

/-- The section `client` is read as its defaults with the given settings in their places. -/
theorem ofTable_client (g : ClientGiven) (entries : Entries)
    (h : ∀ s ∈ g.known, Says s.2 (entries.get? s.1)) :
    Schema.ofTable entries Schema.client.sorted {} = .ok g.config := by
  simp only [ClientGiven.known, List.forall_mem_cons] at h
  obtain ⟨hpath, hframing, hlimit, hconnect, hread, -⟩ := h
  rw [Schema.client,
    ofTable_setting Schema.Client.connectTimeoutMs _ _ (set_unsigned _ _ _ _) _ hconnect,
    ofTable_setting Schema.Client.framing _ _ (set_string _ _ _) _ hframing,
    ofTable_setting Schema.Client.maxReplyBytes _ _ (set_unsigned _ _ _ _) _ hlimit,
    ofTable_setting Schema.Client.readTimeoutMs _ _ (set_unsigned _ _ _ _) _ hread,
    ofTable_setting Schema.Client.socketPath _ _ (set_string _ _ _) _ hpath, Schema.ofTable]
  -- the settings are read in the order of their names; each is given or filled in
  obtain ⟨_ | _, _ | _, _ | _, _ | _, _ | _⟩ := g <;> rfl

/-- The section `server` is read as its defaults with the given settings in their places. -/
theorem ofTable_server (g : ServerGiven) (entries : Entries)
    (h : ∀ s ∈ g.known, Says s.2 (entries.get? s.1)) :
    Schema.ofTable entries Schema.server.sorted {} = .ok g.config := by
  simp only [ServerGiven.known, List.forall_mem_cons] at h
  obtain ⟨hpath, hframing, hprefix, hlimit, hread, -⟩ := h
  rw [Schema.server,
    ofTable_setting Schema.Server.framing _ _ (set_string _ _ _) _ hframing,
    ofTable_setting Schema.Server.maxRequestBytes _ _ (set_unsigned _ _ _ _) _ hlimit,
    ofTable_setting Schema.Server.readTimeoutMs _ _ (set_unsigned _ _ _ _) _ hread,
    ofTable_setting Schema.Server.replyPrefix _ _ (set_string _ _ _) _ hprefix,
    ofTable_setting Schema.Server.socketPath _ _ (set_string _ _ _) _ hpath, Schema.ofTable]
  -- again each of the five is given or filled in
  obtain ⟨_ | _, _ | _, _ | _, _ | _, _ | _⟩ := g <;> rfl

/-- The section `logging` is read as its default, or as the given setting. -/
theorem ofTable_logging (g : LoggingGiven) (entries : Entries)
    (h : ∀ s ∈ g.known, Says s.2 (entries.get? s.1)) :
    Schema.ofTable entries Schema.logging.sorted {} = .ok g.config := by
  simp only [LoggingGiven.known, List.forall_mem_cons] at h
  obtain ⟨hlevel, -⟩ := h
  rw [Schema.logging, ofTable_setting Schema.Logging.level _ _ (set_string _ _ _) _ hlevel,
    Schema.ofTable]
  obtain ⟨_ | _⟩ := g <;> rfl

/-- A tree is read as the defaults with the given settings in their places. -/
theorem config_of_describes {g : Given} {root : Entries} (h : g.Describes root) :
    Schema.config root = .ok g.config := by
  have hclient := Schema.client_read_nil ⟨0, 0⟩ .header {}
  have hserver := Schema.server_read_nil ⟨0, 0⟩ .header {}
  have hlogging := Schema.logging_read_nil ⟨0, 0⟩ .header {}
  simp only [Schema.config, sectionOf_of_has hclient (ofTable_client g.client) h.client,
    sectionOf_of_has hserver (ofTable_server g.server) h.server,
    sectionOf_of_has hlogging (ofTable_logging g.logging) h.logging]
  rfl

/-- What is looked at of an item that can be read can be read. -/
theorem isReadable_seen {σ : Type} (sec : Schema.Section σ) {item : Item}
    (h : item.isReadable = true) : (sec.seen item).isReadable = true := by
  -- the schema looks at the first items of an array only, and those of a readable one are readable
  have htake (low high : Int) (items : List Item) (n : Nat)
      (hall : Item.allWithin low high items = true) :
      Item.allWithin low high (items.take n) = true := by
    induction items generalizing n with
    | nil => rw [List.take_nil]; rfl
    | cons first items ih =>
      rw [Item.allWithin, Bool.and_eq_true] at hall
      cases n with
      | zero => rfl
      | succ n => rw [List.take_succ_cons, Item.allWithin, hall.1, ih n hall.2]; rfl
  cases item with
  | array span items => exact htake _ _ _ _ h
  | tables span items => exact htake _ _ _ _ h
  | _ => exact h

/-- A tree can be read whose entries can be read. -/
theorem readable_of_isReadable {root : Entries} (h : ∀ entry ∈ root, entry.2.isReadable = true) :
    Schema.readable root = true := by
  rw [Schema.readable, List.all_eq_true]
  rintro ⟨name, item⟩ hentry
  have hitem := h _ hentry
  simp only
  -- the name is that of the client, of the server, of the logging or of none
  split
  · exact isReadable_seen _ hitem
  · split
    · exact isReadable_seen _ hitem
    · split
      · exact isReadable_seen _ hitem
      · exact hitem

/-- What reading a document comes to that describes a configuration. -/
def verdict (c : Config) : Except ConfigError Config :=
  match c.validate with
  | .ok () => .ok c
  | .error violation => .error (.invalid violation)

/-- A text is read and checked as the configuration that it describes. -/
theorem parse_of_ofText {text : String} {c : Config} (h : ofText text = .ok c) :
    parse text = verdict c := by
  simp only [parse, h, verdict, validate]
  cases c.violation? <;> rfl

/-- A text that is read as a tree is read and checked as the defaults with the settings in it. -/
theorem parse_of_describes {g : Given} {text : String} {root : Entries}
    (hread : Toml.read? text.toList = some root) (h : g.Describes root)
    (hreadable : ∀ entry ∈ root, entry.2.isReadable = true) : parse text = verdict g.config := by
  apply parse_of_ofText
  rw [ofText, hread]
  simp only [config_of_describes h, readable_of_isReadable hreadable, if_true]

/-- A text is no document if it has a number in it that cannot be read. -/
theorem parse_of_not_readable {g : Given} {text : String} {root : Entries}
    (hread : Toml.read? text.toList = some root) (h : g.Describes root)
    (hunreadable : Schema.readable root = false) : parse text = .error .malformed := by
  simp [parse, ofText, hread, config_of_describes h, hunreadable]

/-! ### Settings in a written document -/

/-- The contents of a section by name: a value, or anything that can be read. -/
abbrev Contents := List (String × Option Value)

/-- Whether an item can be read, and is the value that it should be. -/
def Means (v? : Option Value) (item : Item) : Prop :=
  item.isReadable = true ∧ ∀ v ∈ v?, v.Is item

/-- What is known of the entries of a section. -/
def outline (contents : Contents) : Outline := contents.map fun (name, v?) => (name, Means v?)

theorem names_outline (contents : Contents) :
    (outline contents).map (·.1) = contents.map (·.1) := by
  rw [outline, List.map_map]
  rfl

/-- A document by its contents, in their order: those above all sections, and the sections. -/
structure Layout where
  top : Contents := []
  sections : List (String × Contents) := []

/-- What is known of the sections. -/
def Layout.outlines (layout : Layout) : List (String × Outline) :=
  layout.sections.map fun (name, contents) => (name, outline contents)

/-- Whether a text is a document with a layout: line by line, with keys and values in any form. -/
def Layout.Writes (layout : Layout) (text : String) : Prop :=
  ∃ lines rest, Toml.WritesSettings (outline layout.top) lines ∧
    Toml.WritesSections layout.outlines rest ∧
    text.toList = lines ++ rest

/-- Whether a section has the given settings and of the known ones no others. -/
def HasAmong (known : Known) : Option Contents → Prop
  | none => ∀ s ∈ known, s.2 = none
  | some contents => ∀ s ∈ known, contents.lookup s.1 = s.2.map some

/-- A layout with the given settings and of the known ones no others, in which all names are
distinct. -/
structure Given.IsLaidOut (g : Given) (layout : Layout) : Prop where
  distinct : (layout.top.map (·.1) ++ layout.sections.map (·.1)).Nodup
  distinct_settings : ∀ s ∈ layout.sections, (s.2.map (·.1)).Nodup
  /-- The sections are not written in one line. -/
  top : ∀ name ∈ ["client", "server", "logging"], name ∉ layout.top.map (·.1)
  client : HasAmong g.client.known (layout.sections.lookup "client")
  server : HasAmong g.server.known (layout.sections.lookup "server")
  logging : HasAmong g.logging.known (layout.sections.lookup "logging")

/-- What stands under a name in the contents stands there in the entries. -/
theorem get?_of_fits {contents : Contents} {entries : Entries}
    (h : (outline contents).Fits entries) (name : String) :
    match contents.lookup name with
    | none => entries.get? name = none
    | some v? => ∃ item, entries.get? name = some item ∧ Means v? item := by
  have hget := h.get? name
  rw [outline, Toml.lookup_map] at hget
  cases hlookup : contents.lookup name with
  | none => simpa [hlookup] using hget
  | some v? => simpa [hlookup] using hget

/-- A section that has the given settings among its contents has them in its table. -/
theorem has_of_hasAmong {known : Known} {layout : Layout} {root : Entries} {name : String}
    (hfits : (outline layout.top ++ Toml.tablesOf layout.outlines).Fits root)
    (htop : name ∉ layout.top.map (·.1)) (h : HasAmong known (layout.sections.lookup name)) :
    Has known (root.get? name) := by
  -- the section is no setting at the top, so it is looked up among the outlines
  have hget := hfits.get? name
  rw [List.lookup_append, outline, Toml.lookup_map,
    (Toml.lookup_eq_none_iff_not_mem _ _).mpr htop, Option.map_none, Option.none_or,
    Toml.tablesOf, Toml.lookup_map, Layout.outlines, Toml.lookup_map] at hget
  cases hlookup : layout.sections.lookup name with
  | none =>
    rw [hlookup] at h hget
    rw [show root.get? name = none from hget]
    exact h
  | some contents =>
    rw [hlookup] at h hget
    -- a section that is laid out was read as a table that fits it
    obtain ⟨_, htable, span, entries, rfl, hentries⟩ := hget
    rw [htable]
    intro s hs
    have hs' := get?_of_fits hentries s.1
    rw [h s hs] at hs'
    -- each setting of the section says what the table has for it
    cases hv : s.2 with
    | none =>
      rw [hv] at hs'
      exact hs'
    | some v =>
      rw [hv] at hs'
      obtain ⟨item, hitem, -, hmeans⟩ := hs'
      exact ⟨item, hitem, hmeans v rfl⟩

/-- A table can be read whose entries can be read. -/
theorem isReadable_of_forall (span : Toml.Span) (origin : Toml.Origin) {entries : Entries}
    (h : ∀ entry ∈ entries, entry.2.isReadable = true) :
    (Item.table span origin entries).isReadable = true := by
  rw [Item.isReadable, Item.within]
  induction entries with
  | nil => rfl
  | cons entry entries ih =>
    rw [List.forall_mem_cons] at h
    rw [Item.entriesWithin, ih h.2, Bool.and_true]
    exact h.1

/-- All contents of a section can be read. -/
theorem isReadable_of_mem_outline {contents : Contents} {known : String × (Item → Prop)}
    (h : known ∈ outline contents) (item : Item) (hitem : known.2 item) :
    item.isReadable = true := by
  obtain ⟨entry, -, rfl⟩ := List.mem_map.mp h
  exact hitem.1

/-- A written document is read as a tree with its settings. -/
theorem describes_of_isLaidOut {g : Given} {layout : Layout} (h : g.IsLaidOut layout)
    {text : String} (hwrites : layout.Writes text) :
    ∃ root, Toml.read? text.toList = some root ∧ g.Describes root ∧
      ∀ entry ∈ root, entry.2.isReadable = true := by
  obtain ⟨lines, rest, hlines, hsections, htext⟩ := hwrites
  -- an outline names the sections and the settings that the layout names
  have hnames : layout.outlines.map (·.1) = layout.sections.map (·.1) := by
    rw [Layout.outlines, List.map_map]
    rfl
  have hsettings : ∀ s ∈ layout.outlines, (s.2.map (·.1)).Nodup := by
    intro s hs
    obtain ⟨s', hs', rfl⟩ := List.mem_map.mp hs
    rw [names_outline]
    exact h.distinct_settings s' hs'
  -- distinct names, so the document is read, and what is read fits the outline
  obtain ⟨root, hfits, hread⟩ := Toml.read?_of_writes hlines hsections
    (by rw [names_outline, hnames]; exact h.distinct) hsettings
  refine ⟨root, by rw [htext]; exact hread, ⟨?_, ?_, ?_⟩, ?_⟩
  -- the three sections have what they are given
  · exact has_of_hasAmong hfits (h.top _ (by decide)) h.client
  · exact has_of_hasAmong hfits (h.top _ (by decide)) h.server
  · exact has_of_hasAmong hfits (h.top _ (by decide)) h.logging
  · -- all else, known or not, was written as a value that can be read
    refine hfits.forall (·.isReadable = true) fun known hknown item hitem => ?_
    rcases List.mem_append.mp hknown with htop | hsection
    · exact isReadable_of_mem_outline htop item hitem
    · obtain ⟨s, hs, rfl⟩ := List.mem_map.mp hsection
      obtain ⟨s', -, rfl⟩ := List.mem_map.mp hs
      obtain ⟨span, entries, rfl, hentries⟩ := hitem
      exact isReadable_of_forall span _
        (hentries.forall _ fun _ hknown => isReadable_of_mem_outline hknown)

/-! ### Every layout can be written -/

/-- The values among contents can be read. -/
def Contents.Readable (contents : Contents) : Prop :=
  ∀ s ∈ contents, ∀ v ∈ s.2, (v.item ⟨0, 0⟩).isReadable = true

/-- Where a value stands does not matter. -/
private theorem isReadable_item (v : Value) (span : Toml.Span) :
    (v.item span).isReadable = (v.item ⟨0, 0⟩).isReadable := by
  cases v <;> rfl

/-- Whatever an item should be, there is a text for it. -/
private theorem exists_isValue (v? : Option Value)
    (h : ∀ v ∈ v?, (v.item ⟨0, 0⟩).isReadable = true) : ∃ text, Toml.IsValue text (Means v?) := by
  cases v? with
  | none =>
    -- where nothing is asked for, an empty string does
    refine ⟨_, (Value.string "").isValue_text.mono fun item hitem => ?_⟩
    obtain ⟨span, rfl⟩ := hitem
    exact ⟨rfl, nofun⟩
  | some v =>
    -- the text of the value is read as the value
    refine ⟨_, v.isValue_text.mono fun item hitem => ?_⟩
    obtain ⟨span, rfl⟩ := hitem
    refine ⟨by rw [isReadable_item]; exact h v rfl, ?_⟩
    rintro _ ⟨⟩
    exact ⟨span, rfl⟩

private theorem exists_writesSettings (contents : Contents) (h : contents.Readable) :
    ∃ text, Toml.WritesSettings (outline contents) text := by
  induction contents with
  | nil => exact ⟨[], .nil⟩
  | cons s contents ih =>
    obtain ⟨value, hvalue⟩ := exists_isValue s.2 (h s List.mem_cons_self)
    obtain ⟨text, htext⟩ := ih fun s hs => h s (List.mem_cons_of_mem _ hs)
    exact ⟨_, .setting (Toml.isKey_quoted s.1) hvalue htext⟩

/-- Every layout can be written, in whatever order and under whatever names. -/
theorem exists_writes (layout : Layout) (htop : layout.top.Readable)
    (hsections : ∀ s ∈ layout.sections, s.2.Readable) : ∃ text, layout.Writes text := by
  obtain ⟨lines, hlines⟩ := exists_writesSettings layout.top htop
  have hrest : ∃ rest, Toml.WritesSections layout.outlines rest := by
    rw [Layout.outlines]
    generalize layout.sections = sections at hsections
    -- induction on the sections: each is written behind those in front
    induction sections with
    | nil => exact ⟨[], .nil⟩
    | cons s sections ih =>
      -- the name of a section is written with quotes, as any key can be
      obtain ⟨text, htext⟩ := exists_writesSettings s.2 (hsections s List.mem_cons_self)
      obtain ⟨rest, hrest⟩ := ih fun s hs => hsections s (List.mem_cons_of_mem _ hs)
      exact ⟨_, .section (Toml.isKey_quoted s.1) htext hrest⟩
  obtain ⟨rest, hrest⟩ := hrest
  exact ⟨String.ofList (lines ++ rest), lines, rest, hlines, hrest, String.toList_ofList⟩

/-- Those of the known settings that are given. -/
def Known.given (known : Known) : Contents :=
  known.filterMap fun (name, v?) => v?.map fun v => (name, some v)

theorem Known.names_given_sublist (known : Known) :
    (known.given.map (·.1)).Sublist (known.map (·.1)) := by
  induction known with
  | nil => exact .slnil
  | cons s known ih =>
    obtain ⟨name, _ | v⟩ := s
    · exact ih.cons name
    · exact ih.cons_cons name

/-- Among the settings that are given a setting is found if it is given. -/
theorem Known.hasAmong_given (known : Known) (h : (known.map (·.1)).Nodup) :
    HasAmong known (some known.given) := by
  -- induction on the settings: the first is found first, and no later one has its name
  induction known with
  | nil => nofun
  | cons s known ih =>
    obtain ⟨name, v?⟩ := s
    rw [List.map_cons, List.nodup_cons] at h
    have hlater : (Known.given known).lookup name = none :=
      (Toml.lookup_eq_none_iff_not_mem _ _).mpr
        fun hmem => h.1 ((Known.names_given_sublist known).subset hmem)
    intro s hs
    rcases List.mem_cons.mp hs with rfl | hs
    · cases v? with
      -- of a setting that is not given nothing is found
      | none => exact hlater
      | some v => simp [given]
    · -- a later setting is looked up behind the first
      have hne : s.1 ≠ name := fun heq => h.1 (List.mem_map.mpr ⟨s, hs, heq⟩)
      have hbeq : (s.1 == name) = false := beq_eq_false_iff_ne.mpr hne
      have hfound := ih h.2 s hs
      cases v? with
      | none => exact hfound
      | some v =>
        have hcons : Known.given ((name, some v) :: known) = (name, some v) :: Known.given known := rfl
        rw [hcons, List.lookup_cons, hbeq]
        exact hfound

/-- Whether the values of the known settings can be read. -/
private theorem Known.readable_given (known : Known)
    (h : ∀ s ∈ known, ∀ v ∈ s.2, (v.item ⟨0, 0⟩).isReadable = true) : known.given.Readable := by
  intro s hs v hv
  obtain ⟨⟨name, v?⟩, hmem, hgiven⟩ := List.mem_filterMap.mp hs
  obtain ⟨w, hw, rfl⟩ := Option.map_eq_some_iff.mp hgiven
  cases hv
  exact h _ hmem _ hw

/-- The given settings in their three sections. -/
def Given.layout (g : Given) : Layout where
  sections := [("client", g.client.known.given), ("server", g.server.known.given),
    ("logging", g.logging.known.given)]

theorem Given.isLaidOut_layout (g : Given) : g.IsLaidOut g.layout where
  distinct := by simp [layout]
  distinct_settings := by
    -- the three sections, each with the settings that are given
    simp only [layout, List.forall_mem_cons]
    exact ⟨(Known.names_given_sublist _).nodup (by simp [ClientGiven.known]),
      (Known.names_given_sublist _).nodup (by simp [ServerGiven.known]),
      (Known.names_given_sublist _).nodup (by simp [LoggingGiven.known]), nofun⟩
  top := by simp [layout]
  client := Known.hasAmong_given _ (by simp [ClientGiven.known])
  server := Known.hasAmong_given _ (by simp [ServerGiven.known])
  logging := Known.hasAmong_given _ (by simp [LoggingGiven.known])

/-- Strings and numbers of 64 bits can be read. -/
private theorem isReadable_unsigned (x : UInt64) :
    ((unsignedValue x).item ⟨0, 0⟩).isReadable = true := by
  have := x.toNat_lt
  simp only [unsignedValue, Value.item, Item.isReadable, Item.within, Bool.and_eq_true,
    decide_eq_true_eq]
  omega

/-- Whatever is given can be written. -/
theorem Given.exists_writes_layout (g : Given) : ∃ text, g.layout.Writes text := by
  have hstring (s : String) : ((Value.string s).item ⟨0, 0⟩).isReadable = true := rfl
  have hunsigned := isReadable_unsigned
  refine exists_writes _ nofun ?_
  simp only [layout, List.forall_mem_cons]
  refine ⟨Known.readable_given _ ?_, Known.readable_given _ ?_, Known.readable_given _ ?_, nofun⟩
  · simp [ClientGiven.known, hstring, hunsigned]
  · simp [ServerGiven.known, hstring, hunsigned]
  · simp [LoggingGiven.known, hstring]

/-! ### All of it -/

/-- How a document is read in which settings are given. -/
structure Merges (g : Given) : Prop where
  /-- A text that is read as a tree with the settings in it, and whose numbers can all be read. -/
  described : ∀ text root, Toml.read? text.toList = some root → g.Describes root →
    (∀ entry ∈ root, entry.2.isReadable = true) → parse text = verdict g.config
  /-- A text with a number in it that cannot be read is no document. -/
  unreadable : ∀ text root, Toml.read? text.toList = some root → g.Describes root →
    Schema.readable root = false → parse text = .error .malformed
  /-- A text that is written line by line, in whatever order and with whatever else in it. -/
  written : ∀ layout text, g.IsLaidOut layout → layout.Writes text →
    parse text = verdict g.config
  /-- There is such a text. -/
  writable : ∃ layout text, g.IsLaidOut layout ∧ layout.Writes text

/-- Whatever is given, a document is read as the defaults with the given settings in their places,
and this configuration is accepted or rejected. -/
theorem parse_given (g : Given) : Merges g where
  described _ _ hread hdescribes hreadable := parse_of_describes hread hdescribes hreadable
  unreadable _ _ hread hdescribes hunreadable :=
    parse_of_not_readable hread hdescribes hunreadable
  written _ _ hlaidOut hwrites := by
    -- a document so laid out is read as what it was written from
    obtain ⟨root, hread, hdescribes, hreadable⟩ := describes_of_isLaidOut hlaidOut hwrites
    exact parse_of_describes hread hdescribes hreadable
  writable := by
    obtain ⟨text, htext⟩ := g.exists_writes_layout
    exact ⟨g.layout, text, g.isLaidOut_layout, htext⟩

end Config

end OneShot
