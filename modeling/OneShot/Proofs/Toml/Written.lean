import OneShot.Proofs.Toml.Lines

/-!
# Documents are read as they were written

A document consists of settings and of sections, each of which is a header with settings below it,
and of blank lines wherever one likes. Keys are names, as they are or between quotes, and values are
whatever can be read up to the end of a line. Such a document is read as an entry for each setting
and a table for each section, in their order. What is known of the entries is an `Outline`.

## Key results

- `leads_settings`: settings are added to the lines of the open table in their order
- `leads_sections`: sections are added to the draft of the document in their order
- `read?_of_writes`: a document is read as its settings and the tables of its sections
-/

namespace OneShot.Toml

/-! ### Outlines -/

/-- What is known of the entries of a table, with their names and in their order. -/
abbrev Outline := List (String × (Item → Prop))

/-- Entries that are as an outline has them. -/
inductive Outline.Fits : Outline → Entries → Prop where
  | nil : Fits [] []
  | cons (name : String) {P : Item → Prop} {item : Item} {outline : Outline} {entries : Entries}
      (hitem : P item) (h : Fits outline entries) :
      Fits ((name, P) :: outline) ((name, item) :: entries)

/-- A table below a header of its own, with entries as an outline has them. -/
def Outline.IsTable (outline : Outline) (item : Item) : Prop :=
  ∃ span entries, item = .table span .header entries ∧ outline.Fits entries

/-- The outline of the tables of sections. -/
def tablesOf (sections : List (String × Outline)) : Outline :=
  sections.map fun (name, outline) => (name, outline.IsTable)

theorem Outline.Fits.append {first rest : Outline} {entries entries' : Entries}
    (h : first.Fits entries) (h' : rest.Fits entries') :
    (first ++ rest).Fits (entries ++ entries') := by
  induction h with
  | nil => exact h'
  | cons name hitem _ ih => exact .cons name hitem ih

/-- What holds of all items that an outline admits holds of the entries. -/
theorem Outline.Fits.forall {outline : Outline} {entries : Entries} (h : outline.Fits entries)
    (Q : Item → Prop) (hQ : ∀ known ∈ outline, ∀ item, known.2 item → Q item) :
    ∀ entry ∈ entries, Q entry.2 := by
  induction h with
  | nil => nofun
  | @cons name P item outline entries hitem _ ih =>
    rw [List.forall_mem_cons] at hQ ⊢
    exact ⟨hQ.1 item hitem, ih hQ.2⟩

/-- The names of the entries are those of the outline. -/
theorem Outline.Fits.names_eq {outline : Outline} {entries : Entries} (h : outline.Fits entries) :
    entries.map (·.1) = outline.map (·.1) := by
  induction h with
  | nil => rfl
  | cons name hitem _ ih => rw [List.map_cons, List.map_cons, ih]

/-- What stands under a name is found there after all of it has changed. -/
theorem lookup_map {α β : Type} (f : α → β) (xs : List (String × α)) (name : String) :
    (xs.map fun (n, x) => (n, f x)).lookup name = (xs.lookup name).map f := by
  induction xs with
  | nil => rfl
  | cons x xs ih =>
    rw [List.map_cons, List.lookup_cons, List.lookup_cons, ih]
    cases name == x.1 <;> rfl

/-- Nothing stands under a name that does not occur. -/
theorem lookup_eq_none_iff_not_mem {α : Type} (entries : List (String × α)) (name : String) :
    entries.lookup name = none ↔ name ∉ entries.map (·.1) := by
  rw [List.lookup_eq_none_iff, List.mem_map]
  constructor
  · rintro h ⟨entry, hentry, rfl⟩
    simpa using h entry hentry
  · intro h entry hentry
    simpa using fun heq : name = entry.1 => h ⟨entry, hentry, heq.symm⟩

/-- The entry with a name is as the outline has it, and is missing if the outline has none. -/
theorem Outline.Fits.get? {outline : Outline} {entries : Entries} (h : outline.Fits entries)
    (name : String) : match outline.lookup name with
      | none => entries.get? name = none
      | some P => ∃ item, entries.get? name = some item ∧ P item := by
  induction h with
  | nil => rfl
  | @cons other P item outline entries hitem _ ih =>
    rw [Entries.get?, List.lookup_cons, List.lookup_cons]
    cases name == other with
    | true => exact ⟨item, rfl, hitem⟩
    | false => exact ih

/-! ### Written settings -/

/-- A text that is read as a value, whatever the next lines are; `P` is what is known of it. -/
structure IsValue (text : List Char) (P : Item → Prop) : Prop where
  solid : ∀ rest, skipBlanks (text ++ '\n' :: rest) = text ++ '\n' :: rest
  read : ∀ rest, ∃ item, P item ∧ topValue? (text ++ '\n' :: rest) = some (item, '\n' :: rest)

theorem IsValue.mono {text : List Char} {P Q : Item → Prop} (h : IsValue text P)
    (hPQ : ∀ item, P item → Q item) : IsValue text Q where
  solid := h.solid
  read rest := by
    obtain ⟨item, hitem, hread⟩ := h.read rest
    exact ⟨item, hPQ item hitem, hread⟩

/-- A text whose lines are settings, with blank lines between them. -/
inductive WritesSettings : Outline → List Char → Prop where
  | nil : WritesSettings [] []
  | blank {outline : Outline} {text : List Char} (h : WritesSettings outline text) :
      WritesSettings outline ('\n' :: text)
  | setting {key value : List Char} {name : String} {P : Item → Prop} {outline : Outline}
      {text : List Char} (hkey : IsKey key name) (hvalue : IsValue value P)
      (h : WritesSettings outline text) :
      WritesSettings ((name, P) :: outline) (keyLine key value ++ text)

/-- Settings with new names are added in their order. -/
theorem leads_settings {outline : Outline} {text : List Char} (h : WritesSettings outline text)
    (d : Draft) (hdistinct : (outline.map (·.1)).Nodup)
    (hnew : ∀ known ∈ outline, d.lines.get? known.1 = none) (rest : List Char) :
    ∃ entries, outline.Fits entries ∧
      Leads d (text ++ rest) { d with lines := d.lines ++ entries } rest := by
  -- induction on the lines: each adds its setting to those in front
  induction h generalizing d with
  | nil => exact ⟨[], .nil, by simpa using Leads.refl d rest⟩
  | blank h ih =>
    obtain ⟨entries, hfits, hlines⟩ := ih d hdistinct hnew
    exact ⟨entries, hfits, (leads_blank d _).trans hlines⟩
  | @setting key value name P outline text hkey hvalue h ih =>
    rw [List.map_cons, List.nodup_cons] at hdistinct
    obtain ⟨item, hitem, hread⟩ := hvalue.read (text ++ rest)
    have hfirst := leads_setting d hkey (hnew _ List.mem_cons_self) value _ item
      (hvalue.solid _) hread
    -- the other names stay new, as they differ from the first
    have hstill : ∀ known ∈ outline,
        Entries.get? (d.lines ++ [(name, item)]) known.1 = none := by
      intro known hknown
      exact get?_append_of_ne d.lines name known.1 _ (hnew known (List.mem_cons_of_mem _ hknown))
        fun heq => hdistinct.1 (List.mem_map.mpr ⟨known, hknown, heq⟩)
    obtain ⟨entries, hfits, hothers⟩ :=
      ih { d with lines := d.lines ++ [(name, item)] } hdistinct.2 hstill
    refine ⟨(name, item) :: entries, .cons name hitem hfits, ?_⟩
    simpa using hfirst.trans hothers

/-! ### Written sections -/

/-- A text whose lines are sections, with blank lines between them. -/
inductive WritesSections : List (String × Outline) → List Char → Prop where
  | nil : WritesSections [] []
  | blank {sections : List (String × Outline)} {text : List Char}
      (h : WritesSections sections text) : WritesSections sections ('\n' :: text)
  | section {key lines : List Char} {name : String} {outline : Outline}
      {sections : List (String × Outline)} {text : List Char} (hkey : IsKey key name)
      (hlines : WritesSettings outline lines) (h : WritesSections sections text) :
      WritesSections ((name, outline) :: sections) (bracketLine key ++ (lines ++ text))

/-- Sections with new names are added in their order. -/
theorem leads_sections {sections : List (String × Outline)} {text : List Char}
    (h : WritesSections sections text) (d : Draft) (root : Entries) (hclose : d.close? = some root)
    (hdistinct : (sections.map (·.1)).Nodup)
    (hsettings : ∀ s ∈ sections, (s.2.map (·.1)).Nodup)
    (hnew : ∀ s ∈ sections, root.get? s.1 = none) (rest : List Char) :
    ∃ d' tables, (tablesOf sections).Fits tables ∧ Leads d (text ++ rest) d' rest ∧
      d'.close? = some (root ++ tables) := by
  -- induction on the sections: each opens behind the table that it closes
  induction h generalizing d root with
  | nil => exact ⟨d, [], .nil, Leads.refl d rest, by rw [hclose, List.append_nil]⟩
  | blank h ih =>
    obtain ⟨d', tables, hfits, hlines, hlast⟩ := ih d root hclose hdistinct hsettings hnew
    exact ⟨d', tables, hfits, (leads_blank d _).trans hlines, hlast⟩
  | @«section» key lines name outline sections text hkey hwrites h ih =>
    rw [List.map_cons, List.nodup_cons] at hdistinct
    obtain ⟨k, span, hopen⟩ := leads_header d root hclose hkey (hnew _ List.mem_cons_self)
      (lines ++ text ++ rest)
    obtain ⟨entries, hfits, hlines⟩ := leads_settings hwrites
      { root, header := some ⟨[⟨name, k⟩], false, span⟩ } (hsettings _ List.mem_cons_self)
      (fun _ _ => rfl) (text ++ rest)
    -- closing puts the table of the lines under its new name
    have hclosed : Draft.close?
        { root, header := some ⟨[⟨name, k⟩], false, span⟩, lines := [] ++ entries } =
          some (root ++ [(name, .table span .header entries)]) := by
      rw [← Entries.set_of_get?_eq_none _ _ _ (hnew _ List.mem_cons_self)]
      rfl
    -- the names of the others stay new
    have hstill : ∀ s ∈ sections,
        Entries.get? (root ++ [(name, .table span .header entries)]) s.1 = none := by
      intro s hs
      exact get?_append_of_ne root name s.1 _ (hnew s (List.mem_cons_of_mem _ hs))
        fun heq => hdistinct.1 (List.mem_map.mpr ⟨s, hs, heq⟩)
    obtain ⟨d', tables, htables, hothers, hlast⟩ := ih _ _ hclosed hdistinct.2
      (fun s hs => hsettings s (List.mem_cons_of_mem _ hs)) hstill
    refine ⟨d', _, .cons name ⟨span, entries, rfl, hfits⟩ htables, ?_, ?_⟩
    · rw [List.append_assoc, List.append_assoc]
      rw [List.append_assoc] at hopen
      exact hopen.trans (hlines.trans hothers)
    · rw [hlast, List.append_assoc]
      rfl

/-! ### Written documents -/

/-- Only a text that starts with a byte order mark has one. -/
private theorem dropMark_of_head (cs : List Char)
    (h : ∀ c ∈ cs.head?, c = '\n' ∨ c = '[' ∨ StartsKey c) : dropMark cs = cs := by
  cases cs with
  | nil => rfl
  | cons c cs =>
    -- the mark is no line feed and no bracket, and starts no key
    have hmark : c.toNat ≠ 0xFEFF := by
      intro hc
      have hchar : c = Char.ofNat 0xFEFF := by rw [← hc, Char.ofNat_toNat]
      subst hchar
      exact absurd (h _ rfl) (by decide)
    rw [dropMark, if_neg hmark]

private theorem WritesSettings.head_starts {outline : Outline} {text : List Char}
    (h : WritesSettings outline text) : ∀ c ∈ text.head?, c = '\n' ∨ StartsKey c := by
  cases h with
  | nil => nofun
  | blank h =>
    rintro _ ⟨⟩
    exact .inl rfl
  | setting hkey hvalue h =>
    obtain ⟨c, more, rfl, hstarts⟩ := hkey.starts
    rintro _ ⟨⟩
    exact .inr hstarts

private theorem WritesSections.head_starts {sections : List (String × Outline)}
    {text : List Char} (h : WritesSections sections text) :
    ∀ c ∈ text.head?, c = '\n' ∨ c = '[' := by
  cases h with
  | nil => nofun
  | blank h =>
    rintro _ ⟨⟩
    exact .inl rfl
  | «section» hkey hlines h =>
    rintro _ ⟨⟩
    exact .inr rfl

/-- A document is read as its settings and the tables of its sections. -/
theorem read?_of_writes {top : Outline} {sections : List (String × Outline)}
    {lines text : List Char} (hlines : WritesSettings top lines)
    (hsections : WritesSections sections text)
    (hdistinct : (top.map (·.1) ++ sections.map (·.1)).Nodup)
    (hsettings : ∀ s ∈ sections, (s.2.map (·.1)).Nodup) :
    ∃ root, (top ++ tablesOf sections).Fits root ∧ read? (lines ++ text) = some root := by
  obtain ⟨htop, hnames, hapart⟩ := List.nodup_append.mp hdistinct
  obtain ⟨entries, hfits, hleads⟩ := leads_settings hlines {} htop (fun _ _ => rfl) text
  -- no section is called like a setting at the top
  have hnew : ∀ s ∈ sections, Entries.get? entries s.1 = none := by
    intro s hs
    rw [Entries.get?, lookup_eq_none_iff_not_mem, hfits.names_eq]
    intro hname
    exact hapart _ hname _ (List.mem_map.mpr ⟨s, hs, rfl⟩) rfl
  obtain ⟨d, tables, htables, hothers, hclose⟩ := leads_sections hsections
    { lines := [] ++ entries } entries rfl hnames hsettings hnew []
  rw [List.append_nil] at hothers
  refine ⟨entries ++ tables, hfits.append htables, ?_⟩
  rw [read?_of_leads _ d ?_ (hleads.trans hothers), hclose]
  -- the text starts with a key, a bracket or a line break, and so with no mark
  refine dropMark_of_head _ fun c hc => ?_
  cases lines with
  | nil => exact (hsections.head_starts c hc).imp_right .inl
  | cons first lines => exact (hlines.head_starts c hc).imp_right .inr

end OneShot.Toml
