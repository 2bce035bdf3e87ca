import OneShot.Proofs.Toml.Scalars
import OneShot.Proofs.Toml.Written

/-!
# Plain documents are read as they were written

A plain document consists of sections, each a header and settings below it, where names are bare
words and values are strings and natural numbers. It is read as the tables of its sections, and each
table holds the settings as they were written.

## Key results

- `Value.topValue?_text`: a value is read as it was written
- `isPlain_writes`: the text of a plain document is one of its sections
- `read?_of_isPlain`: a plain document is read as the tables of its sections
-/

namespace OneShot.Toml

/-! ### Values -/

/-- A value of a plain document. -/
inductive Value where
  | string (s : String)
  | number (n : Nat)

namespace Value

/-- The written form. -/
def text : Value → List Char
  | string s => writeString s
  | number n => Nat.toDigits 10 n

/-- The item that a value is where it stands. -/
def item (span : Span) : Value → Item
  | string s => .string span s
  | number n => .integer span n

/-- A number is a word of digits. -/
private theorem toDigits_eq_cons (n : Nat) : ∃ c cs, Nat.toDigits 10 n = c :: cs ∧
    ∀ d ∈ c :: cs, d.isDigit = true := by
  obtain ⟨c, cs, hcons⟩ := List.exists_cons_of_ne_nil (Nat.toDigits_ne_nil (n := n) (b := 10))
  refine ⟨c, cs, hcons, fun d hd => ?_⟩
  exact Nat.isDigit_of_mem_toDigits (by decide) (by decide) (hcons ▸ hd)

/-- A value starts with a character that is no blank. -/
theorem skipBlanks_text (v : Value) (rest : List Char) :
    skipBlanks (v.text ++ rest) = v.text ++ rest := by
  cases v with
  | string s =>
    -- a string starts with a quote
    obtain ⟨q, cs, hcons, hq⟩ := writeString_eq_cons s
    rw [text, hcons]
    refine skipBlanks_cons q _ ?_
    rcases hq with rfl | rfl <;> decide
  | number n =>
    -- a number starts with a digit
    obtain ⟨c, cs, hcons, hdigits⟩ := toDigits_eq_cons n
    rw [text, hcons]
    refine skipBlanks_cons c _ (isSolid_of_isBareKeyChar c ?_)
    simp [isBareKeyChar, Char.isAlphanum, hdigits c List.mem_cons_self]

/-- A number is read up to the end of its line. -/
private theorem scalar?_toDigits (n : Nat) (rest : List Char) :
    ∃ span, scalar? (Nat.toDigits 10 n ++ '\n' :: rest) =
      some (.integer span n, '\n' :: rest) := by
  obtain ⟨c, cs, hcons, hdigits⟩ := toDigits_eq_cons n
  rw [← hcons] at hdigits
  -- the line break ends the run of digits
  have hrun : (Nat.toDigits 10 n ++ '\n' :: rest).takeWhile Scalar.isScalarChar =
      Nat.toDigits 10 n := by
    rw [List.takeWhile_append_of_pos, List.takeWhile_cons_of_neg (by decide), List.append_nil]
    intro d hd
    simp [Scalar.isScalarChar, Char.isAlphanum, hdigits d hd]
  refine ⟨.between (Nat.toDigits 10 n ++ '\n' :: rest) ('\n' :: rest), ?_⟩
  -- digits alone are no date, so they are a number
  simp [scalar?, hrun, Scalar.isDate_of_isDigit hdigits, Scalar.read?_toDigits]

/-- A value is read as it was written. -/
theorem topValue?_text (v : Value) (rest : List Char) :
    ∃ span, topValue? (v.text ++ '\n' :: rest) = some (v.item span, '\n' :: rest) := by
  cases v with
  | string s =>
    -- a string is written in quotes of one kind or the other, and read back
    obtain ⟨q, cs, hcons, hq⟩ := writeString_eq_cons s
    have hread := read?_writeString s ('\n' :: rest) (by simp) (by simp)
    refine ⟨.between (writeString s ++ '\n' :: rest) ('\n' :: rest), ?_⟩
    rw [text, hcons, List.cons_append] at *
    rcases hq with rfl | rfl
    · rw [topValue?, value?, hread]
      rfl
    · rw [topValue?, value?, hread]
      rfl
  | number n =>
    obtain ⟨span, hscalar⟩ := scalar?_toDigits n rest
    obtain ⟨c, cs, hcons, hdigits⟩ := toDigits_eq_cons n
    -- a number starts with a digit, which is none of the openings
    have hne : ∀ q, q.isDigit = false → ∀ t, Nat.toDigits 10 n ++ '\n' :: rest ≠ q :: t := by
      intro q hq t heq
      rw [hcons, List.cons_append] at heq
      rw [← (List.cons.inj heq).1, hdigits c List.mem_cons_self] at hq
      cases hq
    refine ⟨span, ?_⟩
    rw [text, topValue?, value?.eq_def]
    simp only
    -- a digit opens neither a string nor an array nor a table
    split
    · exact absurd ‹_› (hne '"' rfl _)
    · exact absurd ‹_› (hne '\'' rfl _)
    · exact absurd ‹_› (hne '[' rfl _)
    · exact absurd ‹_› (hne '{' rfl _)
    · exact hscalar

/-- Whether an item is a value, wherever it stands. -/
def Is (v : Value) (item : Item) : Prop := ∃ span, item = v.item span

/-- The written form of a value is read as the value. -/
theorem isValue_text (v : Value) : IsValue v.text v.Is where
  solid _ := v.skipBlanks_text _
  read rest := by
    obtain ⟨span, hread⟩ := v.topValue?_text rest
    exact ⟨_, ⟨span, rfl⟩, hread⟩

end Value

/-! ### Sections -/

/-- The line of a setting whose key is a bare word. -/
def settingLine (name : String) (value : List Char) : List Char := keyLine name.toList value

/-- The lines of settings. -/
def settingLines (settings : List (String × Value)) : List Char :=
  settings.flatMap fun (name, v) => settingLine name v.text

/-- The entries that settings are, wherever they stand. -/
inductive Holds : List (String × Value) → Entries → Prop where
  | nil : Holds [] []
  | cons (name : String) (v : Value) (span : Span) {settings : List (String × Value)}
      {entries : Entries} (h : Holds settings entries) :
      Holds ((name, v) :: settings) ((name, v.item span) :: entries)

namespace Holds

variable {settings : List (String × Value)} {entries : Entries}

/-- The entry with the name of a setting is its value. -/
theorem get? (h : Holds settings entries) (name : String) (v : Value)
    (hv : settings.lookup name = some v) : ∃ span, entries.get? name = some (v.item span) := by
  -- induction on the settings: the first with the name is found in both
  induction h with
  | nil => cases hv
  | @cons other w span settings entries _ ih =>
    rw [Entries.get?, List.lookup_cons]
    rw [List.lookup_cons] at hv
    cases heq : name == other with
    | true =>
      rw [heq] at hv
      exact ⟨span, by rw [← Option.some.inj hv]⟩
    | false =>
      rw [heq] at hv
      exact ih hv

/-- Where the numbers of the settings lie in some bounds, those of the entries do. -/
theorem entriesWithin (h : Holds settings entries) (low high : Int)
    (hwithin : ∀ s ∈ settings, (s.2.item ⟨0, 0⟩).within low high = true) :
    Item.entriesWithin low high entries = true := by
  induction h with
  | nil => rfl
  | cons name v span h ih =>
    have hfirst := hwithin _ List.mem_cons_self
    rw [Item.entriesWithin, ih fun s hs => hwithin s (List.mem_cons_of_mem _ hs), Bool.and_true]
    cases v with
    | string s => rfl
    | number n => exact hfirst

end Holds

/-- The outline of settings. -/
def outlineOf (settings : List (String × Value)) : Outline :=
  settings.map fun (name, v) => (name, v.Is)

/-- The lines of settings are settings. -/
theorem writesSettings_settingLines (settings : List (String × Value))
    (hbare : ∀ s ∈ settings, IsBare s.1) :
    WritesSettings (outlineOf settings) (settingLines settings) := by
  induction settings with
  | nil => exact .nil
  | cons setting settings ih =>
    exact .setting (isKey_of_isBare (hbare _ List.mem_cons_self)) setting.2.isValue_text
      (ih fun s hs => hbare s (List.mem_cons_of_mem _ hs))

/-- The entries of settings are the settings. -/
theorem holds_of_fits {settings : List (String × Value)} {entries : Entries}
    (h : (outlineOf settings).Fits entries) : Holds settings entries := by
  -- induction on the settings, each beside its entry
  induction settings generalizing entries with
  | nil =>
    cases h
    exact .nil
  | cons setting settings ih =>
    cases h with
    | cons name hitem h =>
      obtain ⟨span, rfl⟩ := hitem
      exact .cons _ _ span (ih h)

/-! ### Documents -/

/-- A section of a plain document, with the blank lines before it. -/
structure Section where
  gap : Nat := 0
  name : String
  settings : List (String × Value)

/-- The line of a header whose name is a bare word. -/
def headerLine (name : String) : List Char := bracketLine name.toList

/-- The lines of a section. -/
def Section.text (s : Section) : List Char :=
  List.replicate s.gap '\n' ++ (headerLine s.name ++ settingLines s.settings)

/-- What the sections of a plain document have to be. -/
structure IsPlain (sections : List Section) : Prop where
  distinct : (sections.map (·.name)).Nodup
  bare : ∀ s ∈ sections, IsBare s.name
  distinct_settings : ∀ s ∈ sections, (s.settings.map (·.1)).Nodup
  bare_settings : ∀ s ∈ sections, ∀ setting ∈ s.settings, IsBare setting.1

/-- The tables that sections are, wherever they stand. -/
inductive Tables : List Section → Entries → Prop where
  | nil : Tables [] []
  | cons (s : Section) (span : Span) {entries : Entries} {sections : List Section}
      {root : Entries} (hentries : Holds s.settings entries) (h : Tables sections root) :
      Tables (s :: sections) ((s.name, .table span .header entries) :: root)

/-- The outlines of sections, by name. -/
def outlinesOf (sections : List Section) : List (String × Outline) :=
  sections.map fun s => (s.name, outlineOf s.settings)

private theorem writesSections_gap {sections : List (String × Outline)} {text : List Char}
    (h : WritesSections sections text) (gap : Nat) :
    WritesSections sections (List.replicate gap '\n' ++ text) := by
  induction gap with
  | zero => exact h
  | succ gap ih => exact .blank ih

/-- The text of a plain document is one of its sections. -/
theorem isPlain_writes {sections : List Section} (hplain : IsPlain sections) (gap : Nat) :
    WritesSections (outlinesOf sections)
      (sections.flatMap Section.text ++ List.replicate gap '\n') := by
  obtain ⟨-, hbare, -, hkeys⟩ := hplain
  -- induction on the sections: the header, its lines and then the others
  induction sections with
  | nil => simpa [outlinesOf] using writesSections_gap .nil gap
  | cons s sections ih =>
    have hothers := ih (fun t ht => hbare t (List.mem_cons_of_mem s ht))
      (fun t ht => hkeys t (List.mem_cons_of_mem s ht))
    have hsection := WritesSections.section (isKey_of_isBare (hbare s List.mem_cons_self))
      (writesSettings_settingLines s.settings (hkeys s List.mem_cons_self)) hothers
    have hall := writesSections_gap hsection s.gap
    simpa [outlinesOf, Section.text, headerLine] using hall

/-- The tables of sections are the sections. -/
theorem tables_of_fits {sections : List Section} {root : Entries}
    (h : (tablesOf (outlinesOf sections)).Fits root) : Tables sections root := by
  -- induction on the sections, each beside its table
  induction sections generalizing root with
  | nil =>
    cases h
    exact .nil
  | cons s sections ih =>
    cases h with
    | cons name hitem h =>
      obtain ⟨span, entries, rfl, hfits⟩ := hitem
      exact .cons s span (holds_of_fits hfits) (ih h)

/-- A plain document is read as the tables of its sections. -/
theorem read?_of_isPlain (sections : List Section) (hplain : IsPlain sections) (gap : Nat) :
    ∃ root, Tables sections root ∧
      read? (sections.flatMap Section.text ++ List.replicate gap '\n') = some root := by
  have hnames : (outlinesOf sections).map (·.1) = sections.map (·.name) := by simp [outlinesOf]
  -- no section has a setting twice
  have hsettings : ∀ s ∈ outlinesOf sections, (s.2.map (·.1)).Nodup := by
    intro s hs
    obtain ⟨t, ht, rfl⟩ := List.mem_map.mp hs
    rw [outlineOf, List.map_map]
    exact hplain.distinct_settings t ht
  obtain ⟨root, hfits, hread⟩ := read?_of_writes .nil (isPlain_writes hplain gap)
    (by simpa [hnames] using hplain.distinct) hsettings
  exact ⟨root, tables_of_fits hfits, hread⟩

end OneShot.Toml
