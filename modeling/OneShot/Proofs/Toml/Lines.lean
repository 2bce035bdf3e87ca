import OneShot.Proofs.Toml.Strings
import OneShot.Toml.Parser

/-!
# Documents are read line by line

Reading a document takes one line after the other (`Leads`): a setting `key = value` is added to the
section that is open, and a header closes that section and opens the next. A key here is anything
that is read as one name (`IsKey`), and the value of a setting is anything that is read up to the
end of its line.

## Key results

- `isKey_of_isBare`, `isKey_quoted`: a name is a key, as it is or between quotes
- `leads_setting`, `leads_header`, `leads_blank`: what each line does to the draft of the document
- `read?_of_leads`: a document is read once no text is left
-/

namespace OneShot.Toml

/-! ### Steps -/

/-- From a draft and the text behind it, reading goes on with another draft and what is left. -/
def Leads (d : Draft) (cs : List Char) (d' : Draft) (rest : List Char) : Prop :=
  ∀ fuel, cs.length < fuel →
    ∃ fuel', rest.length < fuel' ∧ lines? fuel d cs = lines? fuel' d' rest

theorem Leads.trans {d d' d'' : Draft} {cs cs' cs'' : List Char} (h : Leads d cs d' cs')
    (h' : Leads d' cs' d'' cs'') : Leads d cs d'' cs'' := by
  intro fuel hfuel
  obtain ⟨fuel', hfuel', heq⟩ := h fuel hfuel
  obtain ⟨fuel'', hfuel'', heq'⟩ := h' fuel' hfuel'
  exact ⟨fuel'', hfuel'', heq.trans heq'⟩

theorem Leads.refl (d : Draft) (cs : List Char) : Leads d cs d cs :=
  fun fuel hfuel => ⟨fuel, hfuel, rfl⟩

/-- A document is read once no text is left. -/
theorem read?_of_leads (cs : List Char) (d : Draft) (hmark : dropMark cs = cs)
    (h : Leads {} cs d []) : read? cs = d.close? := by
  obtain ⟨fuel, hfuel, heq⟩ := h (cs.length + 1) (Nat.lt_succ_self _)
  -- some fuel is left, which is all that an empty text needs
  obtain ⟨fuel, rfl⟩ := Nat.exists_eq_succ_of_ne_zero (Nat.ne_of_gt hfuel)
  have hlines : lines? (cs.length + 1) {} cs = some d := heq
  simp [read?, hmark, hlines]

/-! ### Blanks -/

/-- A character with which neither blanks nor a comment nor a line break begin. -/
def IsSolid (c : Char) : Prop := c ∉ [' ', '\t', '#', '\n', '\r']

instance : DecidablePred IsSolid := fun c => inferInstanceAs (Decidable (c ∉ _))

/-- A solid character is no blank. -/
theorem skipBlanks_cons (c : Char) (cs : List Char) (h : IsSolid c) :
    skipBlanks (c :: cs) = c :: cs := by
  simp only [IsSolid, List.mem_cons, List.not_mem_nil, or_false, not_or] at h
  rw [skipBlanks, List.dropWhile_cons_of_neg]
  simp [QuotedString.isSpaceOrTab, h]

/-- A solid character is not skipped. -/
theorem skipSpace_cons (c : Char) (cs : List Char) (h : IsSolid c) :
    skipSpace (c :: cs) = c :: cs := by
  have hblanks := skipBlanks_cons c cs h
  simp only [IsSolid, List.mem_cons, List.not_mem_nil, or_false, not_or] at h
  obtain ⟨-, -, hcomment, hfeed, hreturn⟩ := h
  -- such a character opens neither a line break nor a comment
  have hbreak : QuotedString.afterLineBreak? (c :: cs) = none := by
    unfold QuotedString.afterLineBreak?
    split
    · exact absurd (List.cons.inj ‹_›).1 hfeed
    · exact absurd (List.cons.inj ‹_›).1 hreturn
    · rfl
  -- nor a comment, so nothing is skipped
  have hskip : skipComment (c :: cs) = c :: cs := by
    unfold skipComment
    split
    · exact absurd (List.cons.inj ‹_›).1 hcomment
    · rfl
  rw [skipSpace, List.length_cons, skipLines]
  simp only [hblanks, hskip, hbreak]

theorem leads_blank (d : Draft) (rest : List Char) : Leads d ('\n' :: rest) d rest := by
  intro fuel hfuel
  refine ⟨fuel, Nat.lt_of_succ_lt hfuel, ?_⟩
  cases fuel with
  | zero => rfl
  | succ fuel => rfl

/-- A line that holds no more than a header or a setting is taken as a whole. -/
private theorem leads_of_line {d d' : Draft} {cs rest : List Char}
    (hspace : skipSpace cs = cs) (hlength : rest.length < cs.length)
    (hline : line? d cs = some (d', '\n' :: rest)) : Leads d cs d' rest := by
  intro fuel hfuel
  obtain ⟨fuel, rfl⟩ := Nat.exists_eq_succ_of_ne_zero (Nat.ne_of_gt (Nat.zero_lt_of_lt hfuel))
  refine ⟨fuel, by omega, ?_⟩
  have hend : endOfLine? ('\n' :: rest) = some rest := rfl
  rw [lines?, hspace]
  cases cs with
  | nil => exact absurd hlength (Nat.not_lt_zero _)
  | cons c cs => simp [hline, hend]

/-! ### Keys -/

/-- A name that is a key without quotes. -/
def IsBare (name : String) : Prop :=
  name.toList ≠ [] ∧ ∀ c ∈ name.toList, isBareKeyChar c = true

instance : DecidablePred IsBare := fun name =>
  decidable_of_iff (name.toList.isEmpty = false ∧ name.toList.all isBareKeyChar = true)
    (by simp [IsBare])

/-- What no bare word holds differs from its characters. -/
private theorem ne_of_isBareKeyChar {c d : Char} (hc : isBareKeyChar c = true)
    (hd : isBareKeyChar d = false) : c ≠ d :=
  ne_of_apply_ne isBareKeyChar (by rw [hc, hd]; decide)

theorem isSolid_of_isBareKeyChar (c : Char) (h : isBareKeyChar c = true) : IsSolid c := by
  have hne := fun d => ne_of_isBareKeyChar (d := d) h
  simp only [IsSolid, List.mem_cons, List.not_mem_nil, or_false, not_or]
  exact ⟨hne _ rfl, hne _ rfl, hne _ rfl, hne _ rfl, hne _ rfl⟩

/-- A bare word is a key up to the first character that it cannot hold. -/
theorem simpleKey?_of_isBare (name : String) (hname : IsBare name) (rest : List Char)
    (hend : ∀ c ∈ rest.head?, isBareKeyChar c = false) :
    simpleKey? (name.toList ++ rest) =
      some (⟨name, .between (name.toList ++ rest) rest⟩, rest) := by
  obtain ⟨hne, hbare⟩ := hname
  -- the key ends where a character stands that is none of its own
  have hword : (name.toList ++ rest).takeWhile isBareKeyChar = name.toList := by
    rw [List.takeWhile_append_of_pos hbare]
    cases rest with
    | nil => simp
    | cons c rest => simp [hend c rfl]
  obtain ⟨c, word, hcons⟩ := List.exists_cons_of_ne_nil hne
  -- a bare key opens no quotes
  have hfirst : ∀ d t, isBareKeyChar d = false → name.toList ++ rest ≠ d :: t := by
    intro d t hd heq
    rw [hcons, List.cons_append] at heq
    exact ne_of_isBareKeyChar (hbare c (hcons ▸ List.mem_cons_self)) hd (List.cons.inj heq).1
  unfold simpleKey?
  split
  · exact absurd ‹_› (hfirst '"' _ rfl)
  · exact absurd ‹_› (hfirst '\'' _ rfl)
  · rw [hword]
    split
    · exact absurd ‹_› hne
    · rw [List.drop_left, String.ofList_toList]

/-- A name is the whole of a key if no point follows. -/
theorem key?_of_simpleKey? {k : Key} {cs rest : List Char} (hne : cs ≠ [])
    (h : simpleKey? cs = some (k, rest)) (hpoint : (skipBlanks rest).head? ≠ some '.') :
    key? cs = some ([k], skipBlanks rest) := by
  have hlength : cs.length ≠ 0 := by simpa using hne
  obtain ⟨fuel, hfuel⟩ := Nat.exists_eq_succ_of_ne_zero hlength
  rw [key?, hfuel, keyParts?, h]
  simp only [Option.bind_eq_bind, Option.bind_some]
  split
  · rename_i hdot
    exact absurd (by rw [hdot]; rfl) hpoint
  · rfl

/-- A character that a key can start with. -/
def StartsKey (c : Char) : Prop := isBareKeyChar c = true ∨ c = '"'

instance : DecidablePred StartsKey := fun _ => inferInstanceAs (Decidable (_ ∨ _))

/-- A text that is read as a key of one name. -/
structure IsKey (text : List Char) (name : String) : Prop where
  starts : ∃ c rest, text = c :: rest ∧ StartsKey c
  read : ∀ rest, (∀ c ∈ rest.head?, isBareKeyChar c = false) →
    ∃ span, simpleKey? (text ++ rest) = some (⟨name, span⟩, rest)

theorem StartsKey.isSolid {c : Char} (h : StartsKey c) : IsSolid c := by
  rcases h with h | rfl
  · exact isSolid_of_isBareKeyChar c h
  · decide

/-- A key does not start as a header does. -/
theorem StartsKey.ne_bracket {c : Char} (h : StartsKey c) : c ≠ '[' := by
  rcases h with h | rfl
  · exact ne_of_isBareKeyChar h rfl
  · decide

/-- A bare word is a key. -/
theorem isKey_of_isBare {name : String} (h : IsBare name) : IsKey name.toList name where
  starts := by
    obtain ⟨c, word, hcons⟩ := List.exists_cons_of_ne_nil h.1
    exact ⟨c, word, hcons, .inl (h.2 c (hcons ▸ List.mem_cons_self))⟩
  read rest hend := ⟨_, simpleKey?_of_isBare name h rest hend⟩

/-- Between quotes every name is a key. -/
theorem isKey_quoted (name : String) :
    IsKey ('"' :: (escapeBasic name.toList ++ ['"'])) name where
  starts := ⟨'"', _, rfl, .inr rfl⟩
  read rest _ := by
    have hread := basic_escapeBasic [] name.toList rest
    refine ⟨.between ('"' :: (escapeBasic name.toList ++ ['"']) ++ rest) rest, ?_⟩
    simp [simpleKey?, QuotedString.readSingle?, hread]

/-- A key ends where something else begins, if no point follows. -/
theorem IsKey.key?_eq {text : List Char} {name : String} (h : IsKey text name) (rest : List Char)
    (hend : ∀ c ∈ rest.head?, isBareKeyChar c = false)
    (hpoint : (skipBlanks rest).head? ≠ some '.') :
    ∃ span, key? (text ++ rest) = some ([⟨name, span⟩], skipBlanks rest) := by
  obtain ⟨c, more, hcons, -⟩ := h.starts
  obtain ⟨span, hread⟩ := h.read rest hend
  exact ⟨span, key?_of_simpleKey? (by simp [hcons]) hread hpoint⟩

/-! ### Settings -/

/-- The line of a setting. -/
def keyLine (key value : List Char) : List Char := key ++ [' ', '=', ' '] ++ value ++ ['\n']

/-- A new name is added at the end. -/
theorem Entries.set_of_get?_eq_none (name : String) (item : Item) (es : Entries)
    (h : es.get? name = none) : es.set name item = es ++ [(name, item)] := by
  -- induction on the entries, of which none has the name
  induction es with
  | nil => rfl
  | cons entry es ih =>
    obtain ⟨other, old⟩ := entry
    rw [Entries.get?, List.lookup_cons] at h
    split at h
    · cases h
    · rename_i hne
      rw [Entries.set, if_neg (fun heq => by simp [heq] at hne), ih h]
      rfl

/-- An entry leaves other names as they are. -/
theorem get?_append_of_ne (es : Entries) (name other : String) (item : Item)
    (h : es.get? other = none) (hne : other ≠ name) :
    Entries.get? (es ++ [(name, item)]) other = none := by
  have hbeq : (other == name) = false := beq_eq_false_iff_ne.mpr hne
  rw [Entries.get?] at h
  simp [Entries.get?, List.lookup_append, h, List.lookup_cons, hbeq]

/-- A setting with a new name is added to the lines of its table. -/
theorem Entries.addLine?_of_get?_eq_none (key : Key) (item : Item) (es : Entries)
    (h : es.get? key.name = none) :
    es.addLine? [key] item = some (es ++ [(key.name, item)]) := by
  rw [Entries.addLine?, if_pos (show Entries.holdsDotted [key] es = true from rfl),
    Entries.alter?, h, ← Entries.set_of_get?_eq_none _ _ _ h]
  rfl

/-- A setting is added to the lines below the open header. -/
theorem leads_setting (d : Draft) {key : List Char} {name : String} (hkey : IsKey key name)
    (hnew : d.lines.get? name = none) (value rest : List Char) (item : Item)
    (hsolid : skipBlanks (value ++ '\n' :: rest) = value ++ '\n' :: rest)
    (hvalue : topValue? (value ++ '\n' :: rest) = some (item, '\n' :: rest)) :
    Leads d (keyLine key value ++ rest) { d with lines := d.lines ++ [(name, item)] } rest := by
  obtain ⟨c, word, hcons, hstarts⟩ := hkey.starts
  have hshape : keyLine key value ++ rest =
      key ++ ' ' :: '=' :: ' ' :: (value ++ '\n' :: rest) := by
    simp [keyLine]
  obtain ⟨span, hread⟩ := hkey.key?_eq (' ' :: '=' :: ' ' :: (value ++ '\n' :: rest))
    (by rintro _ ⟨⟩; rfl) (by nofun)
  -- the key, the equals sign and the blank are taken off, and the value is left
  have hpart : keyAndEquals? (keyLine key value ++ rest) =
      some ([⟨name, span⟩], value ++ '\n' :: rest) := by
    rw [keyAndEquals?, hshape, hread]
    exact congrArg (fun cs => some (_, cs)) hsolid
  -- the key is new, so the line goes behind the others
  have hadd : d.addLine? [⟨name, span⟩] item =
      some { d with lines := d.lines ++ [(name, item)] } := by
    rw [Draft.addLine?, Entries.addLine?_of_get?_eq_none _ _ _ hnew]
    rfl
  refine leads_of_line ?_ (by simp [keyLine]; omega) ?_
  · rw [hshape, hcons]
    exact skipSpace_cons c _ hstarts.isSolid
  · unfold line?
    split
    · -- a key does not open a header
      rename_i hopen
      rw [hshape, hcons] at hopen
      exact absurd (List.cons.inj hopen).1 hstarts.ne_bracket
    · simp [hpart, hvalue, hadd]

/-! ### Headers -/

/-- The line of a header. -/
def bracketLine (key : List Char) : List Char := '[' :: (key ++ [']', '\n'])

/-- A header closes the section that is open and opens the next. -/
theorem leads_header (d : Draft) (root : Entries) (hclose : d.close? = some root)
    {text : List Char} {name : String} (hname : IsKey text name) (hnew : root.get? name = none)
    (rest : List Char) :
    ∃ key span, Leads d (bracketLine text ++ rest)
      { root, header := some ⟨[⟨name, key⟩], false, span⟩ } rest := by
  obtain ⟨c, word, hcons, hstarts⟩ := hname.starts
  have hshape : bracketLine text ++ rest = '[' :: (text ++ ']' :: '\n' :: rest) := by
    simp [bracketLine]
  obtain ⟨key, hkey⟩ := hname.key?_eq (']' :: '\n' :: rest) (by rintro _ ⟨⟩; rfl) (by nofun)
  -- no blank stands in front of the name
  have hblanks : skipBlanks (text ++ ']' :: '\n' :: rest) = text ++ ']' :: '\n' :: rest := by
    rw [hcons]
    exact skipBlanks_cons c _ hstarts.isSolid
  obtain ⟨span, hheader⟩ : ∃ span, header? (bracketLine text ++ rest) =
      some (⟨[⟨name, key⟩], false, span⟩, '\n' :: rest) := by
    refine ⟨.between (bracketLine text ++ rest) ('\n' :: rest), ?_⟩
    rw [hshape]
    unfold header?
    split
    · -- the name is no second bracket
      rename_i hdouble
      rw [hcons] at hdouble
      have hfirst := (List.cons.inj (List.cons.inj hdouble).2).1
      exact absurd hfirst hstarts.ne_bracket
    · rename_i hsingle
      rw [← (List.cons.inj hsingle).2, hblanks, hkey]
      rfl
    · rename_i hnone
      exact (hnone _ rfl).elim
  -- the name is new, so the header opens a table of its own
  have hopen : d.open? ⟨[⟨name, key⟩], false, span⟩ =
      some { root, header := some ⟨[⟨name, key⟩], false, span⟩ } := by
    have hfind : Entries.find? [⟨name, key⟩] root = none := hnew
    simp [Draft.open?, hclose, hfind]
  refine ⟨key, span, leads_of_line ?_ (by simp [bracketLine]; omega) ?_⟩
  · rw [hshape]
    exact skipSpace_cons '[' _ (by decide)
  · rw [hshape] at hheader ⊢
    simp [line?, hheader, hopen]

end OneShot.Toml
