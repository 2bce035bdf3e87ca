import Mathlib.Data.List.Forall2
import OneShot.Proofs.Json.Lacking
import OneShot.Proofs.Message.Reading

/-!
# What is read as a message

The language of messages without the reader: an object is a row of members, each with the text that
its key denotes and the bytes of its value, and `Describes` says of the members as a whole which
message they make up. `Spells`, by which the reader is described member by member, is the same
language; the two meet in `Gives`, what one member gives.

## Key results

- `Represents`: the documents that stand for a message
- `spells_iff`: they are the spellings of the message
- `decode_eq_ok_iff_represents`: a payload is read as a message exactly if it is one of them, with
  white space around it
-/

namespace OneShot.Message

open Json
open Json.StringBody (Denotes)
open Json.Numeral (IntegerLiteral)

/-! ### Documents -/

/-- A string with its quotes, for the text that it denotes. -/
def StringLiteral (v : Bytes) (s : String) : Prop :=
  ∃ spelling, Denotes spelling s ∧ v = quoteByte :: (spelling ++ [quoteByte])

/-- The members of an object describe a message if its text and its identifier occur once each, and
every other member has a value of the language. -/
structure Describes (members : List (String × Bytes)) (m : Message) : Prop where
  text : ∃ v, members.filter (·.1 = "text") = [("text", v)] ∧ StringLiteral v m.text
  id : ∃ v, members.filter (·.1 = "id") = [("id", v)] ∧ IntegerLiteral v m.id.toInt
  others : ∀ p ∈ members, p.1 ≠ "text" → p.1 ≠ "id" → WellFormed p.2

/-- The documents that stand for a message. -/
inductive Represents : Bytes → Message → Prop
  /-- An object whose members describe it. -/
  | object {row : Bytes} {members : List (String × Bytes)} {m : Message}
      (hrow : Row (Pair Denotes) true members row) (h : Describes members m) :
      Represents (openBrace :: (row ++ [closeBrace])) m
  /-- A list of its text and its identifier. -/
  | list {row t i : Bytes} {m : Message} (hrow : Row Eq true [t, i] row)
      (ht : StringLiteral t m.text) (hi : IntegerLiteral i m.id.toInt) :
      Represents (openBracket :: (row ++ [closeBracket])) m

/-! ### One member -/

/-- What a member with a key and a value gives of a message. -/
def Gives (p : String × Bytes) : Field → Prop
  | .text s => p.1 = "text" ∧ StringLiteral p.2 s
  | .id n => p.1 = "id" ∧ IntegerLiteral p.2 n.toInt
  | .other => p.1 ≠ "text" ∧ p.1 ≠ "id" ∧ WellFormed p.2

/-- A value gives the same with white space before it. -/
private theorem value_iff (name : String) (bs : Bytes) (f : Field) :
    Value name bs f ↔ ∃ space v, Spaces space ∧ Gives (name, v) f ∧ bs = space ++ v := by
  constructor
  · intro h
    -- a value of no interest is passed over by the machine, which takes the well formed ones
    cases h with
    | text hspace hv => exact ⟨_, _, hspace, ⟨rfl, _, hv, rfl⟩, rfl⟩
    | id hspace hv => exact ⟨_, _, hspace, ⟨rfl, hv⟩, rfl⟩
    | other htext hid hv =>
      obtain ⟨space, v, hspace, hwf, rfl⟩ := (Skip.skip_eq_ok_nil_iff bs).mp hv
      exact ⟨space, v, hspace, ⟨htext, hid, hwf⟩, rfl⟩
  · intro h
    -- the field says under which key the value stands
    obtain ⟨space, v, hspace, hgives, rfl⟩ := h
    cases f with
    | text s =>
      obtain ⟨hname, spelling, hspelling, hv⟩ := hgives
      dsimp only at hname hv
      rw [hname, hv]
      exact .text hspace hspelling
    | id n =>
      obtain ⟨hname, hv⟩ := hgives
      dsimp only at hname
      rw [hname]
      exact .id hspace hv
    | other =>
      obtain ⟨htext, hid, hwf⟩ := hgives
      exact .other htext hid ((Skip.skip_eq_ok_nil_iff _).mpr ⟨space, v, hspace, hwf, rfl⟩)

/-- A member with its opening quote is a key and a value. -/
private theorem exists_pair_of_member (bytes : Bytes) (f : Field) (h : Member bytes f) :
    ∃ p, Pair Denotes p (quoteByte :: bytes) ∧ Gives p f := by
  obtain ⟨hkey, hspace, hv⟩ := h
  rename_i key space v name
  obtain ⟨space', v', hspace', hgives, rfl⟩ := (value_iff name v f).mp hv
  exact ⟨(name, v'), .mk hkey hspace hspace', hgives⟩

/-- A key and a value are a member with its opening quote. -/
private theorem exists_member_of_pair (p : String × Bytes) (item : Bytes) (f : Field)
    (h : Pair Denotes p item) (hgives : Gives p f) :
    ∃ bytes, item = quoteByte :: bytes ∧ Member bytes f := by
  obtain ⟨hkey, hspace, hspace'⟩ := h
  exact ⟨_, rfl, .mk hkey hspace ((value_iff _ _ f).mpr ⟨_, _, hspace', hgives, rfl⟩)⟩

/-- A string with its quotes is a value. -/
theorem wellFormed_of_stringLiteral {v : Bytes} {s : String} (h : StringLiteral v s) :
    WellFormed v := by
  obtain ⟨spelling, hspelling, rfl⟩ := h
  exact .string (quotable_of_unescapes hspelling)

/-- What gives anything of a message is a value. -/
private theorem wellFormed_of_gives (p : String × Bytes) (f : Field) (h : Gives p f) :
    WellFormed p.2 := by
  cases f with
  | text s => exact wellFormed_of_stringLiteral h.2
  | id n => exact wellFormed_of_integerLiteral h.2
  | other => exact h.2.2

/-! ### All members -/

/-- A body is a row of members, each of which gives its field. -/
private theorem exists_row_of_body (first : Bool) (body : Bytes) (fs : List Field)
    (h : Body first body fs) :
    ∃ members, Row (Pair Denotes) first members body ∧ List.Forall₂ Gives members fs := by
  induction h with
  | close hspace => exact ⟨[], .nil hspace, .nil⟩
  | @first space member body f fs hspace hmember hbody ih =>
    obtain ⟨members, hrow, hall⟩ := ih
    obtain ⟨p, hp, hgives⟩ := exists_pair_of_member member f hmember
    exact ⟨p :: members, .first hspace hp hrow, .cons hgives hall⟩
  | @next space space' member body f fs hspace hspace' hmember hbody ih =>
    obtain ⟨members, hrow, hall⟩ := ih
    obtain ⟨p, hp, hgives⟩ := exists_pair_of_member member f hmember
    exact ⟨p :: members, .next hspace hspace' hp hrow, .cons hgives hall⟩

/-- A row of members is a body of the fields they give. -/
private theorem body_of_row (first : Bool) (members : List (String × Bytes)) (row : Bytes)
    (fs : List Field) (h : Row (Pair Denotes) first members row)
    (hall : List.Forall₂ Gives members fs) : Body first row fs := by
  -- induction on the row: each pair gives the field beside it
  induction h generalizing fs with
  -- an empty row has no fields
  | nil hspace =>
    cases hall
    exact .close hspace
  | first hspace hitem hrow ih =>
    obtain _ | ⟨hgives, hall⟩ := hall
    obtain ⟨member, rfl, hmember⟩ := exists_member_of_pair _ _ _ hitem hgives
    exact .first hspace hmember (ih _ hall)
  | next hspace hspace' hitem hrow ih =>
    obtain _ | ⟨hgives, hall⟩ := hall
    obtain ⟨member, rfl, hmember⟩ := exists_member_of_pair _ _ _ hitem hgives
    exact .next hspace hspace' hmember (ih _ hall)

/-- The members with the key of a text give the texts, and those with the key of an identifier the
identifiers. -/
private theorem forall₂_filter (members : List (String × Bytes)) (fs : List Field)
    (h : List.Forall₂ Gives members fs) :
    List.Forall₂ (fun p s => StringLiteral p.2 s) (members.filter (·.1 = "text"))
        (fs.filterMap Field.text?) ∧
      List.Forall₂ (fun p (n : Int64) => IntegerLiteral p.2 n.toInt)
        (members.filter (·.1 = "id")) (fs.filterMap Field.id?) := by
  -- induction on the members, of which each counts under its own key only
  induction h with
  | nil => exact ⟨.nil, .nil⟩
  | @cons p f members fs hgives hall ih =>
    cases f with
    -- kept under the key of texts, passed over under the other
    | text s =>
      obtain ⟨hname, hv⟩ := hgives
      simp only [List.filter_cons, hname, List.filterMap_cons, Field.text?, Field.id?]
      exact ⟨.cons hv ih.1, ih.2⟩
    | id n =>
      obtain ⟨hname, hv⟩ := hgives
      simp only [List.filter_cons, hname, List.filterMap_cons, Field.text?, Field.id?]
      exact ⟨ih.1, .cons hv ih.2⟩
    | other =>
      obtain ⟨htext, hid, -⟩ := hgives
      simp only [List.filter_cons, htext, hid, List.filterMap_cons, Field.text?, Field.id?]
      exact ih

/-- What is given once under a key is given by a single member with that key. -/
private theorem exists_filter_eq {α : Type} (S : Bytes → α → Prop) (name : String) (x : α)
    (members : List (String × Bytes))
    (h : List.Forall₂ (fun p x => S p.2 x) (members.filter (·.1 = name)) [x]) :
    ∃ v, members.filter (·.1 = name) = [(name, v)] ∧ S v x := by
  obtain ⟨⟨name', v⟩, others, hv, hothers, hfilter⟩ := List.forall₂_cons_right_iff.mp h
  rw [List.forall₂_nil_right_iff.mp hothers] at hfilter
  have hmem : (name', v) ∈ members.filter (·.1 = name) := by simp [hfilter]
  obtain rfl : name' = name := by simpa using (List.mem_filter.mp hmem).2
  exact ⟨v, hfilter, hv⟩

/-- What a member with a key has to give of a message. -/
private def due (m : Message) (p : String × Bytes) : Field :=
  if p.1 = "text" then .text m.text else if p.1 = "id" then .id m.id else .other

/-- Text and identifier are due once for each member with their key. -/
private theorem filterMap_due (m : Message) (members : List (String × Bytes)) :
    (members.map (due m)).filterMap Field.text? =
        List.replicate (members.filter (·.1 = "text")).length m.text ∧
      (members.map (due m)).filterMap Field.id? =
        List.replicate (members.filter (·.1 = "id")).length m.id := by
  induction members with
  | nil => exact ⟨rfl, rfl⟩
  | cons p members ih =>
    by_cases htext : p.1 = "text"
    · simp [due, htext, List.filterMap_cons, Field.text?, Field.id?, ih, List.replicate_succ]
    · by_cases hid : p.1 = "id"
      · simp [due, hid, List.filterMap_cons, Field.text?, Field.id?, ih, List.replicate_succ]
      · simp [due, htext, hid, List.filterMap_cons, Field.text?, Field.id?, ih]

/-- Members that describe a message give what is due. -/
private theorem Describes.gives {members : List (String × Bytes)} {m : Message}
    (h : Describes members m) (p : String × Bytes) (hp : p ∈ members) : Gives p (due m p) := by
  -- the only member with a key has the value that goes with it
  have hvalue : ∀ name v, members.filter (·.1 = name) = [(name, v)] → p.1 = name → p.2 = v := by
    intro name v hfilter hname
    have hmem : p ∈ members.filter (·.1 = name) := List.mem_filter.mpr ⟨hp, by simpa using hname⟩
    rw [hfilter, List.mem_singleton] at hmem
    rw [hmem]
  obtain ⟨t, ht, htext⟩ := h.text
  obtain ⟨i, hi, hid⟩ := h.id
  unfold due
  split
  · -- the key of texts
    rename_i hname
    exact ⟨hname, by rwa [hvalue _ t ht hname]⟩
  · rename_i hne
    split
    · rename_i hname
      exact ⟨hname, by rwa [hvalue _ i hi hname]⟩
    · -- another key, under which any value may stand
      rename_i hne'
      exact ⟨hne, hne', h.others p hp hne hne'⟩

/-- The fields that members give make up a message exactly if the members describe it. -/
private theorem exists_fields_iff (members : List (String × Bytes)) (m : Message) :
    (∃ fs, List.Forall₂ Gives members fs ∧ fs.filterMap Field.text? = [m.text] ∧
      fs.filterMap Field.id? = [m.id]) ↔ Describes members m := by
  constructor
  · intro h
    obtain ⟨fs, hall, htext, hid⟩ := h
    obtain ⟨htexts, hids⟩ := forall₂_filter members fs hall
    rw [htext] at htexts
    rw [hid] at hids
    refine ⟨exists_filter_eq StringLiteral _ _ members htexts,
      exists_filter_eq (fun v (n : Int64) => IntegerLiteral v n.toInt) _ _ members hids, ?_⟩
    -- every member gives something, so its value is well formed
    have hvalues := hall.imp fun p f hgives => And.intro (wellFormed_of_gives p f hgives) hgives
    exact fun p hp _ _ => ((List.forall₂_and_left _ _).mp hvalues).1 p hp
  · intro h
    obtain ⟨htext, hid⟩ := filterMap_due m members
    obtain ⟨t, ht, -⟩ := h.text
    obtain ⟨i, hi, -⟩ := h.id
    -- each member gives the field that is due under its key
    refine ⟨members.map (due m), ?_, by rw [htext, ht]; rfl, by rw [hid, hi]; rfl⟩
    rw [List.forall₂_map_right_iff, List.forall₂_same]
    exact h.gives

/-- The members that describe a message have values. -/
theorem Describes.wellFormed {members : List (String × Bytes)} {m : Message}
    (h : Describes members m) (p : String × Bytes) (hp : p ∈ members) : WellFormed p.2 :=
  wellFormed_of_gives p (due m p) (h.gives p hp)

/-! ### Both languages -/

/-- The spellings of a message are the documents that stand for it. -/
theorem spells_iff (a : Bytes) (m : Message) : Spells a m ↔ Represents a m := by
  constructor
  · intro h
    -- an object is a row of pairs, and a list a row of two values
    cases h with
    | object hbody htext hid =>
      obtain ⟨members, hrow, hall⟩ := exists_row_of_body _ _ _ hbody
      exact .object hrow ((exists_fields_iff members m).mp ⟨_, hall, htext, hid⟩)
    | @list space₁ space₂ space₃ space₄ t i _ h₁ ht h₂ h₃ hi h₄ =>
      have hrow : Row Eq true [quoteByte :: (t ++ [quoteByte]), i] _ :=
        .first h₁ rfl (.next h₂ h₃ rfl (.nil h₄))
      have hlist := Represents.list hrow ⟨t, ht, rfl⟩ hi
      simpa using hlist
  · intro h
    cases h with
    | object hrow h =>
      obtain ⟨fs, hall, htext, hid⟩ := (exists_fields_iff _ m).mpr h
      exact .object (body_of_row _ _ _ fs hrow hall) htext hid
    | list hrow ht hi =>
      obtain ⟨spelling, hspelling, rfl⟩ := ht
      -- the row is taken apart: two values, and white space behind them
      obtain _ | ⟨h₁, rfl, hrow⟩ := hrow
      obtain _ | _ | ⟨h₂, h₃, rfl, hrow⟩ := hrow
      obtain ⟨h₄⟩ := hrow
      have hlist := Spells.list h₁ hspelling h₂ h₃ hi h₄
      simpa using hlist

/-- A payload is read as a message exactly if it is a document that stands for the message, with
white space around it. -/
theorem decode_eq_ok_iff_represents (payload : Bytes) (m : Message) :
    decode payload = .ok m ↔
      ∃ u a v, Spaces u ∧ Represents a m ∧ Spaces v ∧ payload = u ++ (a ++ v) := by
  simp only [decode_eq_ok_iff, spells_iff]

end OneShot.Message
