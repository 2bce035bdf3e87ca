import OneShot.Proofs.Message.Grammar

/-!
# Messages are read from their spellings

Reading accepts exactly the language of messages, with white space around the whole. Both directions
follow the recursion of the reader: a body that was read is built up member by member, and over a
body the reader goes from one member to the next.

## Key results

- `decode_eq_ok_iff`: a payload is read as a message exactly if it spells that message
-/

namespace OneShot.Message

open Json
open Json.Skip (ends_spaces_append)
open Json.StringBody (Denotes)
open Json.Numeral (IntegerLiteral Ends ends_cons)

/-! ### Objects -/

/-- The members end at a closing brace. -/
private theorem nextKey_eq_none_iff (first : Bool) (bs : Bytes) :
    nextKey first bs = .ok none ↔ ∃ space tail, Spaces space ∧ bs = space ++ closeBrace :: tail := by
  constructor
  · intro h
    simp only [nextKey] at h
    split at h
    · cases h
    · rename_i b tail hskip
      -- the brace closes the object, and any other byte leads to a key or a refusal
      split at h
      · rename_i hb
        obtain ⟨space, hspace, -, hbs⟩ := (skipSpace_eq_cons_iff b bs tail).mp hskip
        exact ⟨space, tail, hspace, by rw [hbs, eq_of_beq hb]⟩
      · repeat' split at h
        all_goals cases h
  · intro h
    obtain ⟨space, tail, hspace, rfl⟩ := h
    -- behind the white space the brace is found
    have hskip := (skipSpace_eq_cons_iff closeBrace _ tail).mpr ⟨space, hspace, rfl, rfl⟩
    simp only [nextKey, hskip, beq_self_eq_true, if_true]

/-- The first key comes at once, every other one after a comma. -/
theorem nextKey_eq_some_iff (first : Bool) (bs rest : Bytes) :
    nextKey first bs = .ok (some rest) ↔
      (first = true ∧ ∃ space, Spaces space ∧ bs = space ++ quoteByte :: rest) ∨
      (first = false ∧ ∃ space space', Spaces space ∧ Spaces space' ∧
        bs = space ++ comma :: (space' ++ quoteByte :: rest)) := by
  constructor
  · intro h
    simp only [nextKey] at h
    split at h
    · cases h
    · rename_i b tail hskip
      obtain ⟨space, hspace, -, hbs⟩ := (skipSpace_eq_cons_iff b bs tail).mp hskip
      split at h
      · cases h
      · -- the first key stands alone, every other one behind a comma
        split at h
        · rename_i hfirst
          split at h
          · rename_i hb
            simp only [Except.ok.injEq, Option.some.injEq] at h
            exact .inl ⟨hfirst, space, hspace, by rw [hbs, eq_of_beq hb, h]⟩
          · cases h
        · rename_i hfirst
          split at h
          · rename_i hb
            split at h
            · cases h
            · -- behind the comma only a quote begins a key
              rename_i c tail' hskip'
              obtain ⟨space', hspace', -, htail⟩ := (skipSpace_eq_cons_iff c tail tail').mp hskip'
              split at h
              · rename_i hc
                simp only [Except.ok.injEq, Option.some.injEq] at h
                refine .inr ⟨Bool.not_eq_true _ ▸ hfirst, space, space', hspace, hspace', ?_⟩
                rw [hbs, htail, eq_of_beq hb, eq_of_beq hc, h]
              · split at h <;> cases h
          · cases h
  · rintro (⟨rfl, space, hspace, rfl⟩ | ⟨rfl, space, space', hspace, hspace', rfl⟩)
    · have hskip := (skipSpace_eq_cons_iff quoteByte _ rest).mpr ⟨space, hspace, rfl, rfl⟩
      -- a quote is no closing brace
      have hbrace : (quoteByte == closeBrace) = false := by decide
      simp only [nextKey, hskip, hbrace, beq_self_eq_true, Bool.false_eq_true, if_false, if_true]
    · have hskip := (skipSpace_eq_cons_iff comma _ (space' ++ quoteByte :: rest)).mpr
        ⟨space, hspace, rfl, rfl⟩
      have hskip' := (skipSpace_eq_cons_iff quoteByte _ rest).mpr ⟨space', hspace', rfl, rfl⟩
      -- nor is a comma
      have hbrace : (comma == closeBrace) = false := by decide
      simp only [nextKey, hskip, hbrace, hskip', beq_self_eq_true, Bool.false_eq_true, if_false,
        if_true]

/-- What is read as members, as the next key decides. -/
theorem members_eq (ms : Members) (first : Bool) (bs : Bytes) :
    members ms first bs = match nextKey first bs with
      | .error f => .error (.fault f)
      | .ok none => match ms.finish with
        | .ok m => .ok (m, skipSpace bs)
        | .error misfit => .error (.misfit misfit (skipSpace bs))
      | .ok (some keyBytes) => match StringBody.read keyBytes with
        | .error f => .error (.fault f)
        | .ok (key, afterKey) => match member ms key afterKey with
          | .error stop => .error stop
          | .ok (ms', rest) => members ms' false rest := by
  rw [members]
  -- the guards of the recursion are dropped, branch by branch
  split
  · rename_i hkey
    simp only [hkey]
  · rename_i hkey
    cases ms.finish <;> simp only [hkey]
  · rename_i hkey
    simp only [hkey]
    split
    · rename_i hread
      simp only [hread]
    · -- the key was read, and its value follows
      rename_i hread
      simp only [hread]
      split
      · rename_i hmember
        simp only [hmember]
      · rename_i hmember
        simp only [hmember]

/-- A member that may come gives its text, or none. -/
private theorem text_add (ms : Members) (f : Field) (fs : List Field) (h : ms.Admits f) :
    (ms.add f).text.toList ++ fs.filterMap Field.text? =
      ms.text.toList ++ (f :: fs).filterMap Field.text? := by
  cases f with
  | text s =>
    have hnone : ms.text = none := h
    simp [Members.add, Field.text?, hnone]
  | id n => rw [List.filterMap_cons_none rfl, Members.add]
  | other => rw [List.filterMap_cons_none rfl, Members.add]

/-- A member that may come gives its identifier, or none. -/
private theorem id_add (ms : Members) (f : Field) (fs : List Field) (h : ms.Admits f) :
    (ms.add f).id.toList ++ fs.filterMap Field.id? =
      ms.id.toList ++ (f :: fs).filterMap Field.id? := by
  cases f with
  | text s => rw [List.filterMap_cons_none rfl, Members.add]
  | id n =>
    have hnone : ms.id = none := h
    simp [Members.add, Field.id?, hnone]
  | other => rw [List.filterMap_cons_none rfl, Members.add]

/-- A member may come if text and identifier are each given once with it. -/
theorem admits_of_eq (ms : Members) (f : Field) (fs : List Field) (m : Message)
    (htext : ms.text.toList ++ (f :: fs).filterMap Field.text? = [m.text])
    (hid : ms.id.toList ++ (f :: fs).filterMap Field.id? = [m.id]) : ms.Admits f := by
  cases f with
  | text s =>
    cases hms : ms.text with
    | none => exact hms
    | some s' => simp [hms, Field.text?] at htext
  | id n =>
    cases hms : ms.id with
    | none => exact hms
    | some n' => simp [hms, Field.id?] at hid
  | other => trivial

/-- The members make up the message whose text and identifier they gave. -/
private theorem finish_eq_ok_iff (ms : Members) (m : Message) :
    ms.finish = .ok m ↔ ms.text.toList = [m.text] ∧ ms.id.toList = [m.id] := by
  obtain ⟨text, id⟩ := ms
  obtain ⟨text', id'⟩ := m
  cases text <;> cases id <;> simp [Members.finish]

/-- What is read as members is the body of an object. -/
private theorem exists_body_of_members (ms : Members) (first : Bool) (bs rest : Bytes) (m : Message)
    (h : members ms first bs = .ok (m, rest)) :
    ∃ body fs tail, Body first body fs ∧ bs = body ++ rest ∧ rest = closeBrace :: tail ∧
      ms.text.toList ++ fs.filterMap Field.text? = [m.text] ∧
      ms.id.toList ++ fs.filterMap Field.id? = [m.id] := by
  -- the cases of the reader: only the closing brace and a whole member give a body
  fun_induction members ms first bs with
  | case1 => cases h
  | case2 ms first bs hkey m' hfinish =>
    simp only [Except.ok.injEq, Prod.mk.injEq] at h
    obtain ⟨rfl, rfl⟩ := h
    -- the object is closed, and both members came
    obtain ⟨space, tail, hspace, rfl⟩ := (nextKey_eq_none_iff first bs).mp hkey
    obtain ⟨htext, hid⟩ := (finish_eq_ok_iff ms m').mp hfinish
    have hskip : skipSpace (space ++ closeBrace :: tail) = closeBrace :: tail := by
      rw [skipSpace_append space _ hspace, skipSpace_cons closeBrace _ rfl]
    rw [hskip]
    refine ⟨space, [], tail, .close hspace, rfl, rfl, ?_, ?_⟩
    · simpa using htext
    · simpa using hid
  | case3 => cases h
  | case4 => cases h
  | case5 => cases h
  | case6 ms first bs keyBytes hkey name afterKey hread ms' rest' hmember ih =>
    obtain ⟨body, fs, tail, hbody, rfl, hrest, htext, hid⟩ := ih h
    -- a key, its value, and what is read behind them
    obtain ⟨key, hname, rfl⟩ := (StringBody.read_eq_ok_iff _ _ _).mp hread
    obtain ⟨space, v, f, hspace, hv, hadmits, rfl, rfl⟩ := exists_of_member _ _ _ _ _ hmember
    rw [text_add ms f fs hadmits] at htext
    rw [id_add ms f fs hadmits] at hid
    have hm : Member _ f := .mk hname hspace hv
    -- the first member stands alone, any other behind a comma
    rcases (nextKey_eq_some_iff first bs _).mp hkey with
      ⟨rfl, space', hspace', rfl⟩ | ⟨rfl, space', space'', hspace', hspace'', rfl⟩
    · exact ⟨_, f :: fs, tail, .first hspace' hm hbody, by simp, hrest, htext, hid⟩
    · exact ⟨_, f :: fs, tail, .next hspace' hspace'' hm hbody, by simp, hrest, htext, hid⟩

/-- No number goes on with white space, a comma or a closing brace. -/
private theorem ends_of_body (body tail : Bytes) (fs : List Field) (h : Body false body fs) :
    Ends (body ++ closeBrace :: tail) := by
  cases h with
  | close hspace => exact ends_spaces_append _ _ hspace (ends_cons _ _ rfl)
  | next hspace hspace' hmember hbody =>
    rw [List.append_assoc, List.cons_append]
    exact ends_spaces_append _ _ hspace (ends_cons _ _ rfl)

/-- A member is read from its key on. -/
private theorem member_of_member (ms : Members) (bytes rest : Bytes) (f : Field)
    (h : Member bytes f) (hadmits : ms.Admits f) (hends : Ends rest) :
    ∃ name afterKey, StringBody.read (bytes ++ rest) = .ok (name, afterKey) ∧
      member ms name afterKey = .ok (ms.add f, rest) := by
  obtain ⟨hkey, hspace, hv⟩ := h
  rename_i key space v name
  refine ⟨name, space ++ colon :: (v ++ rest), ?_, ?_⟩
  · exact (StringBody.read_eq_ok_iff _ _ _).mpr ⟨key, hkey, by simp⟩
  · exact member_of_value ms name space v rest f hspace hv hadmits hends

/-- A member is read and added, and what is still due stays the same. -/
theorem members_of_next (ms : Members) (first : Bool) (bs member rest : Bytes) (f : Field)
    (fs : List Field) (m : Message) (hmember : Member member f) (hends : Ends rest)
    (hkey : nextKey first bs = .ok (some (member ++ rest)))
    (htext : ms.text.toList ++ (f :: fs).filterMap Field.text? = [m.text])
    (hid : ms.id.toList ++ (f :: fs).filterMap Field.id? = [m.id]) :
    members ms first bs = members (ms.add f) false rest ∧
      (ms.add f).text.toList ++ fs.filterMap Field.text? = [m.text] ∧
      (ms.add f).id.toList ++ fs.filterMap Field.id? = [m.id] := by
  have hadmits := admits_of_eq ms f fs m htext hid
  obtain ⟨name, afterKey, hread, hm⟩ := member_of_member ms member rest f hmember hadmits hends
  refine ⟨by rw [members_eq, hkey]; simp only [hread, hm], ?_, ?_⟩
  · rw [text_add ms f fs hadmits, htext]
  · rw [id_add ms f fs hadmits, hid]

/-- The members of a body are read up to the closing brace. -/
private theorem members_of_body (ms : Members) (first : Bool) (body tail : Bytes) (fs : List Field)
    (m : Message) (h : Body first body fs)
    (htext : ms.text.toList ++ fs.filterMap Field.text? = [m.text])
    (hid : ms.id.toList ++ fs.filterMap Field.id? = [m.id]) :
    members ms first (body ++ closeBrace :: tail) = .ok (m, closeBrace :: tail) := by
  -- induction on the body: what was read before it is in `ms`
  induction h generalizing ms with
  | @close first space hspace =>
    -- the brace is found, and the two members were read before
    have hkey := (nextKey_eq_none_iff first _).mpr ⟨space, tail, hspace, rfl⟩
    have hfinish := (finish_eq_ok_iff ms m).mpr ⟨by simpa using htext, by simpa using hid⟩
    have hskip : skipSpace (space ++ closeBrace :: tail) = closeBrace :: tail := by
      rw [skipSpace_append space _ hspace, skipSpace_cons closeBrace _ rfl]
    rw [members_eq, hkey]
    simp only [hfinish, hskip]
  | @first space member body f fs hspace hmember hbody ih =>
    have hkey := (nextKey_eq_some_iff true _ (member ++ (body ++ closeBrace :: tail))).mpr
      (.inl ⟨rfl, space, hspace, rfl⟩)
    obtain ⟨hnext, htext', hid'⟩ :=
      members_of_next ms true _ member _ f fs m hmember (ends_of_body body tail fs hbody) hkey htext
        hid
    rw [List.append_assoc, List.cons_append, List.append_assoc, hnext]
    -- what is left of the body is read with one field more in `ms`
    exact ih (ms.add f) htext' hid'
  | @next space space' member body f fs hspace hspace' hmember hbody ih =>
    have hkey := (nextKey_eq_some_iff false _ (member ++ (body ++ closeBrace :: tail))).mpr
      (.inr ⟨rfl, space, space', hspace, hspace', rfl⟩)
    obtain ⟨hnext, htext', hid'⟩ :=
      members_of_next ms false _ member _ f fs m hmember (ends_of_body body tail fs hbody) hkey
        htext hid
    rw [List.append_assoc, List.cons_append, List.append_assoc, List.cons_append,
      List.append_assoc, hnext]
    exact ih (ms.add f) htext' hid'

/-- An object is read exactly if its members give one text and one identifier. -/
private theorem object_eq_ok_iff (bs rest : Bytes) (m : Message) :
    object bs = .ok (m, rest) ↔
      ∃ body fs, Body true body fs ∧ fs.filterMap Field.text? = [m.text] ∧
        fs.filterMap Field.id? = [m.id] ∧ bs = body ++ closeBrace :: rest := by
  -- the reader stops in front of the brace, which is then taken
  have hclose : ∀ tail, endObject (closeBrace :: tail) = .ok tail := fun tail => by
    simp only [endObject, skipSpace_cons closeBrace tail rfl, beq_self_eq_true, if_true]
  constructor
  · intro h
    simp only [object] at h
    split at h
    · cases h
    · cases h
    · -- the members are a body, and behind them stands the brace
      rename_i m' rest' hmembers
      obtain ⟨body, fs, tail, hbody, hbs, rfl, htext, hid⟩ :=
        exists_body_of_members {} true bs rest' m' hmembers
      rw [hclose] at h
      simp only [Except.ok.injEq, Prod.mk.injEq] at h
      obtain ⟨rfl, rfl⟩ := h
      exact ⟨body, fs, hbody, htext, hid, hbs⟩
  · intro h
    obtain ⟨body, fs, hbody, htext, hid, rfl⟩ := h
    simp only [object, members_of_body {} true body rest fs m hbody htext hid, hclose]

/-! ### Lists -/

/-- Values are read from behind white space, so it does not matter whether that was taken off. -/
private theorem read_skipSpace (bs : Bytes) :
    textValue (skipSpace bs) = textValue bs ∧ idValue (skipSpace bs) = idValue bs := by
  have hskip : skipSpace (skipSpace bs) = skipSpace bs := by
    cases h : skipSpace bs with
    | nil => rfl
    | cons b tail =>
      obtain ⟨-, -, hb, -⟩ := (skipSpace_eq_cons_iff b bs tail).mp h
      exact skipSpace_cons b tail hb
  exact ⟨by simp only [textValue, hskip], by simp only [idValue, hskip]⟩

/-- An element is read exactly if one comes and its value is read. -/
private theorem element_eq_ok_iff {α : Type} (index : Nat) (read : Bytes → Result α)
    (bs rest : Bytes) (x : α) :
    element index read bs = .ok (x, rest) ↔
      ∃ tail, nextElement (index == 0) bs = .ok (some tail) ∧ read tail = .ok (x, rest) := by
  simp only [element]
  -- an element is missing, is not read, or is the one that is asked for
  constructor
  · intro h
    split at h
    · cases h
    · cases h
    · rename_i tail hnext
      split at h
      · cases h
      · rename_i value hvalue
        obtain rfl := Except.ok.inj h
        exact ⟨tail, hnext, hvalue⟩
  · intro h
    obtain ⟨tail, hnext, hread⟩ := h
    simp only [hnext, hread]

/-- The first element comes at once, every other one after a comma. No value starts with a closing
bracket. -/
private theorem nextElement_eq_some_iff (first : Bool) (bs rest : Bytes) :
    nextElement first bs = .ok (some rest) ↔
      (∃ b tail, rest = b :: tail ∧ b ≠ closeBracket) ∧
      ((first = true ∧ skipSpace bs = rest) ∨
        (first = false ∧ ∃ space tail, Spaces space ∧ bs = space ++ comma :: tail ∧
          skipSpace tail = rest)) := by
  constructor
  · intro h
    simp only [nextElement] at h
    split at h
    · cases h
    · rename_i b tail hskip
      split at h
      · cases h
      · rename_i hb
        -- the first element stands alone, the second one behind a comma
        split at h
        · rename_i hfirst
          simp only [Except.ok.injEq, Option.some.injEq] at h
          subst h
          exact ⟨⟨b, tail, rfl, by simpa using hb⟩, .inl ⟨hfirst, hskip⟩⟩
        · rename_i hfirst
          split at h
          · rename_i hcomma
            obtain ⟨space, hspace, -, hbs⟩ := (skipSpace_eq_cons_iff b bs tail).mp hskip
            rw [eq_of_beq hcomma] at hbs
            split at h
            · cases h
            · -- a comma is not followed by the bracket
              rename_i c tail' hskip'
              split at h
              · cases h
              · rename_i hc
                simp only [Except.ok.injEq, Option.some.injEq] at h
                subst h
                exact ⟨⟨c, tail', rfl, by simpa using hc⟩,
                  .inr ⟨Bool.eq_false_iff.mpr hfirst, space, tail, hspace, hbs, hskip'⟩⟩
          · cases h
  · intro h
    -- what comes first is no closing bracket
    obtain ⟨⟨b, tail, rfl, hb⟩, h⟩ := h
    rcases h with ⟨rfl, hskip⟩ | ⟨rfl, space, tail', hspace, rfl, hskip⟩
    · simp only [nextElement, hskip, beq_iff_eq, hb, if_false, if_true]
    · have hspace' := (skipSpace_eq_cons_iff comma _ tail').mpr ⟨space, hspace, rfl, rfl⟩
      have hcomma : (comma == closeBracket) = false := by decide
      simp only [nextElement, hspace', hcomma, beq_self_eq_true, hskip, beq_iff_eq, hb,
        Bool.false_eq_true, if_false, if_true]

/-- The first element is a text. -/
private theorem element_zero_eq_ok_iff (bs rest : Bytes) (s : String) :
    element 0 textValue bs = .ok (s, rest) ↔ textValue bs = .ok (s, rest) := by
  rw [element_eq_ok_iff]
  constructor
  · intro h
    obtain ⟨tail, hnext, hread⟩ := h
    rcases (nextElement_eq_some_iff _ bs tail).mp hnext with ⟨-, ⟨-, rfl⟩ | ⟨hfirst, -⟩⟩
    · -- white space in front of the first element changes nothing
      rwa [(read_skipSpace bs).1] at hread
    · cases hfirst
  · intro h
    obtain ⟨space, v, hspace, -, hbs⟩ := (textValue_eq_ok_iff bs rest s).mp h
    -- a text starts with a quote, which is no closing bracket
    have hskip := (skipSpace_eq_cons_iff quoteByte bs _).mpr ⟨space, hspace, rfl, hbs⟩
    refine ⟨skipSpace bs, ?_, by rwa [(read_skipSpace bs).1]⟩
    exact (nextElement_eq_some_iff _ bs _).mpr ⟨⟨_, _, hskip, by decide⟩, .inl ⟨rfl, rfl⟩⟩

/-- The second element is an identifier after a comma. -/
private theorem element_one_eq_ok_iff (bs rest : Bytes) (n : Int64) :
    element 1 idValue bs = .ok (n, rest) ↔
      ∃ space tail, Spaces space ∧ bs = space ++ comma :: tail ∧ idValue tail = .ok (n, rest) := by
  rw [element_eq_ok_iff]
  constructor
  · intro h
    obtain ⟨tail, hnext, hread⟩ := h
    -- the second element stands behind a comma, and white space in front of it is passed over
    rcases (nextElement_eq_some_iff _ bs tail).mp hnext with
      ⟨-, ⟨hfirst, -⟩ | ⟨-, space, tail', hspace, hbs, rfl⟩⟩
    · cases hfirst
    · exact ⟨space, tail', hspace, hbs, by rwa [(read_skipSpace tail').2] at hread⟩
  · intro h
    obtain ⟨space, tail, hspace, hbs, hread⟩ := h
    refine ⟨skipSpace tail, ?_, by rwa [(read_skipSpace tail).2]⟩
    rw [← (read_skipSpace tail).2] at hread
    have hstart : ∃ b tail', skipSpace tail = b :: tail' ∧ b ≠ closeBracket := by
      cases hskip : skipSpace tail with
      | nil =>
        rw [hskip] at hread
        cases hread
      | cons b tail' =>
        refine ⟨b, tail', rfl, ?_⟩
        intro hb
        -- no number starts with a closing bracket
        rw [hskip, hb] at hread
        cases hread
    exact (nextElement_eq_some_iff _ bs _).mpr
      ⟨hstart, .inr ⟨rfl, space, tail, hspace, hbs, rfl⟩⟩

/-- A list ends at its closing bracket. -/
private theorem endList_eq_ok_iff (bs rest : Bytes) :
    endList bs = .ok rest ↔ ∃ space, Spaces space ∧ bs = space ++ closeBracket :: rest := by
  constructor
  · intro h
    simp only [endList] at h
    split at h
    · cases h
    · rename_i b tail hskip
      -- only the closing bracket ends a list
      split at h
      · rename_i hb
        simp only [Except.ok.injEq] at h
        obtain ⟨space, hspace, -, hbs⟩ := (skipSpace_eq_cons_iff b bs tail).mp hskip
        exact ⟨space, hspace, by rw [hbs, eq_of_beq hb, h]⟩
      · -- a comma, with anything behind it, and every other byte are refused
        split at h
        · split at h <;> cases h
        · cases h
  · intro h
    obtain ⟨space, hspace, rfl⟩ := h
    have hskip := (skipSpace_eq_cons_iff closeBracket _ rest).mpr ⟨space, hspace, rfl, rfl⟩
    simp only [endList, hskip, beq_self_eq_true, if_true]

/-- A list is read exactly if it holds a text and an identifier. -/
private theorem list_eq_ok_iff (bs rest : Bytes) (m : Message) :
    list bs = .ok (m, rest) ↔
      ∃ space₁ t space₂ space₃ i space₄, Spaces space₁ ∧ Denotes t m.text ∧ Spaces space₂ ∧
        Spaces space₃ ∧ IntegerLiteral i m.id.toInt ∧ Spaces space₄ ∧
        bs = space₁ ++ quoteByte :: (t ++ quoteByte :: (space₂ ++ comma :: (space₃ ++
          (i ++ (space₄ ++ closeBracket :: rest))))) := by
  constructor
  · intro h
    simp only [list, elements] at h
    split at h
    · cases h
    · cases h
    · rename_i m' rest' helements
      split at helements
      · cases helements
      · rename_i text afterText htext
        split at helements
        · cases helements
        · rename_i id afterId hid
          simp only [Except.ok.injEq, Prod.mk.injEq] at helements
          obtain ⟨rfl, rfl⟩ := helements
          split at h
          · rename_i rest'' hend
            simp only [Except.ok.injEq, Prod.mk.injEq] at h
            obtain ⟨rfl, rfl⟩ := h
            -- text, comma, identifier and bracket, each with its own white space
            rw [element_zero_eq_ok_iff] at htext
            obtain ⟨space₁, t, h₁, ht, rfl⟩ := (textValue_eq_ok_iff _ _ _).mp htext
            obtain ⟨space₂, tail, h₂, rfl, hread⟩ := (element_one_eq_ok_iff _ _ _).mp hid
            obtain ⟨space₃, i, h₃, hi, -, rfl⟩ := (idValue_eq_ok_iff _ _ _).mp hread
            obtain ⟨space₄, h₄, rfl⟩ := (endList_eq_ok_iff _ _).mp hend
            exact ⟨space₁, t, space₂, space₃, i, space₄, h₁, ht, h₂, h₃, hi, h₄, rfl⟩
          · cases h
  · intro h
    obtain ⟨space₁, t, space₂, space₃, i, space₄, h₁, ht, h₂, h₃, hi, h₄, rfl⟩ := h
    -- the white space or the bracket ends the identifier
    have hends : Ends (space₄ ++ closeBracket :: rest) :=
      ends_spaces_append space₄ _ h₄ (ends_cons closeBracket rest rfl)
    have hread := (idValue_eq_ok_iff _ _ m.id).mpr ⟨space₃, i, h₃, hi, hends, rfl⟩
    have hid := (element_one_eq_ok_iff _ _ m.id).mpr ⟨space₂, _, h₂, rfl, hread⟩
    -- the elements are read one behind the other
    have htext := (textValue_eq_ok_iff _ (space₂ ++ comma :: (space₃ ++ (i ++
      (space₄ ++ closeBracket :: rest)))) m.text).mpr ⟨space₁, t, h₁, ht, rfl⟩
    rw [← element_zero_eq_ok_iff] at htext
    simp only [list, elements, htext, hid, (endList_eq_ok_iff _ rest).mpr ⟨space₄, h₄, rfl⟩]

/-! ### Messages -/

/-- The value at the front is read as a message exactly if it spells it. -/
theorem value_eq_ok_iff (bs rest : Bytes) (m : Message) :
    value bs = .ok (m, rest) ↔ ∃ u a, Spaces u ∧ Spells a m ∧ bs = u ++ (a ++ rest) := by
  constructor
  · intro h
    simp only [value] at h
    split at h
    · cases h
    · rename_i b tail hskip
      obtain ⟨space, hspace, -, rfl⟩ := (skipSpace_eq_cons_iff b bs tail).mp hskip
      -- the opening bracket decides between an object and a list
      split at h
      · rename_i hb
        obtain rfl := eq_of_beq hb
        obtain ⟨body, fs, hbody, htext, hid, rfl⟩ := (object_eq_ok_iff tail rest m).mp h
        exact ⟨space, _, hspace, .object hbody htext hid, by simp⟩
      · split at h
        · rename_i hb
          obtain rfl := eq_of_beq hb
          obtain ⟨space₁, t, space₂, space₃, i, space₄, h₁, ht, h₂, h₃, hi, h₄, rfl⟩ :=
            (list_eq_ok_iff tail rest m).mp h
          exact ⟨space, _, hspace, .list h₁ ht h₂ h₃ hi h₄, by simp⟩
        · cases h
  · intro h
    -- the white space is passed over, and the bracket is found
    obtain ⟨u, a, hu, ha, rfl⟩ := h
    cases ha with
    | @object body fs _ hbody htext hid =>
      have hskip : skipSpace (u ++ (openBrace :: (body ++ [closeBrace]) ++ rest)) =
          openBrace :: (body ++ closeBrace :: rest) := by
        simp only [skipSpace_append u _ hu, List.cons_append, List.append_assoc, List.nil_append]
        exact skipSpace_cons openBrace _ rfl
      simp only [value, hskip, beq_self_eq_true, if_true]
      exact (object_eq_ok_iff _ rest m).mpr ⟨body, fs, hbody, htext, hid, rfl⟩
    | @list space₁ space₂ space₃ space₄ t i _ h₁ ht h₂ h₃ hi h₄ =>
      have hskip : skipSpace (u ++ (openBracket :: (space₁ ++ quoteByte :: (t ++ quoteByte ::
            (space₂ ++ comma :: (space₃ ++ (i ++ (space₄ ++ [closeBracket])))))) ++ rest)) =
          openBracket :: (space₁ ++ quoteByte :: (t ++ quoteByte :: (space₂ ++ comma ::
            (space₃ ++ (i ++ (space₄ ++ closeBracket :: rest)))))) := by
        simp only [skipSpace_append u _ hu, List.cons_append, List.append_assoc, List.nil_append]
        exact skipSpace_cons openBracket _ rfl
      have hbrace : (openBracket == openBrace) = false := by decide
      simp only [value, hskip, hbrace, Bool.false_eq_true, beq_self_eq_true, if_false, if_true]
      exact (list_eq_ok_iff _ rest m).mpr
        ⟨space₁, t, space₂, space₃, i, space₄, h₁, ht, h₂, h₃, hi, h₄, rfl⟩

/-- A message is whole if only white space comes after it. -/
private theorem whole_eq_ok_iff (payload : Bytes) (m : Message) :
    whole payload = .ok m ↔ ∃ v, Spaces v ∧ value payload = .ok (m, v) := by
  constructor
  · intro h
    simp only [whole] at h
    split at h
    · cases h
    · rename_i m' rest hvalue
      split at h
      · -- only white space is left behind the value
        rename_i hskip
        obtain rfl := Except.ok.inj h
        exact ⟨rest, (skipSpace_eq_nil_iff rest).mp hskip, hvalue⟩
      · cases h
  · intro h
    obtain ⟨v, hv, hvalue⟩ := h
    simp only [whole, hvalue, (skipSpace_eq_nil_iff v).mpr hv]

/-- A payload is read as a message exactly if it spells that message, with white space around it. -/
theorem decode_eq_ok_iff (payload : Bytes) (m : Message) :
    decode payload = .ok m ↔
      ∃ u a v, Spaces u ∧ Spells a m ∧ Spaces v ∧ payload = u ++ (a ++ v) := by
  -- the position of a fault is added behind the reading, and changes no message
  have hdecode : decode payload = .ok m ↔ whole payload = .ok m := by
    rw [decode]
    cases whole payload <;> simp
  rw [hdecode, whole_eq_ok_iff]
  constructor
  · intro h
    obtain ⟨v, hv, hvalue⟩ := h
    obtain ⟨u, a, hu, ha, hbs⟩ := (value_eq_ok_iff payload v m).mp hvalue
    exact ⟨u, a, v, hu, ha, hv, hbs⟩
  · intro h
    obtain ⟨u, a, v, hu, ha, hv, hbs⟩ := h
    exact ⟨v, hv, (value_eq_ok_iff payload v m).mpr ⟨u, a, hu, ha, hbs⟩⟩

end OneShot.Message
