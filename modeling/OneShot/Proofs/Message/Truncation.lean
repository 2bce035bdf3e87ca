import OneShot.Proofs.Json.Truncation
import OneShot.Proofs.Message.RoundTrip

/-!
# Payloads that are cut off

Every beginning of a payload but the whole is unfinished, never malformed and never a message. The
reader may well get through the member in which the cut falls: digits that are left of an identifier
are one too. It then finds that the object has no end. So a member that is cut off either stops the
reader for want of bytes or leaves it none.

## Key results

- `members_of_prefix`: the members of an object that are cut off
- `decode_of_prefix`: an object that is cut off is unfinished
- `unfinished_of_cut`: so is the payload of a message
-/

namespace OneShot.Message

open Json
open Json.Skip (ends_spaces_append)
open Json.StringBody (Denotes)
open Json.Numeral (IntegerLiteral Ends ends_nil ends_cons)

/-! ### Beginnings of values -/

/-- A beginning of white space and a byte and more ends in the white space, or behind the byte. -/
private theorem prefix_spaces_cases (space rest p : Bytes) (b : UInt8) (hspace : Spaces space)
    (hp : p <+: space ++ b :: rest) : Spaces p ∨ ∃ q, p = space ++ b :: q ∧ q <+: rest := by
  rcases prefix_append_cases hp with hp | ⟨q, rfl, hq⟩
  · exact .inl fun c hc => hspace c (hp.subset hc)
  · rcases List.prefix_cons_iff.mp hq with rfl | ⟨r, rfl, hr⟩
    · exact .inl (by rwa [List.append_nil])
    · exact .inr ⟨r, rfl, hr⟩

/-- What is read of a value that is cut off: it is unfinished, or nothing is left behind it. -/
private def Exhausts {α : Type} (x : Result α) : Prop := Unfinished x ∨ ∃ a, x = .ok (a, [])

/-- White space is no value yet. -/
private theorem exhausts_spaces (p : Bytes) (h : Spaces p) :
    Exhausts (textValue p) ∧ Exhausts (idValue p) := by
  have hskip := (skipSpace_eq_nil_iff p).mpr h
  exact ⟨.inl ⟨_, by rw [textValue, hskip], rfl⟩, .inl ⟨_, by rw [idValue, hskip], rfl⟩⟩

/-- A text that is cut off. -/
private theorem textValue_of_prefix (space v p : Bytes) (s : String) (hspace : Spaces space)
    (hv : Denotes v s) (hp : p <+: space ++ quoteByte :: (v ++ [quoteByte])) :
    Exhausts (textValue p) := by
  rcases prefix_spaces_cases space _ p quoteByte hspace hp with hp | ⟨q, rfl, hq⟩
  · exact (exhausts_spaces p hp).1
  · have hskip := (skipSpace_eq_cons_iff quoteByte _ q).mpr ⟨space, hspace, rfl, rfl⟩
    rcases List.prefix_concat_iff.mp hq with rfl | hq
    · exact .inr ⟨s, (textValue_eq_ok_iff _ [] s).mpr ⟨space, v, hspace, hv, rfl⟩⟩
    · left
      simp only [textValue, hskip, beq_self_eq_true, if_true]
      exact StringBody.read_of_prefix v q s hv hq

/-- An identifier that is cut off: the digits that are left are one too. -/
private theorem idValue_of_prefix (space v p : Bytes) (n : Int64) (hspace : Spaces space)
    (hv : IntegerLiteral v n.toInt) (hp : p <+: space ++ v) : Exhausts (idValue p) := by
  -- cut in the white space, or somewhere in the literal
  rcases prefix_append_cases hp with hp | ⟨q, rfl, hq⟩
  · exact (exhausts_spaces p fun c hc => hspace c (hp.subset hc)).2
  rcases Numeral.literal_of_prefix v q n.toInt hv hq with rfl | rfl | ⟨k, hk, hbetween⟩
  · exact (exhausts_spaces _ (by rwa [List.append_nil])).2
  · -- a minus sign alone
    have hskip := (skipSpace_eq_cons_iff minus (space ++ [minus]) []).mpr ⟨space, hspace, rfl, rfl⟩
    exact .inl ⟨_, by simp only [idValue, hskip]; rfl, rfl⟩
  · -- an integer between zero and the identifier has 64 bits as well
    have hmax := n.toInt_lt
    have hmin := n.le_toInt
    have hk' : (Int64.ofInt k).toInt = k := Int64.toInt_ofInt_of_le (by omega) (by omega)
    refine .inr ⟨Int64.ofInt k, (idValue_eq_ok_iff _ [] _).mpr ⟨space, q, hspace, ?_, ends_nil, ?_⟩⟩
    · rwa [hk']
    · rw [List.append_nil]

/-! ### Beginnings of members -/

/-- The reader of a container stops because the bytes ended too early. -/
private def Stops {α : Type} (x : Except Stop α) : Prop :=
  ∃ f, x = .error (.fault f) ∧ f.cause.category = .unfinished

/-- A value that is cut off, with the colon before it. -/
private theorem memberValue_of_prefix {α : Type} (read : Bytes → Result α) (space v p : Bytes)
    (hspace : Spaces space) (hp : p <+: space ++ colon :: v)
    (hread : ∀ q, q <+: v → Exhausts (read q)) :
    Stops (memberValue read p) ∨ ∃ x, memberValue read p = .ok (x, []) := by
  rcases prefix_spaces_cases space v p colon hspace hp with hp | ⟨q, rfl, hq⟩
  · have hskip := (skipSpace_eq_nil_iff p).mpr hp
    exact .inl ⟨⟨.endInObject, [], 0⟩, by simp only [memberValue, afterColon, hskip], rfl⟩
  · have hskip := (skipSpace_eq_cons_iff colon _ q).mpr ⟨space, hspace, rfl, rfl⟩
    simp only [memberValue, afterColon, hskip, beq_self_eq_true, if_true]
    rcases hread q hq with ⟨f, hf, hcategory⟩ | ⟨x, hx⟩
    · exact .inl ⟨f, by rw [hf], hcategory⟩
    · exact .inr ⟨x, by rw [hx]⟩

/-- A member that is cut off after its key. -/
private theorem member_of_prefix (ms : Members) (name : String) (space v p : Bytes) (f : Field)
    (hspace : Spaces space) (hv : Value name v f) (hadmits : ms.Admits f) (hf : f ≠ .other)
    (hp : p <+: space ++ colon :: v) :
    Stops (member ms name p) ∨ ∃ ms', member ms name p = .ok (ms', []) := by
  -- the two members that count; of the others none is cut
  cases hv with
  | @text space' v s hspace' hv =>
    have hnone : ms.text = none := hadmits
    have hvalue := memberValue_of_prefix textValue space _ p hspace hp
      fun q hq => textValue_of_prefix space' v q s hspace' hv hq
    simp only [member, if_true, hnone, Option.isSome_none, Bool.false_eq_true, if_false]
    rcases hvalue with ⟨f, hf, hcategory⟩ | ⟨x, hx⟩
    · -- the value is cut
      exact .inl ⟨f, by rw [hf], hcategory⟩
    · exact .inr ⟨_, by rw [hx]⟩
  | @id space' v n hspace' hv =>
    have hnone : ms.id = none := hadmits
    have hvalue := memberValue_of_prefix idValue space _ p hspace hp
      fun q hq => idValue_of_prefix space' v q n hspace' hv hq
    have hname : ("id" = "text") = False := by decide
    simp only [member, hname, if_true, hnone, Option.isSome_none, Bool.false_eq_true, if_false]
    rcases hvalue with ⟨f, hf, hcategory⟩ | ⟨x, hx⟩
    · exact .inl ⟨f, by rw [hf], hcategory⟩
    · exact .inr ⟨_, by rw [hx]⟩
  | other => exact absurd rfl hf

/-- White space is no member yet. -/
private theorem stops_of_spaces (ms : Members) (first : Bool) (p : Bytes) (h : Spaces p) :
    Stops (members ms first p) := by
  have hkey : nextKey first p = .error ⟨.endInObject, [], 0⟩ := by
    rw [nextKey, (skipSpace_eq_nil_iff p).mpr h]
  exact ⟨_, by rw [members_eq, hkey], rfl⟩

/-- Members stop where one of them is cut off. -/
private theorem stops_of_member (ms : Members) (first : Bool) (bs member p : Bytes) (f : Field)
    (hmember : Member member f) (hadmits : ms.Admits f) (hf : f ≠ .other) (hp : p <+: member)
    (hkey : nextKey first bs = .ok (some p)) : Stops (members ms first bs) := by
  obtain ⟨hname, hspace, hv⟩ := hmember
  rename_i key space v name
  rw [members_eq, hkey]
  -- cut in the key, at its quote, or behind it
  rcases prefix_append_cases hp with hp | ⟨q, rfl, hq⟩
  · obtain ⟨f, hf, hcategory⟩ := StringBody.read_of_prefix key p name hname hp
    exact ⟨f, by simp only [hf], hcategory⟩
  rcases List.prefix_cons_iff.mp hq with rfl | ⟨r, rfl, hr⟩
  · obtain ⟨f, hf, hcategory⟩ := StringBody.read_of_prefix key key name hname List.prefix_rfl
    exact ⟨f, by simp only [List.append_nil, hf], hcategory⟩
  have hread := (StringBody.read_eq_ok_iff (key ++ quoteByte :: r) r name).mpr ⟨key, hname, rfl⟩
  -- behind the key the member stops the reader, or leaves it no bytes for the next key
  rcases member_of_prefix ms name space v r f hspace hv hadmits hf hr with
    ⟨f, hf, hcategory⟩ | ⟨ms', hms'⟩
  · exact ⟨f, by simp only [hread, hf], hcategory⟩
  · simp only [hread, hms']
    exact stops_of_spaces ms' false [] spaces_nil

/-! ### Beginnings of objects -/

/-- Before a beginning of further members a number ends. -/
private theorem ends_of_prefix_body (body p : Bytes) (fs : List Field) (h : Body false body fs)
    (hp : p <+: body) : Ends p := by
  have hspaces : ∀ space : Bytes, Spaces space → Ends space := by
    intro space hspace
    simpa using ends_spaces_append space [] hspace ends_nil
  cases h with
  | close hspace => exact hspaces p fun c hc => hspace c (hp.subset hc)
  | @next space space' member body f fs hspace hspace' hmember hbody =>
    rcases prefix_spaces_cases space _ p comma hspace hp with hp | ⟨q, rfl, -⟩
    · exact hspaces p hp
    · exact ends_spaces_append space _ hspace (ends_cons comma q rfl)

/-- Behind the quote of a key either this member is cut off, or it is read and others are. -/
private theorem stops_of_key (ms : Members) (first : Bool) (bs member body q : Bytes) (f : Field)
    (fs : List Field) (m : Message) (hmember : Member member f) (hbody : Body false body fs)
    (hf : f ≠ .other) (htext : ms.text.toList ++ (f :: fs).filterMap Field.text? = [m.text])
    (hid : ms.id.toList ++ (f :: fs).filterMap Field.id? = [m.id]) (hq : q <+: member ++ body)
    (hkey : nextKey first bs = .ok (some q))
    (hothers : ∀ (ms' : Members) (r : Bytes),
      ms'.text.toList ++ fs.filterMap Field.text? = [m.text] →
      ms'.id.toList ++ fs.filterMap Field.id? = [m.id] → r <+: body →
      Stops (members ms' false r)) : Stops (members ms first bs) := by
  -- cut in this member, or somewhere in the rest of the body
  rcases prefix_append_cases hq with hq | ⟨r, rfl, hr⟩
  · have hadmits := admits_of_eq ms f fs m htext hid
    exact stops_of_member ms first bs member q f hmember hadmits hf hq hkey
  · have hends := ends_of_prefix_body body r fs hbody hr
    obtain ⟨hnext, htext', hid'⟩ := members_of_next ms first bs member r f fs m hmember hends hkey
      htext hid
    rw [hnext]
    exact hothers (ms.add f) r htext' hid' hr

/-- Members that are cut off stop the reader for want of bytes. -/
theorem members_of_prefix (ms : Members) (first : Bool) (body p : Bytes) (fs : List Field)
    (m : Message) (h : Body first body fs) (hfs : ∀ f ∈ fs, f ≠ .other)
    (htext : ms.text.toList ++ fs.filterMap Field.text? = [m.text])
    (hid : ms.id.toList ++ fs.filterMap Field.id? = [m.id]) (hp : p <+: body) :
    Stops (members ms first p) := by
  -- induction on the body: a member is cut off, or read and added to those before it
  induction h generalizing ms p with
  | close hspace => exact stops_of_spaces ms _ p fun c hc => hspace c (hp.subset hc)
  | @first space member body f fs hspace hmember hbody ih =>
    obtain ⟨hf, hfs⟩ := List.forall_mem_cons.mp hfs
    rcases prefix_spaces_cases space _ p quoteByte hspace hp with hp | ⟨q, rfl, hq⟩
    -- no key has come
    · exact stops_of_spaces ms true p hp
    · have hkey := (nextKey_eq_some_iff true _ q).mpr (.inl ⟨rfl, space, hspace, rfl⟩)
      exact stops_of_key ms true _ member body q f fs m hmember hbody hf htext hid hq hkey
        fun ms' r htext' hid' hr => ih ms' r hfs htext' hid' hr
  | @next space space' member body f fs hspace hspace' hmember hbody ih =>
    obtain ⟨hf, hfs⟩ := List.forall_mem_cons.mp hfs
    rcases prefix_spaces_cases space _ p comma hspace hp with hp | ⟨p', rfl, hp'⟩
    · exact stops_of_spaces ms false p hp
    rcases prefix_spaces_cases space' _ p' quoteByte hspace' hp' with hspaces | ⟨q, rfl, hq⟩
    · -- nothing but white space is left behind the comma
      have hkey : nextKey false (space ++ comma :: p') = .error ⟨.endInValue, [], 0⟩ := by
        have hcomma := (skipSpace_eq_cons_iff comma _ p').mpr ⟨space, hspace, rfl, rfl⟩
        have hbrace : (comma == closeBrace) = false := by decide
        simp only [nextKey, hcomma, hbrace, Bool.false_eq_true, if_false, beq_self_eq_true, if_true,
          (skipSpace_eq_nil_iff p').mpr hspaces]
      exact ⟨_, by rw [members_eq, hkey], rfl⟩
    · have hkey := (nextKey_eq_some_iff false _ q).mpr
        (.inr ⟨rfl, space, space', hspace, hspace', rfl⟩)
      exact stops_of_key ms false _ member body q f fs m hmember hbody hf htext hid hq hkey
        fun ms' r htext' hid' hr => ih ms' r hfs htext' hid' hr

/-- A message as an object that is cut off before its closing brace is unfinished, if it has no
members of no interest. -/
theorem decode_of_prefix (body p : Bytes) (fs : List Field) (m : Message) (h : Body true body fs)
    (hfs : ∀ f ∈ fs, f ≠ .other) (htext : fs.filterMap Field.text? = [m.text])
    (hid : fs.filterMap Field.id? = [m.id]) (hp : p <+: openBrace :: body) :
    ∃ e, decode p = .error e ∧ e.cause.category = .unfinished := by
  have hvalue : Unfinished (value p) := by
    rcases List.prefix_cons_iff.mp hp with rfl | ⟨q, rfl, hq⟩
    · exact ⟨_, rfl, rfl⟩
    · obtain ⟨f, hf, hcategory⟩ := members_of_prefix {} true body q fs m h hfs htext hid hq
      have hskip := skipSpace_cons openBrace q rfl
      exact ⟨f, by simp only [value, hskip, beq_self_eq_true, if_true, object, hf], hcategory⟩
  obtain ⟨f, hf, hcategory⟩ := hvalue
  exact ⟨f.locate p, by simp only [decode, whole, hf], hcategory⟩

/-- A payload of a message that is cut off anywhere is unfinished. -/
theorem unfinished_of_cut (m : Message) (p : Bytes) (hp : p <+: m.encode) (hne : p ≠ m.encode) :
    ∃ e, decode p = .error e ∧ e.cause.category = .unfinished := by
  obtain ⟨body, hbody, hbytes⟩ := exists_body_encode m
  rw [hbytes, ← List.cons_append] at hp hne
  -- the closing brace at least is missing
  have hcut : p <+: openBrace :: body := (List.prefix_concat_iff.mp hp).resolve_left hne
  exact decode_of_prefix body p _ m hbody (by simp) rfl rfl hcut

/-- An identifier that is cut off between its digits: what is left of it is an identifier, but the
payload is unfinished. -/
theorem unfinished_of_cut_between_digits :
    (encode ⟨"x", -12⟩).take 19 <+: encode ⟨"x", -12⟩ ∧
    (encode ⟨"x", -12⟩).take 19 ≠ encode ⟨"x", -12⟩ ∧
    ∃ e, decode ((encode ⟨"x", -12⟩).take 19) = .error e ∧ e.cause.category = .unfinished :=
  have hne : (encode ⟨"x", -12⟩).take 19 ≠ encode ⟨"x", -12⟩ := by decide
  ⟨List.take_prefix 19 _, hne, unfinished_of_cut _ _ (List.take_prefix 19 _) hne⟩

end OneShot.Message
