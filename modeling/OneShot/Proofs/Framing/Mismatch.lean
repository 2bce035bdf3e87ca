import OneShot.Proofs.Framing.Payload
import OneShot.Proofs.Framing.Writing
import OneShot.Proofs.Message.Beginnings
import OneShot.Proofs.Message.RoundTrip

/-!
# Frames under another framing

A frame may be cut off anywhere, and be read under a framing that it was not written under. What is
read as a message then is the one that was written, or nothing is.

The hard case is a header that is taken for the beginning of the payload. Four bytes can open
containers or strings, but then the message behind them comes to stand inside these, and the machine
of `Json.Skip` never gets out of them again.

## Key results

- `reach_encode_ne`: a message does not close a container that was open before it
- `eq_of_decode_of_prefix`: four bytes before a message do not make another one of it
- `eq_of_readFrame`: no cut, no chunks and no mismatch lead to another message
-/

namespace OneShot.Message

open Json
open Json.Skip

/-! ### Inside what a header opens -/

/-- What an opening brace does inside a container: it opens an object, or it stands in a string or
in a numeric escape, which it spoils. -/
private theorem state_of_openBrace (s s' : State) (hs : s.Valid) (hne : s.around ≠ [])
    (h : step s openBrace = .next s') :
    s' = ⟨.firstKey, .object :: s.around⟩ ∨ (∃ key, s' = ⟨.string key, s.around⟩) ∨
      ∃ key owed, s' = ⟨.hex key owed false, s.around⟩ := by
  obtain ⟨mode, around⟩ := s
  -- a container takes no brace behind a value
  have hafter : afterValue around openBrace ≠ .next s' := by
    rcases around with _ | ⟨_ | _, outer⟩
    · exact absurd rfl hne
    · intro hafter
      cases hafter
    · intro hafter
      cases hafter
  -- after a whole value a brace is refused, and no word and no key starts with one
  cases mode with
  | value | firstElement => exact .inl (Reaction.next.inj h).symm
  | afterValue | zero | integer | fraction | exponent => exact absurd h hafter
  | string key => exact .inr (.inl ⟨key, (Reaction.next.inj h).symm⟩)
  | literal tail =>
    -- no rest of a word begins with a brace
    have hall : ∀ t ∈ wordTails, (Mode.literal t).move openBrace = .refuse .expectedLiteral true := by
      decide
    simp only [step, hall tail hs, Move.apply] at h
    cases h
  | hex key owed good =>
    -- a brace is no digit, so a code that is already bad stays bad
    have hdigit : (good && (hexValue? openBrace).isSome) = false := by
      rw [show (hexValue? openBrace).isSome = false from rfl, Bool.and_false]
    simp only [step, Mode.move, hdigit, Bool.false_eq_true, if_false] at h
    split at h
    · exact .inr (.inr ⟨key, owed - 1, (Reaction.next.inj h).symm⟩)
    · cases h
  | _ => cases h

/-- A numeric escape that was spoiled is never left. -/
private theorem mode_of_reach_hex (key : Bool) (owed : Nat) (around : List Container) (bs : Bytes)
    (t : State) (h : reach ⟨.hex key owed false, around⟩ bs = some t) :
    ∃ owed', t.mode = .hex key owed' false := by
  -- induction on the bytes: each is counted, and the last one is refused
  induction bs generalizing owed with
  | nil => exact ⟨owed, by rw [← Option.some.inj h]⟩
  | cons b bs ih =>
    obtain ⟨s', hstep, h⟩ := exists_step_of_reach _ t b bs h
    simp only [step, Mode.move, Bool.false_and, Bool.false_eq_true, if_false] at hstep
    split at hstep
    · -- the byte is counted against the ones that are owed
      simp only [Move.apply, Reaction.next.injEq] at hstep
      rw [← hstep] at h
      exact ih (owed - 1) h
    · cases hstep

/-- A quote ends a string in a container, and no text may come then. -/
private theorem reach_string_ne (key : Bool) (around : List Container) (q rest : Bytes)
    (hne : around ≠ []) (hq : q <+: quoteByte :: 0x74 :: rest) :
    reach ⟨.string key, around⟩ q ≠ some ⟨.afterValue, []⟩ := by
  intro h
  have hquote : step ⟨.string key, around⟩ quoteByte = .next ⟨afterString key, around⟩ := rfl
  rw [List.prefix_cons_iff] at hq
  -- up to its first quote, then with it, then with the letter behind it
  rcases hq with rfl | ⟨q₁, rfl, hq₁⟩
  · cases h
  · rw [reach_cons_of_step _ _ _ _ hquote] at h
    rw [List.prefix_cons_iff] at hq₁
    rcases hq₁ with rfl | ⟨q₂, rfl, -⟩
    · simp only [reach_nil, Option.some.injEq, State.mk.injEq] at h
      exact hne h.2
    · obtain ⟨s', hstep, -⟩ := exists_step_of_reach _ _ _ q₂ h
      -- behind a string stands a comma, a colon or a closing bracket, and no letter
      cases key with
      | true => cases hstep
      | false =>
        rcases around with _ | ⟨_ | _, outer⟩
        · exact hne rfl
        · cases hstep
        · cases hstep

/-- An object inside a container stays there, and so does all that comes of it. -/
private theorem reach_object_ne (around : List Container) (q tail : Bytes) (m : Message)
    (hne : around ≠ []) (hm : m.encode = openBrace :: tail) (hq : q <+: tail) :
    reach ⟨.firstKey, .object :: around⟩ q ≠ some ⟨.afterValue, []⟩ := by
  intro h
  obtain ⟨b, tail', c, hcons, hopen, hmessage⟩ := reach_of_spells m.encode m (spells_encode m)
  rw [hm] at hcons
  obtain ⟨rfl, rfl⟩ := List.cons.inj hcons
  have hobject : step start openBrace = .next ⟨.firstKey, [.object]⟩ := rfl
  rw [Reaction.next.inj (hopen.symm.trans hobject)] at hmessage
  -- alone the object leaves the machine with some containers, here it has those around too
  obtain ⟨q', rfl⟩ := hq
  obtain ⟨⟨mode, inner⟩, hinner, -⟩ := exists_reach_of_append _ _ q q' hmessage
  have houter := reach_append_around .firstKey mode [.object] inner around q rfl hinner
  rw [List.singleton_append, h, Option.some.injEq, State.mk.injEq] at houter
  exact hne (List.append_eq_nil_iff.mp houter.2.symm).2

/-- A message does not close a container that was open before it. -/
theorem reach_encode_ne (s : State) (m : Message) (q : Bytes) (hs : s.Valid) (hne : s.around ≠ [])
    (hq : q <+: m.encode) : reach s q ≠ some ⟨.afterValue, []⟩ := by
  intro h
  -- a message starts with a brace, a quote and the first letter of a key
  obtain ⟨rest, hm⟩ : ∃ rest, m.encode = openBrace :: quoteByte :: 0x74 :: rest := ⟨_, rfl⟩
  rw [hm, List.prefix_cons_iff] at hq
  rcases hq with rfl | ⟨q', rfl, hq'⟩
  · rw [Option.some.inj h] at hne
    exact hne rfl
  · -- after the brace one of three things is open, and the message closes none of them
    obtain ⟨s', hstep, hreach⟩ := exists_step_of_reach s _ openBrace q' h
    rcases state_of_openBrace s s' hs hne hstep with rfl | ⟨key, rfl⟩ | ⟨key, owed, rfl⟩
    · exact reach_object_ne s.around q' _ m hne hm hq' hreach
    · exact reach_string_ne key s.around q' rest hne hq' hreach
    · obtain ⟨owed', hmode⟩ := mode_of_reach_hex key owed s.around q' _ hreach
      cases hmode

/-! ### Four bytes before a message -/

/-- A spelling of a message is longer than a header. -/
private theorem length_of_spells (a : Bytes) (m : Message) (h : Spells a m) : 4 < a.length := by
  cases h with
  | object hbody htext _ =>
    cases hbody with
    -- an object has a member at least
    | close _ => cases htext
    | first _ hmember _ =>
      obtain ⟨-, -, -⟩ := hmember
      simp only [List.length_cons, List.length_append, List.length_nil]
      omega
  -- two brackets, two quotes and a comma
  | list _ _ _ _ _ _ =>
    simp only [List.length_cons, List.length_append, List.length_nil]
    omega

/-- What starts with the letter x, as a payload does behind its first four bytes, is no message. -/
theorem decode_ne_of_x (rest : Bytes) (m : Message) : decode (0x78 :: rest) ≠ .ok m := by
  intro h
  obtain ⟨u, a, v, hu, ha, -, hbs⟩ := (decode_eq_ok_iff _ m).mp h
  cases u with
  -- the value would begin with the letter
  | nil =>
    obtain ⟨b, tail, c, rfl, hstep, -⟩ := reach_of_spells a m ha
    obtain ⟨rfl, -⟩ := List.cons.inj hbs
    cases hstep
  -- the letter would be white space
  | cons b u =>
    obtain ⟨rfl, -⟩ := List.cons.inj hbs
    have hb := hu _ List.mem_cons_self
    cases hb

/-- What starts with at most four bytes before a message, and goes on into it, is no spelling of a
message: it would have to end where those bytes and a beginning of the message leave the machine. -/
private theorem not_spells_append (w q : Bytes) (m m' : Message) (hw : w ≠ []) (hlength : w.length ≤ 4)
    (hq : q <+: m.encode) : ¬Spells (w ++ q) m' := by
  intro ha
  have hlong := length_of_spells _ m' ha
  obtain ⟨b, tail, c, hcons, -, hreach⟩ := reach_of_spells _ m' ha
  -- the first of the few bytes opens the message, the others and q close it
  obtain ⟨b', w', rfl⟩ := List.exists_cons_of_ne_nil hw
  rw [List.cons_append] at hcons hlong
  obtain ⟨rfl, rfl⟩ := List.cons.inj hcons
  obtain ⟨s, hs, hend⟩ := exists_reach_of_append _ _ w' q hreach
  have hvalid : s.Valid := (valid_opened c []).reach hs
  have hinside : s.Inside := (inside_opened c []).reach hs
  refine reach_encode_ne s m q hvalid ?_ hq hend
  -- with no container open the value would be over already, after no more than four bytes
  intro hnil
  obtain ⟨mode, around⟩ := s
  obtain rfl : around = [] := hnil
  obtain rfl : mode = .afterValue := hinside rfl
  cases q with
  | nil =>
    simp only [List.append_nil, List.length_cons] at hlong hlength
    omega
  | cons d q => cases hend

/-- At most four bytes before a message do not make another message of it. -/
theorem eq_of_decode_of_prefix (header p : Bytes) (m m' : Message) (hheader : header.length ≤ 4)
    (hp : p <+: header ++ m.encode) (hm' : decode p = .ok m') : m' = m := by
  obtain ⟨u, a, v, hu, ha, hv, rfl⟩ := (decode_eq_ok_iff p m').mp hm'
  rw [← List.append_assoc] at hp
  have hua : u ++ a <+: header ++ m.encode := (List.prefix_append (u ++ a) v).trans hp
  have hu' : u <+: header ++ m.encode := (List.prefix_append u a).trans hua
  rcases Nat.lt_or_ge u.length header.length with hlt | hge
  · -- the message starts in the header, and cannot end behind it
    have hlong := length_of_spells a m' ha
    -- what is left of the header is the beginning of the message
    obtain ⟨w, rfl⟩ := List.prefix_of_prefix_length_le hu' (List.prefix_append header m.encode)
      (by omega)
    rw [List.append_assoc, List.prefix_append_right_inj] at hua
    rw [List.length_append] at hheader hlt
    have hw : w ≠ [] := by
      intro hnil
      rw [hnil, List.length_nil] at hlt
      omega
    obtain ⟨q, rfl⟩ := List.prefix_of_prefix_length_le (List.prefix_append w m.encode) hua (by omega)
    rw [List.prefix_append_right_inj] at hua
    exact absurd ha (not_spells_append w q m m' hw (by omega) hua)
  · -- the header is white space
    have hspace : Spaces header := by
      have hstart := List.prefix_of_prefix_length_le (List.prefix_append header m.encode) hu' hge
      exact fun b hb => hu b (hstart.subset hb)
    have hm := decode_spaces_encode m header [] hspace spaces_nil
    rw [List.append_nil] at hm
    rw [List.append_assoc] at hp
    rcases beginning_cases _ _ m hm hp with hok | ⟨hfails, -⟩
    · exact (Except.ok.inj (hok.symm.trans hm')).symm
    · exact absurd hm' (hfails m')

end OneShot.Message

namespace OneShot.Framing

open Json (Spaces spaces_nil)

/-! ### Frames -/

/-- A frame is the payload behind a header or before white space. -/
theorem exists_of_encode (f : Framing) (payload frame : Bytes) (h : f.encode payload = .ok frame) :
    ∃ header rest, frame = header ++ (payload ++ rest) ∧ header.length = f.headerLength ∧
      Spaces rest ∧ (header = [] ∨ rest = []) := by
  -- only a newline stands behind a payload, and only a length in front of one
  cases f with
  | unframed =>
    obtain rfl := Except.ok.inj h
    exact ⟨[], [], by simp, rfl, spaces_nil, .inl rfl⟩
  | newline =>
    obtain ⟨-, rfl⟩ := (encode_newline_eq_ok_iff payload frame).mp h
    -- a newline is white space
    have hspace : Spaces [lineEnd] := by
      intro b hb
      rw [List.mem_singleton.mp hb]
      rfl
    exact ⟨[], [lineEnd], rfl, rfl, hspace, .inl rfl⟩
  | lengthPrefixed =>
    obtain ⟨-, rfl⟩ := (encode_lengthPrefixed_eq_ok_iff payload frame).mp h
    exact ⟨bigEndian payload.length, [], by simp, rfl, spaces_nil, .inr rfl⟩

/-- Whatever part of the frame of a message arrives, in whatever chunks, and whatever framing it is
read under: if a message comes of it, then it is this one. -/
theorem eq_of_readFrame (writer reader : Framing) (limit : Nat) (chunks : List Bytes)
    (ending : Reader.Ending) (m m' : Message) (frame p : Bytes)
    (hframe : writer.encode m.encode = .ok frame) (hcut : chunks.flatten <+: frame)
    (hread : reader.readFrame limit chunks ending = .payload p)
    (hm' : Message.decode p = .ok m') : m' = m := by
  obtain ⟨header, rest, rfl, hheader, hrest, hempty⟩ := exists_of_encode writer _ frame hframe
  -- every reader hands on a prefix of what is behind its own header
  have hp : p <+: (header ++ (m.encode ++ rest)).drop reader.headerLength :=
    (prefix_of_readFrame reader limit chunks ending p hread).trans (hcut.drop _)
  by_cases hsame : reader.headerLength = writer.headerLength
  · -- what is read stands where the payload was written
    rw [hsame, ← hheader, List.drop_left] at hp
    have hm := Message.decode_spaces_encode m [] rest spaces_nil hrest
    rcases Message.beginning_cases _ p m hm hp with hok | ⟨hfails, -⟩
    · exact (Except.ok.inj (hok.symm.trans hm')).symm
    · exact absurd hm' (hfails m')
  · by_cases hwriter : writer.headerLength = 0
    · -- the first four bytes of the payload are taken for a header
      have hreader : reader.headerLength = 4 := by
        cases reader <;> simp_all [headerLength]
      obtain rfl : header = [] := List.eq_nil_of_length_eq_zero (hheader.trans hwriter)
      obtain ⟨tail, htail⟩ : ∃ tail, (m.encode ++ rest).drop 4 = 0x78 :: tail := ⟨_, rfl⟩
      rw [hreader, List.nil_append, htail, List.prefix_cons_iff] at hp
      rcases hp with rfl | ⟨p', rfl, -⟩
      · cases hm'
      · exact absurd hm' (Message.decode_ne_of_x p' m')
    · -- the header is taken for the beginning of the payload
      have hreader : reader.headerLength = 0 := by
        cases reader <;> cases writer <;> simp_all [headerLength]
      have hlength : header.length ≤ 4 := by
        rw [hheader]
        cases writer <;> simp [headerLength]
      have hne : header ≠ [] := by
        rintro rfl
        exact hwriter hheader.symm
      obtain rfl := hempty.resolve_left hne
      rw [hreader, List.drop_zero, List.append_nil] at hp
      exact Message.eq_of_decode_of_prefix header p m m' hlength hp hm'

/-- A line that is cut before its newline and read without a frame gives its message. -/
theorem eq_of_readFrame_cut_line :
    Framing.newline.encode (Message.encode ⟨"x", 5⟩) = .ok (Message.encode ⟨"x", 5⟩ ++ [lineEnd]) ∧
    [Message.encode ⟨"x", 5⟩].flatten <+: Message.encode ⟨"x", 5⟩ ++ [lineEnd] ∧
    Framing.unframed.readFrame 100 [Message.encode ⟨"x", 5⟩] .closed =
      .payload (Message.encode ⟨"x", 5⟩) ∧
    Message.decode (Message.encode ⟨"x", 5⟩) = .ok ⟨"x", 5⟩ ∧
    (⟨"x", 5⟩ : Message) = ⟨"x", 5⟩ := by
  have hframe : Framing.newline.encode (Message.encode ⟨"x", 5⟩) =
      .ok (Message.encode ⟨"x", 5⟩ ++ [lineEnd]) := by decide +kernel
  have hcut : [Message.encode ⟨"x", 5⟩].flatten <+: Message.encode ⟨"x", 5⟩ ++ [lineEnd] := by
    simp
  have hread : Framing.unframed.readFrame 100 [Message.encode ⟨"x", 5⟩] .closed =
      .payload (Message.encode ⟨"x", 5⟩) := by decide +kernel
  have hm := Message.decode_encode ⟨"x", 5⟩
  exact ⟨hframe, hcut, hread, hm,
    eq_of_readFrame .newline .unframed 100 _ .closed _ _ _ _ hframe hcut hread hm⟩

end OneShot.Framing
