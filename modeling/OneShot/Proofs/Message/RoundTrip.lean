import Mathlib.Logic.Function.Basic
import OneShot.Proofs.Message.Reading

/-!
# Round trip of messages

The payload of a message spells that message: its text is spelled as a string, its identifier as an
integer literal, and the two are members of an object. So every message is read back from its
payload, also from between white space.

## Key results

- `spells_encode`: the payload of a message spells it
- `encode_roundtrip`: every message is read back, and no two messages have the same payload
-/

namespace OneShot.Message

open Json
open Json.StringBody (Denotes denotes_encode unescapes_of_isRaw)
open Json.Numeral (integerLiteral_encode)

/-- The keys of a message stand for themselves. -/
private theorem denotes_key (key : Bytes) (s : String) (hraw : key.all StringBody.isRaw = true)
    (hkey : Utf8.encodeString s = key) : Denotes key s := by
  rw [Denotes, hkey]
  exact unescapes_of_isRaw key (List.all_eq_true.mp hraw)

/-- The payload of a message is an object with its text and its identifier. -/
theorem exists_body_encode (m : Message) :
    ∃ body, Body true body [.text m.text, .id m.id] ∧ m.encode = openBrace :: (body ++ [closeBrace]) := by
  have htext : Member _ (.text m.text) :=
    .mk (denotes_key [0x74, 0x65, 0x78, 0x74] "text" rfl rfl) spaces_nil
      (.text spaces_nil (denotes_encode m.text))
  have hid : Member _ (.id m.id) :=
    .mk (denotes_key [0x69, 0x64] "id" rfl rfl) spaces_nil
      (.id spaces_nil (integerLiteral_encode m.id.toInt))
  refine ⟨_, .first spaces_nil htext (.next spaces_nil spaces_nil hid (.close spaces_nil)), ?_⟩
  simp [encode, opening, middle, openBrace, quoteByte, colon, comma]

/-- The payload of a message spells that message. -/
theorem spells_encode (m : Message) : Spells m.encode m := by
  obtain ⟨body, hbody, hbytes⟩ := exists_body_encode m
  rw [hbytes]
  exact .object hbody rfl rfl

/-- A message is read back from between white space. -/
theorem decode_spaces_encode (m : Message) (u v : Bytes) (hu : Spaces u) (hv : Spaces v) :
    decode (u ++ m.encode ++ v) = .ok m := by
  rw [decode_eq_ok_iff]
  exact ⟨u, m.encode, v, hu, spells_encode m, hv, List.append_assoc u m.encode v⟩

/-- A message is read back from its payload. -/
@[simp] theorem decode_encode (m : Message) : decode m.encode = .ok m := by
  have h := decode_spaces_encode m [] [] spaces_nil spaces_nil
  rwa [List.nil_append, List.append_nil] at h

/-- Every message is read back from its payload, also with white space around it, so that different
messages have different payloads. -/
theorem encode_roundtrip :
    (∀ m : Message, decode m.encode = .ok m) ∧
    (∀ (m : Message) (u v : Bytes), (∀ b ∈ u, isSpace b = true) → (∀ b ∈ v, isSpace b = true) →
      decode (u ++ m.encode ++ v) = .ok m) ∧
    Function.Injective encode := by
  refine ⟨decode_encode, decode_spaces_encode, fun m m' h => ?_⟩
  have hm := decode_encode m
  rw [h, decode_encode m'] at hm
  exact (Except.ok.inj hm).symm

/-- The round trip at the least identifier, with a tab before the payload and a newline after it. -/
theorem encode_roundtrip_least_id :
    (∀ b ∈ ([0x09] : Bytes), isSpace b = true) ∧ (∀ b ∈ ([0x0A] : Bytes), isSpace b = true) ∧
    decode ([0x09] ++ encode ⟨"a\"\u00e9", -9223372036854775808⟩ ++ [0x0A]) =
      .ok ⟨"a\"\u00e9", -9223372036854775808⟩ :=
  have htab : ∀ b ∈ ([0x09] : Bytes), isSpace b = true := List.all_eq_true.mp rfl
  have hnewline : ∀ b ∈ ([0x0A] : Bytes), isSpace b = true := List.all_eq_true.mp rfl
  ⟨htab, hnewline, encode_roundtrip.2.1 _ _ _ htab hnewline⟩

end OneShot.Message
