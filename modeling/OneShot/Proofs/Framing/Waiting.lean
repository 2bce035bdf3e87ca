import OneShot.Proofs.Framing.Unfinished
import OneShot.Proofs.Json.Completion

/-!
# What a reader without frames waits for

A reader without frames waits while what it holds looks unfinished. Then it holds the beginning of a
value, and some continuation makes it whole, with one exception: the digits of a numeric escape are
looked at when all four have come, so that a wrong one among fewer than four is not seen yet. Such
bytes are waited behind though no continuation helps; three more bytes at most put an end to that.

All other bytes that no continuation can make whole are taken for the payload as soon as they are
held. They are no message, so whoever asked for one is told.

## Key results

- `waits_for_values`: what is waited behind, and what is not
- `not_startsValue_of_isPrefix`: a wrong digit that is waited behind
-/

namespace OneShot.Reader

open Json (isPrefix StartsValue IsValue)
open Json.Skip (breaksEscape startsValue_iff_of_isPrefix isPrefix_append_of_breaksEscape)

/-- What is read as a message is a value. -/
private theorem startsValue_of_decode (bs : Bytes) (m : Message) (h : Message.decode bs = .ok m) :
    StartsValue bs := by
  obtain ⟨v, hv, hskip⟩ := Message.exists_skip_of_decode bs m h
  refine ⟨[], v, ?_, hv⟩
  rw [List.append_nil, hskip]

/-- Within the limit, what does not look unfinished is taken for the payload. -/
private theorem attempt_of_isPrefix (limit : Nat) (bs : Bytes) (hlimit : bs.length ≤ limit)
    (h : isPrefix bs = false) : attempt .unframed limit ⟨bs, none⟩ = .frame bs := by
  simp only [attempt, Nat.not_lt.mpr hlimit, if_false, h, Bool.false_eq_true]

/-- A reader that waits has nothing left to read, and what it holds looks unfinished. -/
private theorem isPrefix_of_waiting (limit : Nat) (chunks : List Bytes)
    (h : Framing.unframed.readFrame limit chunks .silent = .waiting) :
    isPrefix chunks.flatten = true := by
  rcases readFrame_cases .unframed limit chunks .silent with
    ⟨⟨-, hlooks⟩, -⟩ | ⟨-, ⟨p, hread⟩ | ⟨e, hread, -⟩⟩
  · by_cases hnil : chunks.flatten = []
    · -- nothing has come yet
      rw [hnil]
      rfl
    -- it waits, so what it held at the last read looked unfinished
    · have hlast := add_mem_chunkEnds 0 chunks hnil
      rw [Nat.zero_add] at hlast
      have hwhole := hlooks _ hlast
      rwa [List.take_length] at hwhole
  · rw [h] at hread
    cases hread
  · rw [h] at hread
    cases hread

/-- Bytes that look unfinished are the beginning of a value, unless they break an escape. What no
continuation can make a value of is taken for the payload at once, and is no message; after a broken
escape that is so when three more bytes have come. So a reader that waits holds the beginning of a
value, or a broken escape. -/
theorem waits_for_values (limit : Nat) (bs : Bytes) :
    (isPrefix bs = true → (StartsValue bs ↔ breaksEscape bs = false)) ∧
    (bs.length ≤ limit → ¬StartsValue bs → breaksEscape bs = false →
      attempt .unframed limit ⟨bs, none⟩ = .frame bs ∧ ∀ m, Message.decode bs ≠ .ok m) ∧
    (∀ e : Bytes, (bs ++ e).length ≤ limit → breaksEscape bs = true → 3 ≤ e.length →
      attempt .unframed limit ⟨bs ++ e, none⟩ = .frame (bs ++ e) ∧
        ∀ m, Message.decode (bs ++ e) ≠ .ok m) ∧
    ∀ chunks : List Bytes, chunks.flatten = bs →
      Framing.unframed.readFrame limit chunks .silent = .waiting →
      StartsValue bs ∨ breaksEscape bs = true := by
  have hmessage : ∀ bs, ¬StartsValue bs → ∀ m, Message.decode bs ≠ .ok m :=
    fun bs hbs m hm => hbs (startsValue_of_decode bs m hm)
  refine ⟨startsValue_iff_of_isPrefix bs, ?_, ?_, ?_⟩
  · intro hlimit hbs hbreaks
    -- had it looked unfinished, a continuation would make it a value
    have hlooks : isPrefix bs = false := by
      rw [Bool.eq_false_iff]
      intro hlooks
      exact hbs ((startsValue_iff_of_isPrefix bs hlooks).mpr hbreaks)
    exact ⟨attempt_of_isPrefix limit bs hlimit hlooks, hmessage bs hbs⟩
  · intro e hlimit hbreaks he
    -- three more bytes fill the escape, and it is refused whatever they are
    obtain ⟨-, hlooks, hnever⟩ := isPrefix_append_of_breaksEscape bs hbreaks
    exact ⟨attempt_of_isPrefix limit _ hlimit (hlooks e he), hmessage _ (hnever e)⟩
  · rintro chunks rfl hwaiting
    -- a reader that waits holds bytes that look unfinished
    have hiff := startsValue_iff_of_isPrefix _ (isPrefix_of_waiting limit chunks hwaiting)
    cases hbreaks : breaksEscape chunks.flatten with
    | false => exact .inl (hiff.mpr hbreaks)
    | true => exact .inr rfl

/-- Bytes of each kind: a list with an escape that lacks digits, a bracket that closes nothing, the
letter Z in an escape with what comes behind it, and a member that is waited behind. -/
theorem waits_for_values_each_kind :
    isPrefix (Utf8.encodeString "[1,\"\\u00") = true ∧
    StartsValue (Utf8.encodeString "[1,\"\\u00") ∧
    ¬StartsValue (Utf8.encodeString "]") ∧
    attempt .unframed 100 ⟨Utf8.encodeString "]", none⟩ = .frame (Utf8.encodeString "]") ∧
    breaksEscape (Utf8.encodeString "\"\\uZ") = true ∧
    attempt .unframed 100 ⟨Utf8.encodeString "\"\\uZ" ++ Utf8.encodeString "000", none⟩ =
      .frame (Utf8.encodeString "\"\\uZ" ++ Utf8.encodeString "000") ∧
    Framing.unframed.readFrame 100 [Utf8.encodeString "[\x7b", Utf8.encodeString "\"a\":"] .silent =
      .waiting ∧
    (StartsValue (Utf8.encodeString "[\x7b\"a\":") ∨
      breaksEscape (Utf8.encodeString "[\x7b\"a\":") = true) := by
  have hlooks : isPrefix (Utf8.encodeString "[1,\"\\u00") = true := by decide
  have hnever : ¬StartsValue (Utf8.encodeString "]") := by
    -- the bracket is refused, whatever comes behind it
    rintro ⟨e, rest, hskip, -⟩
    cases hskip
  have hbreaks : breaksEscape (Utf8.encodeString "\"\\uZ") = true := by decide
  have hwaiting : Framing.unframed.readFrame 100
      [Utf8.encodeString "[\x7b", Utf8.encodeString "\"a\":"] .silent = .waiting := by
    decide +kernel
  -- one buffer for each of the four cases
  obtain ⟨hbegins, -⟩ := waits_for_values 100 (Utf8.encodeString "[1,\"\\u00")
  obtain ⟨-, hyields, -⟩ := waits_for_values 100 (Utf8.encodeString "]")
  obtain ⟨-, -, hlater, -⟩ := waits_for_values 100 (Utf8.encodeString "\"\\uZ")
  obtain ⟨-, -, -, hwaits⟩ := waits_for_values 100 (Utf8.encodeString "[\x7b\"a\":")
  refine ⟨hlooks, (hbegins hlooks).mpr (by decide), hnever, ?_, hbreaks, ?_, hwaiting, ?_⟩
  · exact (hyields (by decide) hnever (by decide)).1
  · exact (hlater _ (by decide) hbreaks (by decide)).1
  · exact hwaits _ (by decide) hwaiting

/-- A wrong digit in a numeric escape is not seen until all four have come: the bytes look
unfinished, though nothing can come of them. -/
theorem not_startsValue_of_isPrefix :
    ¬∀ bs, isPrefix bs = true → ∃ e, IsValue (bs ++ e) := by
  intro h
  have hbreaks : breaksEscape (Utf8.encodeString "\x7b\"text\":\"\\uZ") = true := by decide
  obtain ⟨hlooks, -, hnever⟩ := isPrefix_append_of_breaksEscape _ hbreaks
  have hstarts := h _ hlooks
  exact hnever [] (by rwa [List.append_nil])

end OneShot.Reader
