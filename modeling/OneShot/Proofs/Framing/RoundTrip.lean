import OneShot.Proofs.Framing.AtOnce
import OneShot.Proofs.Framing.Bounded
import OneShot.Proofs.Framing.Frames

/-!
# Which payloads come back from their frames

A frame is decided with its last byte: one attempt on it never asks for more. So what follows the
frame, the cuts between the reads and the end of the stream do not count, and the payload comes back
exactly if the framing keeps it and it is within the limit.

## Key results

- `attempt_encode_iff`: which frames give their payload
- `readFrame_eq_payload_iff`: a stream that starts with a frame gives its payload exactly then
- `encode_readFrame`: the payloads that can be framed, their frames, and those that come back
-/

namespace OneShot

namespace Reader

open Framing (lineEnd)

/-- A frame is decided: it gives a payload or fails. -/
theorem attempt_encode_ne_more (f : Framing) (hf : f ≠ .unframed) (limit : Nat)
    (payload frame : Bytes) (hframe : f.encode payload = .ok frame) (r : Reader) :
    attempt f limit ⟨frame, none⟩ ≠ .more r := by
  intro h
  cases f with
  | unframed => exact hf rfl
  | newline =>
    obtain ⟨-, rfl⟩ := (Framing.encode_newline_eq_ok_iff payload frame).mp hframe
    simp only [attempt] at h
    split at h
    · -- a newline that was found ends the reading
      simp only [lineProgress] at h
      split at h <;> cases h
    · rename_i hbefore
      split at h
      · cases h
      · -- all bytes are looked at, the newline included
        rename_i hlimit
        rw [List.take_of_length_le (by omega), beforeNewline_eq_none_iff] at hbefore
        exact hbefore (by simp)
  | lengthPrefixed =>
    obtain ⟨hgreatest, rfl⟩ := (Framing.encode_lengthPrefixed_eq_ok_iff payload frame).mp hframe
    -- the body is there, as long as the header says
    rw [attempt_bigEndian limit payload hgreatest] at h
    split at h
    · cases h
    · simp only [body, Nat.lt_irrefl, if_false] at h
      split at h <;> cases h

/-- A line that is itself does not end in a carriage return. -/
private theorem getLast?_ne_of_line (bs : Bytes) (h : line bs = .ok bs) :
    bs.getLast? ≠ some 0x0D := by
  intro hlast
  simp only [line, hlast, beq_self_eq_true, if_true] at h
  split at h
  · -- without its last byte it would be shorter
    have hlength := congrArg List.length (Except.ok.inj h)
    rw [List.length_dropLast] at hlength
    have hpos := List.length_pos_iff.mpr (List.ne_nil_of_mem (List.mem_of_getLast? hlast))
    omega
  · cases h

/-- A framing keeps the payloads that their frames give. -/
theorem keeps_of_attempt (f : Framing) (hf : f ≠ .unframed) (limit : Nat) (payload frame : Bytes)
    (hframe : f.encode payload = .ok frame)
    (h : attempt f limit ⟨frame, none⟩ = .frame payload) : f.Keeps payload := by
  cases f with
  | unframed => exact absurd rfl hf
  | newline =>
    obtain ⟨-, rfl⟩ := (Framing.encode_newline_eq_ok_iff payload frame).mp hframe
    simp only [attempt] at h
    split at h
    · rename_i before hbefore
      simp only [lineProgress] at h
      split at h
      · rename_i hline
        obtain rfl := Progress.frame.inj h
        -- the line is no longer than the payload, so it is the payload
        obtain ⟨rest, htake, hnewline⟩ := (beforeNewline_eq_some_iff _ before).mp hbefore
        have hlength := congrArg List.length htake
        simp only [List.length_take, List.length_append, List.length_cons, List.length_nil] at hlength
        obtain rfl := (prefix_of_line before _ hline).eq_of_length_le (by omega)
        exact ⟨hnewline, getLast?_ne_of_line _ hline⟩
      · cases h
    · split at h <;> cases h
  | lengthPrefixed =>
    obtain ⟨hgreatest, rfl⟩ := (Framing.encode_lengthPrefixed_eq_ok_iff payload frame).mp hframe
    -- an empty payload is refused by its length
    rintro rfl
    rw [attempt_bigEndian limit [] hgreatest] at h
    simp [body] at h

/-- A frame gives its payload exactly if the framing keeps it and it is within the limit. -/
theorem attempt_encode_iff (f : Framing) (hf : f ≠ .unframed) (limit : Nat)
    (payload frame : Bytes) (hframe : f.encode payload = .ok frame) :
    attempt f limit ⟨frame, none⟩ = .frame payload ↔ f.Keeps payload ∧ payload.length ≤ limit := by
  constructor
  · intro h
    have hbounded := attempt_bounded f limit {} frame (bounded_start f limit)
    rw [show attempt f limit (hold {} frame) = .frame payload from h] at hbounded
    exact ⟨keeps_of_attempt f hf limit payload frame hframe h, hbounded⟩
  · intro h
    exact attempt_encode f limit payload frame hframe h.1 h.2

end Reader

namespace Framing

open Reader

/-- A stream that starts with a frame gives its payload exactly if the framing keeps it and it is
within the limit. -/
theorem readFrame_eq_payload_iff (f : Framing) (hf : f ≠ .unframed) (limit : Nat)
    (payload frame rest : Bytes) (chunks : List Bytes) (ending : Ending)
    (hframe : f.encode payload = .ok frame) (hstream : chunks.flatten = frame ++ rest) :
    f.readFrame limit chunks ending = .payload payload ↔
      f.Keeps payload ∧ payload.length ≤ limit := by
  have hmore := attempt_hold f hf limit ⟨frame, none⟩ rest
  have hhold : hold ⟨frame, none⟩ rest = ⟨chunks.flatten, none⟩ := by rw [hold, hstream]
  rw [← attempt_encode_iff f hf limit payload frame hframe, readFrame_eq_attempt f hf, ← hhold, hmore]
  -- the frame alone decides
  cases hattempt : attempt f limit ⟨frame, none⟩ with
  | more r => exact absurd hattempt (attempt_encode_ne_more f hf limit payload frame hframe r)
  | frame p => simp
  | failed e => simp

/-- Exactly the payloads that are no text have no frame as a line. -/
theorem exists_encode_newline_error_iff (payload : Bytes) :
    (∃ e, newline.encode payload = .error e) ↔ ¬Utf8.IsText payload := by
  by_cases htext : Utf8.IsText payload
  · obtain ⟨text, rfl⟩ := htext
    simp [encode, Utf8.IsText]
  · obtain ⟨fault, hfault⟩ := Utf8.exists_fault_of_not_isText payload htext
    simp [encode, hfault, htext]

/-- Exactly the payloads whose length does not fit into four bytes have no frame behind it. -/
theorem exists_encode_lengthPrefixed_error_iff (payload : Bytes) :
    (∃ e, lengthPrefixed.encode payload = .error e) ↔ greatestLength < payload.length := by
  simp only [encode]
  split
  · rename_i hle
    simp [hle]
  · rename_i hlt
    simp [Nat.not_le.mp hlt]

/-- The header of a frame is the length of its payload. -/
theorem exists_header (payload frame : Bytes) (h : lengthPrefixed.encode payload = .ok frame) :
    ∃ header, frame = header ++ payload ∧ header.length = 4 ∧ ofBigEndian header = payload.length := by
  obtain ⟨hgreatest, hframe⟩ := (encode_lengthPrefixed_eq_ok_iff payload frame).mp h
  exact ⟨_, hframe, bigEndian_length _, ofBigEndian_bigEndian _ hgreatest⟩

/-- Text and only text is framed as a line, and such a frame gives its payload exactly if there is
no newline in it, no carriage return at its end, and no byte beyond the limit. A payload is framed
behind its length exactly if that fits into four bytes, which then hold it in full, and such a frame
gives its payload exactly if that is not empty and within the limit. Neither what follows the frame
nor the cuts between the reads nor the end of the stream count. -/
theorem encode_readFrame (payload : Bytes) :
    ((∃ e, newline.encode payload = .error e) ↔ ¬Utf8.IsText payload) ∧
    (∀ e, newline.encode payload = .error e → e.failure.kind = .invalidInput) ∧
    (∀ frame, newline.encode payload = .ok frame →
      ∀ (limit : Nat) (rest : Bytes) (chunks : List Bytes) (ending : Ending),
        chunks.flatten = frame ++ rest →
        (newline.readFrame limit chunks ending = .payload payload ↔
          lineEnd ∉ payload ∧ payload.getLast? ≠ some 0x0D ∧ payload.length ≤ limit)) ∧
    ((∃ e, lengthPrefixed.encode payload = .error e) ↔ 0xFFFFFFFF < payload.length) ∧
    (∀ frame, lengthPrefixed.encode payload = .ok frame →
      (∃ header, frame = header ++ payload ∧ header.length = 4 ∧
        ofBigEndian header = payload.length) ∧
      ∀ (limit : Nat) (rest : Bytes) (chunks : List Bytes) (ending : Ending),
        chunks.flatten = frame ++ rest →
        (lengthPrefixed.readFrame limit chunks ending = .payload payload ↔
          0 < payload.length ∧ payload.length ≤ limit)) := by
  refine ⟨exists_encode_newline_error_iff payload, ?_, ?_,
    exists_encode_lengthPrefixed_error_iff payload, ?_⟩
  · intro e _
    cases e <;> rfl
  · -- a line is kept without a newline in it and a carriage return at its end
    intro frame hframe limit rest chunks ending hstream
    rw [readFrame_eq_payload_iff newline (by decide) limit payload frame rest chunks ending hframe
      hstream, Keeps, and_assoc]
  · intro frame hframe
    -- behind its length every payload is kept but the empty one
    refine ⟨exists_header payload frame hframe, fun limit rest chunks ending hstream => ?_⟩
    rw [readFrame_eq_payload_iff lengthPrefixed (by decide) limit payload frame rest chunks ending
      hframe hstream, Keeps, List.length_pos_iff]

/-- Both frames of three bytes with a carriage return inside, at just the limit, with a byte too many
behind them and a failing stream; and a byte that is no text. -/
theorem encode_readFrame_inner_return :
    newline.encode [0x61, 0x0D, 0x62] = .ok [0x61, 0x0D, 0x62, 0x0A] ∧
    newline.readFrame 3 [[0x61, 0x0D], [0x62], [0x0A, 0x63]] (.failed ⟨.connectionReset, "reset"⟩) =
      .payload [0x61, 0x0D, 0x62] ∧
    lengthPrefixed.encode [0x61, 0x0D, 0x62] = .ok [0x00, 0x00, 0x00, 0x03, 0x61, 0x0D, 0x62] ∧
    lengthPrefixed.readFrame 3 [[0x00, 0x00], [0x00, 0x03, 0x61, 0x0D], [0x62, 0x63]] .silent =
      .payload [0x61, 0x0D, 0x62] ∧
    ∃ e, newline.encode [0xFF] = .error e ∧ e.failure.kind = .invalidInput := by
  obtain ⟨-, -, hline, -, hlength⟩ := encode_readFrame [0x61, 0x0D, 0x62]
  obtain ⟨hfails, hkind, -⟩ := encode_readFrame [0xFF]
  have hframe : newline.encode [0x61, 0x0D, 0x62] = .ok [0x61, 0x0D, 0x62, 0x0A] := by
    decide +kernel
  have hframe' : lengthPrefixed.encode [0x61, 0x0D, 0x62] =
      .ok [0x00, 0x00, 0x00, 0x03, 0x61, 0x0D, 0x62] := by decide
  obtain ⟨e, he⟩ := hfails.mpr (by decide +kernel)
  refine ⟨hframe, (hline _ hframe 3 [0x63] _ _ rfl).mpr (by decide), hframe', ?_, e, he, hkind e he⟩
  exact ((hlength _ hframe').2 3 [0x63] _ _ rfl).mpr (by decide)

end Framing

end OneShot
