import OneShot.Framing.Writer

/-!
# What is written

A frame is a line with its newline, or a payload behind its length. It is offered to the stream until
all of it is taken, so a write succeeds exactly if nothing is left over and the flush succeeds.

## Key results

- `encode_newline_eq_ok_iff`, `encode_lengthPrefixed_eq_ok_iff`: what the frame of a payload is
- `writeAll_eq_ok_iff`: bytes are written exactly if all of them were taken
- `write_eq_ok_iff`: a frame is written exactly if all of it was taken and flushed
-/

namespace OneShot.Framing

/-! ### Frames -/

/-- A payload is framed as a line exactly if it is text. -/
theorem encode_newline_eq_ok_iff (payload frame : Bytes) :
    newline.encode payload = .ok frame ↔
      (∃ text, Utf8.decode payload = .ok text) ∧ frame = payload ++ [lineEnd] := by
  simp only [encode]
  cases Utf8.decode payload with
  | error fault => simp
  | ok text => simp [eq_comm]

/-- A payload is framed behind its length exactly if that fits into four bytes. -/
theorem encode_lengthPrefixed_eq_ok_iff (payload frame : Bytes) :
    lengthPrefixed.encode payload = .ok frame ↔
      payload.length ≤ greatestLength ∧ frame = bigEndian payload.length ++ payload := by
  simp only [encode]
  by_cases h : payload.length ≤ greatestLength
  · simp [h, eq_comm]
  · simp [h]

/-- A payload that has a frame is written as that frame. -/
theorem writeFrame_of_encode (f : Framing) (w : Writer) (payload frame : Bytes)
    (h : f.encode payload = .ok frame) : f.writeFrame w payload = w.write frame := by
  simp only [writeFrame, h]

end OneShot.Framing

namespace OneShot.Writer

/-! ### Offers -/

/-- Bytes are written exactly if all of them were taken. -/
theorem writeAll_eq_ok_iff (w : Writer) (turn : Nat) (bytes : Bytes) :
    (w.writeAll turn bytes).2 = .ok () ↔ (w.writeAll turn bytes).1 = bytes := by
  -- the cases of an offer: nothing is left, a failure, nothing taken, some bytes taken
  fun_induction writeAll w turn bytes with
  | case1 => exact ⟨fun _ => rfl, fun _ => rfl⟩
  | case2 turn bytes hb failure ha => simp [Ne.symm hb]
  | case3 turn bytes hb ha => simp [Ne.symm hb]
  | case4 turn bytes hb count ha hc taken result heq ih =>
    rw [heq] at ih
    simp only at ih ⊢
    rw [ih]
    constructor
    · intro h
      rw [h, List.take_append_drop]
    · intro h
      exact List.append_cancel_left (h.trans (List.take_append_drop count bytes).symm)

/-- A writer that takes some of every offer takes all. -/
theorem writeAll_of_takes (w : Writer) (turn : Nat) (bytes : Bytes)
    (h : ∀ turn, ∃ count, 0 < count ∧ w.answer turn = .takes count) :
    (w.writeAll turn bytes).1 = bytes := by
  -- the same cases, of which a failure and an offer that is not taken cannot occur
  fun_induction writeAll w turn bytes with
  | case1 => rfl
  | case2 turn bytes hb failure ha =>
    -- the offer does not fail
    obtain ⟨count, -, htakes⟩ := h turn
    rw [ha] at htakes
    cases htakes
  | case3 turn bytes hb ha =>
    -- nor does it take nothing
    obtain ⟨count, hpos, htakes⟩ := h turn
    rw [ha] at htakes
    obtain rfl := Answer.takes.inj htakes
    omega
  | case4 turn bytes hb count ha hc taken result heq ih =>
    rw [heq] at ih
    simp only at ih ⊢
    -- what is taken and what is left are the bytes
    rw [ih, List.take_append_drop]

/-- What comes of a write, by what comes of its offers: bytes that were all taken are flushed. -/
def flushed (w : Writer) : Except Failure Unit → Except Failure Unit
  | .ok () => w.flush
  | .error failure => .error failure

/-- What is taken of a frame is what was taken in all its offers. -/
theorem write_taken (w : Writer) (frame : Bytes) :
    (w.write frame).taken = (w.writeAll 0 frame).1 := by
  simp only [write]
  split <;> rename_i heq <;> rw [heq]

/-- A frame is flushed once all of it was taken. -/
theorem write_result (w : Writer) (frame : Bytes) :
    (w.write frame).result = w.flushed (w.writeAll 0 frame).2 := by
  simp only [write]
  split <;> rename_i heq <;> rw [heq] <;> rfl

/-- What is taken of a frame is a beginning of it. -/
theorem write_taken_prefix (w : Writer) (frame : Bytes) : (w.write frame).taken <+: frame := by
  rw [write_taken]
  exact w.writeAll_taken_prefix 0 frame

/-- A writer that takes some of every offer takes a whole frame. -/
theorem write_of_takes (w : Writer) (frame : Bytes)
    (h : ∀ turn, ∃ count, 0 < count ∧ w.answer turn = .takes count) :
    (w.write frame).taken = frame := by
  rw [write_taken]
  exact w.writeAll_of_takes 0 frame h

/-- A frame is written exactly if all of it was taken and flushed. -/
theorem write_eq_ok_iff (w : Writer) (frame : Bytes) :
    (w.write frame).result = .ok () ↔ (w.write frame).taken = frame ∧ w.flush = .ok () := by
  rw [write_result, write_taken, ← writeAll_eq_ok_iff]
  cases (w.writeAll 0 frame).2 with
  | ok _ => simp [flushed]
  | error failure => simp [flushed]

end OneShot.Writer
