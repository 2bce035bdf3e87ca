import OneShot.Proofs.Framing.Frames

/-!
# One payload over a stream

A stream that loses nothing brings the frame of a payload to a reader that knows the framing, cut in
any way. Then the reader finds the payload if it is within the limit, and otherwise fails, and it
does so without seeing the end of the stream.

The stream takes all of the frame only as long as the reader is there. So whether the frame was taken
is not assumed: it follows from what the reader has seen.

## Key results

- `Transfer.feed_eq`: a payload within the limit arrives, and all of its frame was taken
- `Transfer.feed_failed`: a payload beyond the limit is refused
-/

namespace OneShot

open Reader (feed feed_start attempt)

/-- Whether a reader has found a frame, or failed, once it has read chunks. -/
def Reader.Finished (f : Framing) (limit : Nat) (reads : List Bytes) : Prop :=
  ∀ r, feed f limit {} reads ≠ .more r

/-- What connects a writer that took some bytes to a reader with its reads. -/
structure Transfer (f : Framing) (limit : Nat) (w : Writer) (taken : Bytes) (reads : List Bytes) :
    Prop where
  /-- What is read was written, in this order. -/
  reads_prefix : reads.flatten <+: taken
  /-- Everything that was written is read, unless the reader needs no more. -/
  reads_all : Reader.Finished f limit reads ∨ reads.flatten = taken
  /-- Every offer is taken in part at least, unless the reader needs no more. -/
  takes : Reader.Finished f limit reads ∨
    ∀ turn, ∃ count, 0 < count ∧ w.answer turn = .takes count
  flush : w.flush = .ok ()

/-- A reader that was brought nothing needs more. -/
theorem feed_of_flatten_eq_nil (f : Framing) (hf : f ≠ .unframed) (limit : Nat)
    (reads : List Bytes) (h : reads.flatten = []) : feed f limit {} reads = .more {} := by
  rw [feed_start f hf limit reads, h]
  exact Reader.settled_start f limit

namespace Transfer

variable {f : Framing} {limit : Nat} {w : Writer} {payload frame : Bytes} {reads : List Bytes}

/-- What the reader found in the frame, it finds in what it has read: either it needs no more, or it
has read the whole frame. -/
private theorem attempt_eq (hf : f ≠ .unframed) (hframe : f.encode payload = .ok frame)
    (h : Transfer f limit w (f.writeFrame w payload).taken reads)
    (hdone : ∀ r, attempt f limit ⟨frame, none⟩ ≠ .more r) :
    feed f limit {} reads = attempt f limit ⟨frame, none⟩ ∧
      (f.writeFrame w payload).taken <+: frame ∧ reads.flatten <+: frame := by
  have hwrite := f.writeFrame_of_encode w payload frame hframe
  -- the reads are a part of what was taken, and that is a part of the frame
  have htaken : (f.writeFrame w payload).taken <+: frame := by
    rw [hwrite]
    exact w.write_taken_prefix frame
  have hpart := h.reads_prefix.trans htaken
  refine ⟨?_, htaken, hpart⟩
  obtain ⟨rest, hrest⟩ := hpart
  -- bytes behind those that were read do not matter unless the reader asks for more
  have hmore := Reader.attempt_hold f hf limit ⟨reads.flatten, none⟩ rest
  simp only [Reader.hold, hrest] at hmore
  rw [feed_start f hf limit reads]
  cases hattempt : attempt f limit ⟨reads.flatten, none⟩ with
  | frame p => rw [hmore, hattempt]
  | failed e => rw [hmore, hattempt]
  | more r =>
    -- the reader is still there, so all of the frame was taken and read
    have hunfinished : ¬Reader.Finished f limit reads := by
      intro hfinished
      exact hfinished r (by rw [feed_start f hf limit reads, hattempt])
    have hall := h.reads_all.resolve_left hunfinished
    rw [hwrite, w.write_of_takes frame (h.takes.resolve_left hunfinished)] at hall
    rw [hall] at hattempt
    exact absurd hattempt (hdone r)

/-- A payload within the limit arrives, and all of its frame was taken. -/
theorem feed_eq (hf : f ≠ .unframed) (hframe : f.encode payload = .ok frame)
    (hkeeps : f.Keeps payload) (h : Transfer f limit w (f.writeFrame w payload).taken reads)
    (hlimit : payload.length ≤ limit) :
    feed f limit {} reads = .frame payload ∧ (f.writeFrame w payload).result = .ok () := by
  have hfound := Reader.attempt_encode f limit payload frame hframe hkeeps hlimit
  obtain ⟨hfeed, htaken, hpart⟩ := h.attempt_eq hf hframe (by simp [hfound])
  rw [hfound] at hfeed
  refine ⟨hfeed, ?_⟩
  rw [feed_start f hf limit reads] at hfeed
  -- the payload was found, so all of the frame was read and hence taken
  have hall := Reader.eq_of_attempt_prefix f hf limit payload frame _ hframe hpart hfeed
  have hwrite := f.writeFrame_of_encode w payload frame hframe
  have hprefix := h.reads_prefix
  rw [hall] at hprefix
  rw [hwrite] at hprefix htaken ⊢
  -- taken is a part of the frame and has all of it
  have heq := htaken.eq_of_length_le hprefix.length_le
  exact (w.write_eq_ok_iff frame).mpr ⟨heq, h.flush⟩

/-- A payload beyond the limit is refused. -/
theorem feed_failed (hf : f ≠ .unframed) (hframe : f.encode payload = .ok frame)
    (hkeeps : f.Keeps payload) (h : Transfer f limit w (f.writeFrame w payload).taken reads)
    (hlimit : limit < payload.length) : ∃ e, feed f limit {} reads = .failed e := by
  obtain ⟨e, hrefused⟩ := Reader.attempt_encode_of_lt f limit payload frame hframe hkeeps hlimit
  obtain ⟨hfeed, -, -⟩ := h.attempt_eq hf hframe (by simp [hrefused])
  exact ⟨e, by rw [hfeed, hrefused]⟩

/-- Of a payload that cannot be framed nothing arrives. -/
theorem feed_of_error (hf : f ≠ .unframed) {e : Framing.EncodeError}
    (hframe : f.encode payload = .error e)
    (h : Transfer f limit w (f.writeFrame w payload).taken reads) :
    feed f limit {} reads = .more {} := by
  have htaken : (f.writeFrame w payload).taken = [] := by
    simp only [Framing.writeFrame, hframe]
  have hnothing := h.reads_prefix
  rw [htaken, List.prefix_nil] at hnothing
  exact feed_of_flatten_eq_nil f hf limit reads hnothing

end Transfer

end OneShot
