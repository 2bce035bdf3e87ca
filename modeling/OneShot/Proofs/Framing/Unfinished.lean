import OneShot.Proofs.Framing.AtOnce
import OneShot.Proofs.Framing.Bounded
import OneShot.Proofs.Framing.Unframed

/-!
# Unfinished frames

`Framing.Unfinished` says on the bytes of a stream alone when a reader that was brought them needs
more, and `Framing.kept` which of them it holds then. How the stream ends counts only for such a
frame; whatever a reader refuses by itself is invalid data.

## Key results

- `kind_of_feed`: what a reader refuses is invalid data
- `feed_eq_more_iff`: when a frame is unfinished, and what is kept of it
- `readFrame_cases`: the end of a stream counts exactly if its frame is unfinished
-/

namespace OneShot

/-- Whether a stream whose chunks have all been read has left a frame unfinished. -/
def Framing.Unfinished (f : Framing) (limit : Nat) (chunks : List Bytes) : Prop :=
  match f with
  | .unframed =>
    chunks.flatten.length ≤ limit ∧
      ∀ n ∈ Reader.chunkEnds 0 chunks, Json.isPrefix (chunks.flatten.take n) = true
  | .newline => chunks.flatten.length ≤ limit ∧ Framing.lineEnd ∉ chunks.flatten
  | .lengthPrefixed =>
    chunks.flatten.length < 4 ∨
      Framing.ofBigEndian (chunks.flatten.take 4) ≤ limit ∧
        chunks.flatten.length < 4 + Framing.ofBigEndian (chunks.flatten.take 4)

/-- The bytes of an unfinished frame that a reader holds: a header that is whole is taken off. -/
def Framing.kept (f : Framing) (stream : Bytes) : Bytes :=
  match f with
  | .unframed | .newline => stream
  | .lengthPrefixed => if stream.length < 4 then stream else stream.drop 4

namespace Reader

/-! ### What a reader refuses -/

/-- A line that is refused is no text. -/
theorem kind_of_line (bs : Bytes) (e : ReadError) (h : line bs = .error e) :
    e.failure.kind = .invalidData := by
  simp only [line] at h
  split at h
  · cases h
  · obtain rfl := Except.error.inj h
    rfl

/-- A body that is refused is empty. -/
private theorem kind_of_body (length : Nat) (held : Bytes) (e : ReadError)
    (h : body length held = .failed e) : e.failure.kind = .invalidData := by
  simp only [body] at h
  split at h
  · cases h
  · split at h
    · obtain rfl := Progress.failed.inj h
      rfl
    · cases h

/-- What an attempt refuses is invalid data. -/
theorem kind_of_attempt (f : Framing) (limit : Nat) (r : Reader) (e : ReadError)
    (h : attempt f limit r = .failed e) : e.failure.kind = .invalidData := by
  -- what is refused while bytes come in is too long or no text
  cases f with
  | unframed =>
    simp only [attempt] at h
    split at h
    · obtain rfl := Progress.failed.inj h
      rfl
    · split at h <;> cases h
  | newline =>
    simp only [attempt] at h
    split at h
    · rename_i before _
      simp only [lineProgress] at h
      split at h
      · cases h
      · rename_i hline
        obtain rfl := Progress.failed.inj h
        -- the line is refused
        exact kind_of_line before _ hline
    · split at h
      · obtain rfl := Progress.failed.inj h
        rfl
      · cases h
  | lengthPrefixed =>
    simp only [attempt] at h
    split at h
    · exact kind_of_body _ _ e h
    · split at h
      · cases h
      · split at h
        · obtain rfl := Progress.failed.inj h
          rfl
        · exact kind_of_body _ _ e h

/-- What is refused of a queue is invalid data. -/
theorem kind_of_absorb (f : Framing) (limit : Nat) (r : Reader) (queue : Bytes) (e : ReadError)
    (h : (absorb f limit r queue).progress = .failed e) : e.failure.kind = .invalidData := by
  fun_induction absorb f limit r queue with
  | case1 r => cases h
  | case2 r queue hq n next hattempt ih => exact ih h
  | case3 r queue hq n hmore => exact kind_of_attempt f limit _ e h

/-- What a reader refuses is invalid data. -/
theorem kind_of_feed (f : Framing) (limit : Nat) (r : Reader) (chunks : List Bytes) (e : ReadError)
    (h : feed f limit r chunks = .failed e) : e.failure.kind = .invalidData := by
  induction chunks generalizing r with
  | nil => cases h
  | cons chunk chunks ih =>
    rw [feed] at h
    split at h
    · exact ih _ h
    · exact kind_of_absorb f limit r chunk e h

/-! ### Unfinished frames -/

/-- A bounded reader that is fed is bounded. -/
theorem feed_bounded (f : Framing) (limit : Nat) (r : Reader) (chunks : List Bytes)
    (h : r.Bounded f limit) : (feed f limit r chunks).Bounded f limit := by
  induction chunks generalizing r with
  -- induction on the chunks, of which each keeps the bound
  | nil => exact h
  | cons chunk chunks ih =>
    have hchunk := (absorbAsking_bounded f limit r chunk h).2
    rw [absorbAsking_snd] at hchunk
    rw [feed]
    split
    · rename_i r' hmore
      rw [hmore] at hchunk
      exact ih r' hchunk
    · exact hchunk

/-- Without a header all bytes that were fed are held. -/
theorem held_of_feed (f : Framing) (hf : f.headerLength = 0) (limit : Nat) (r r' : Reader)
    (chunks : List Bytes) (h : feed f limit r chunks = .more r') :
    r'.held = r.held ++ chunks.flatten := by
  -- induction on the chunks: without a header, a reader keeps what comes in
  induction chunks generalizing r with
  | nil =>
    rw [Progress.more.inj h, List.flatten_nil, List.append_nil]
  | cons chunk chunks ih =>
    have hchunk := absorb_progress f limit r chunk
    rw [feed] at h
    split at h
    · rename_i next hmore
      rw [hmore] at hchunk
      -- the reader holds what it held and the chunk
      have hheld := hchunk []
      simp only [headerOwed_eq_zero f _ hf, List.drop_zero, List.append_nil] at hheld
      rw [ih next h, hheld, List.flatten_cons, List.append_assoc]
    · rename_i hdone
      exact absurd h (hdone r')

/-- Without frames, a reader needs more while no read looks whole. -/
private theorem feed_unframed_eq_more_iff (limit : Nat) (chunks : List Bytes) :
    (∃ r, feed .unframed limit {} chunks = .more r) ↔
      Framing.unframed.Unfinished limit chunks := by
  have hread := readChunks_eq_feed .unframed limit .silent {} chunks
  constructor
  · rintro ⟨r, hmore⟩
    have hbounded := feed_bounded .unframed limit {} chunks (bounded_start _ limit)
    rw [hmore] at hbounded
    -- it asks for more, so it is within the limit, and it holds the whole stream
    have hlimit : chunks.flatten.length ≤ limit := by
      have hheld := held_of_feed .unframed rfl limit {} r chunks hmore
      rw [List.nil_append] at hheld
      rw [← hheld]
      exact hbounded
    refine ⟨hlimit, fun n hn => ?_⟩
    rw [hmore, readChunks_unframed limit .silent [] chunks chunks.flatten rfl hlimit] at hread
    split at hread
    · cases hread
    · rename_i hnone
      simpa [looksWhole] using List.find?_eq_none.mp hnone n hn
  · rintro ⟨hlimit, hprefix⟩
    -- no read ends with bytes that look whole, so none ends the reading
    have hnone : (chunkEnds 0 chunks).find? (looksWhole chunks.flatten) = none := by
      rw [List.find?_eq_none]
      intro n hn
      simp [looksWhole, hprefix n hn]
    rw [readChunks_unframed limit .silent [] chunks chunks.flatten rfl hlimit, List.length_nil,
      hnone] at hread
    -- a payload or a failure would not be what the reader says
    cases hfeed : feed .unframed limit {} chunks with
    | more r => exact ⟨r, rfl⟩
    | frame p =>
      rw [hfeed] at hread
      cases hread
    | failed e =>
      rw [hfeed] at hread
      cases hread

/-- With newlines, a reader needs more while there is none within the limit. -/
private theorem feed_newline_eq_more_iff (limit : Nat) (chunks : List Bytes) :
    (∃ r, feed .newline limit {} chunks = .more r) ↔ Framing.newline.Unfinished limit chunks := by
  rw [feed_start .newline (by decide)]
  simp only [attempt, Framing.Unfinished]
  generalize chunks.flatten = stream
  constructor
  · rintro ⟨r, h⟩
    split at h
    · -- a newline that was found ends the reading
      simp only [lineProgress] at h
      split at h <;> cases h
    · rename_i hbefore
      split at h
      · cases h
      · rename_i hlimit
        -- within the limit all bytes are looked at
        rw [List.take_of_length_le (by omega), beforeNewline_eq_none_iff] at hbefore
        exact ⟨Nat.le_of_not_lt hlimit, hbefore⟩
  · rintro ⟨hlimit, hline⟩
    rw [List.take_of_length_le (by omega), (beforeNewline_eq_none_iff stream).mpr hline]
    exact ⟨_, if_neg (Nat.not_lt.mpr hlimit)⟩

/-- A reader that goes on holds what it holds. -/
private theorem exists_more_iff (r : Reader) (held : Bytes) :
    (∃ r', Progress.more r = .more r' ∧ r'.held = held) ↔ held = r.held := by
  constructor
  · rintro ⟨r', hr, rfl⟩
    rw [Progress.more.inj hr]
  · rintro rfl
    exact ⟨r, rfl, rfl⟩

/-- With lengths, a reader needs more while the header or the body is not whole; a whole header is
taken off. -/
private theorem feed_lengthPrefixed_eq_more_iff (limit : Nat) (chunks : List Bytes) (held : Bytes) :
    (∃ r, feed .lengthPrefixed limit {} chunks = .more r ∧ r.held = held) ↔
      Framing.lengthPrefixed.Unfinished limit chunks ∧
        held = Framing.lengthPrefixed.kept chunks.flatten := by
  rw [feed_start .lengthPrefixed (by decide)]
  simp only [Framing.Unfinished, Framing.kept]
  generalize chunks.flatten = stream
  -- the header is not there, announces too much, or is there with a part of its body
  by_cases hheader : stream.length < 4
  · simp only [attempt, hheader, if_true, true_or, true_and]
    exact exists_more_iff _ held
  · have hattempt := attempt_header limit stream [] (Nat.not_lt.mp hheader)
    rw [List.append_nil, List.append_nil] at hattempt
    have hdrop : (stream.drop 4).length = stream.length - 4 := List.length_drop
    simp only [hattempt, hheader, false_or, if_false]
    -- what the header announces
    generalize Framing.ofBigEndian (stream.take 4) = length
    by_cases hlimit : limit < length
    · simp only [if_pos hlimit, Nat.not_le.mpr hlimit, false_and, iff_false]
      rintro ⟨r, hr, -⟩
      cases hr
    · simp only [if_neg hlimit, Nat.not_lt.mp hlimit, true_and, body, hdrop]
      by_cases hshort : stream.length - 4 < length
      · -- a part of the body is there
        simp only [if_pos hshort, show stream.length < 4 + length from by omega, true_and]
        exact exists_more_iff _ held
      · -- the whole body is there
        simp only [if_neg hshort, show ¬stream.length < 4 + length from by omega, false_and,
          iff_false]
        rintro ⟨r, hr, -⟩
        split at hr <;> cases hr

/-- A reader needs more exactly while a frame is unfinished. -/
theorem feed_eq_more_iff (f : Framing) (limit : Nat) (chunks : List Bytes) (held : Bytes) :
    (∃ r, feed f limit {} chunks = .more r ∧ r.held = held) ↔
      f.Unfinished limit chunks ∧ held = f.kept chunks.flatten := by
  -- without a header the bytes held are those of the stream
  have hheader : f.headerLength = 0 →
      ((∃ r, feed f limit {} chunks = .more r) ↔ f.Unfinished limit chunks) →
      ((∃ r, feed f limit {} chunks = .more r ∧ r.held = held) ↔
        f.Unfinished limit chunks ∧ held = chunks.flatten) := by
    intro hf hiff
    rw [← hiff]
    constructor
    · rintro ⟨r, hr, rfl⟩
      exact ⟨⟨r, hr⟩, held_of_feed f hf limit {} r chunks hr⟩
    · rintro ⟨⟨r, hr⟩, rfl⟩
      exact ⟨r, hr, held_of_feed f hf limit {} r chunks hr⟩
  cases f with
  | unframed => exact hheader rfl (feed_unframed_eq_more_iff limit chunks)
  | newline => exact hheader rfl (feed_newline_eq_more_iff limit chunks)
  | lengthPrefixed => exact feed_lengthPrefixed_eq_more_iff limit chunks held

/-- The end of a stream counts exactly if its frame is unfinished; otherwise it gives a payload, or
is refused as invalid data. -/
theorem readFrame_cases (f : Framing) (limit : Nat) (chunks : List Bytes) (ending : Ending) :
    (f.Unfinished limit chunks ∧ ∃ r : Reader, r.held = f.kept chunks.flatten ∧
        f.readFrame limit chunks ending = atEnd f limit r ending) ∨
      ¬f.Unfinished limit chunks ∧
        ((∃ payload, f.readFrame limit chunks ending = .payload payload) ∨
          ∃ e, f.readFrame limit chunks ending = .failed e ∧ e.failure.kind = .invalidData) := by
  have hiff := feed_eq_more_iff f limit chunks
  rw [Framing.readFrame, readChunks_eq_feed]
  -- only a reader that asks for more comes to the end of the stream
  cases hfeed : feed f limit {} chunks with
  | more r =>
    obtain ⟨hunfinished, hheld⟩ := (hiff r.held).mp ⟨r, hfeed, rfl⟩
    exact .inl ⟨hunfinished, r, hheld, rfl⟩
  -- the reader is done, so the frame was not unfinished
  | frame payload =>
    refine .inr ⟨fun hunfinished => ?_, .inl ⟨payload, rfl⟩⟩
    obtain ⟨r, hr, -⟩ := (hiff _).mpr ⟨hunfinished, rfl⟩
    rw [hfeed] at hr
    cases hr
  | failed e =>
    refine .inr ⟨fun hunfinished => ?_, .inr ⟨e, rfl, kind_of_feed f limit {} chunks e hfeed⟩⟩
    obtain ⟨r, hr, -⟩ := (hiff _).mpr ⟨hunfinished, rfl⟩
    rw [hfeed] at hr
    cases hr

end Reader

end OneShot
