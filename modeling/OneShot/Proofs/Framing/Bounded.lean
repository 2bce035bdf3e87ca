import OneShot.Proofs.Framing.Steady

/-!
# What a reader holds when it asks for more

A reader that needs more bytes holds no more than the limit, and a payload is no longer than that.
So no stream makes a reader pile up bytes: one that has too many, or was promised too many, fails
instead of asking.

Reading itself shows only what it comes to. `readAsking` reads in the same way and also keeps the
reader as it was each time it asked the stream for bytes.

## Key results

- `readAsking_snd`: keeping the readers that asked does not change what is read
- `attempt_bounded`: what one attempt makes of a bounded reader
- `readFrame_bounded`: payloads are within the limit, and so is what a reader holds when it asks
-/

namespace OneShot

namespace Reader

/-! ### Reading that keeps the readers that asked -/

/-- Reads a queue like `absorb`, and keeps the reader as it was at each read. -/
def absorbAsking (f : Framing) (limit : Nat) (r : Reader) (queue : Bytes) :
    List Reader × Absorbed :=
  if _hq : queue = [] then ([], ⟨.more r, []⟩)
  else
    let n := room r.held.length
    match attempt f limit { r with held := r.held ++ queue.take n } with
    | .more next =>
      let (asked, absorbed) := absorbAsking f limit next (queue.drop n)
      (r :: asked, absorbed)
    | progress => ([r], ⟨progress, queue.drop n⟩)
termination_by queue.length
decreasing_by
  have := room_pos r.held.length
  have := List.length_pos_iff.2 _hq
  simp only [List.length_drop]
  omega

/-- Reads a stream like `readChunks`, and keeps the reader as it was each time it asked the stream
for bytes. The last time it may learn how the stream ends. -/
def readAsking (f : Framing) (limit : Nat) (ending : Ending) (r : Reader) :
    List Bytes → List Reader × Outcome × Bytes
  | [] => ([r], atEnd f limit r ending, [])
  | chunk :: chunks =>
    match absorbAsking f limit r chunk with
    | (asked, ⟨.more r, _⟩) =>
      let (later, outcome) := readAsking f limit ending r chunks
      (asked ++ later, outcome)
    | (asked, ⟨.frame bs, unread⟩) => (asked, .payload bs, unread ++ chunks.flatten)
    | (asked, ⟨.failed e, unread⟩) => (asked, .failed e, unread ++ chunks.flatten)

/-- A queue is read as `absorb` reads it. -/
theorem absorbAsking_snd (f : Framing) (limit : Nat) (r : Reader) (queue : Bytes) :
    (absorbAsking f limit r queue).2 = absorb f limit r queue := by
  -- one case for each read: the queue is empty, the read needs more, or it ends the reading
  fun_induction absorb f limit r queue with
  | case1 r =>
    rw [absorbAsking]
    rfl
  | case2 r queue hq n next hattempt ih =>
    rw [absorbAsking, dif_neg hq]
    simp only [show attempt f limit { r with held := r.held ++ queue.take (room r.held.length) } =
      .more next from hattempt]
    exact ih
  | case3 r queue hq n hmore =>
    rw [absorbAsking, dif_neg hq]
    dsimp only
    split
    · -- a read that needs more is the case before
      rename_i next hattempt
      exact absurd hattempt (hmore next)
    · rfl

/-- A stream is read as `readChunks` reads it. -/
theorem readAsking_snd (f : Framing) (limit : Nat) (ending : Ending) (r : Reader)
    (chunks : List Bytes) :
    (readAsking f limit ending r chunks).2 = readChunks f limit ending r chunks := by
  induction chunks generalizing r with
  | nil => rfl
  | cons chunk chunks ih =>
    have hsnd := absorbAsking_snd f limit r chunk
    rw [readAsking, readChunks]
    split <;> rename_i hasking <;> rw [hasking] at hsnd <;> rw [← hsnd]
    exact ih _

/-! ### Bounded readers -/

/-- A reader that holds no more than it may: of a frame with a length at most three bytes of the
header, or less than the length that the header has announced, which is within the limit. -/
def Bounded (f : Framing) (limit : Nat) (r : Reader) : Prop :=
  match f with
  | .unframed | .newline => r.held.length ≤ limit
  | .lengthPrefixed =>
    match r.announced with
    | none => r.held.length ≤ 3
    | some length => r.held.length < length ∧ length ≤ limit

/-- A fresh reader holds nothing. -/
theorem bounded_start (f : Framing) (limit : Nat) : Bounded f limit {} := by
  cases f with
  | unframed => exact Nat.zero_le limit
  | newline => exact Nat.zero_le limit
  | lengthPrefixed => exact Nat.zero_le 3

/-- What an attempt has come to is within the limit. -/
def Progress.Bounded (f : Framing) (limit : Nat) : Progress → Prop
  | .frame payload => payload.length ≤ limit
  | .more r => r.Bounded f limit
  | .failed _ => True

/-- A line is no longer than the bytes it was found in. -/
private theorem lineProgress_bounded (limit : Nat) (bs : Bytes) (h : bs.length ≤ limit) :
    (lineProgress bs).Bounded .newline limit := by
  simp only [lineProgress]
  split
  · rename_i payload hline
    exact Nat.le_trans (prefix_of_line bs payload hline).length_le h
  · trivial

/-- A body is as long as announced, or still shorter than that. -/
private theorem body_bounded (limit length : Nat) (held : Bytes) (h : length ≤ limit) :
    (body length held).Bounded .lengthPrefixed limit := by
  simp only [body]
  split
  · rename_i hlength
    exact ⟨hlength, h⟩
  · split
    · trivial
    · exact Nat.le_trans (List.length_take_le length held) h

/-- More bytes in a bounded reader come to a payload within the limit, to a bounded reader, or to a
failure. -/
theorem attempt_bounded (f : Framing) (limit : Nat) (r : Reader) (bs : Bytes)
    (h : r.Bounded f limit) : (attempt f limit (r.hold bs)).Bounded f limit := by
  obtain ⟨held, announced⟩ := r
  show (attempt f limit ⟨held ++ bs, announced⟩).Bounded f limit
  -- what is more than the bound is refused, so more is asked for only within it
  cases f with
  | unframed =>
    simp only [attempt]
    split
    · trivial
    · rename_i hlimit
      split
      · exact Nat.le_of_not_lt hlimit
      · exact Nat.le_of_not_lt hlimit
  | newline =>
    simp only [attempt]
    split
    · rename_i before hbefore
      -- the newline is one of the bytes that are looked at, so the line is shorter than those
      obtain ⟨rest, htake, -⟩ := (beforeNewline_eq_some_iff _ before).mp hbefore
      have hlength := congrArg List.length htake
      simp only [List.length_take, List.length_append, List.length_cons] at hlength
      exact lineProgress_bounded limit before (by omega)
    · split
      · trivial
      · rename_i hlimit
        exact Nat.le_of_not_lt hlimit
  | lengthPrefixed =>
    cases announced with
    | some length => exact body_bounded limit length (held ++ bs) h.2
    | none =>
      simp only [attempt]
      split
      -- no more than three bytes of a header are held
      · rename_i hheader
        exact Nat.le_of_lt_succ hheader
      · split
        · trivial
        · rename_i hlimit
          exact body_bounded limit _ _ (Nat.le_of_not_lt hlimit)

/-! ### Whole streams -/

/-- A bounded reader that reads a queue is bounded at each read, and so is what it comes to. -/
theorem absorbAsking_bounded (f : Framing) (limit : Nat) (r : Reader) (queue : Bytes)
    (h : r.Bounded f limit) :
    (∀ asked ∈ (absorbAsking f limit r queue).1, asked.Bounded f limit) ∧
      (absorbAsking f limit r queue).2.progress.Bounded f limit := by
  -- one case for each read, which asks as the reader before it stood
  fun_induction absorbAsking f limit r queue with
  | case1 r => exact ⟨fun _ hasked => absurd hasked List.not_mem_nil, h⟩
  | case2 r queue hq n next hattempt asked absorbed heq ih =>
    -- the read keeps the bound, so the next one starts within it
    have hnext := attempt_bounded f limit r (queue.take n) h
    rw [show attempt f limit (r.hold (queue.take n)) = .more next from hattempt] at hnext
    obtain ⟨hasked, hprogress⟩ := ih hnext
    rw [heq] at hasked hprogress
    refine ⟨fun reader hreader => ?_, hprogress⟩
    rcases List.mem_cons.mp hreader with rfl | hreader
    · -- this read was asked for as the reader stood
      exact h
    · exact hasked reader hreader
  | case3 r queue hq n hmore =>
    refine ⟨fun reader hreader => ?_, attempt_bounded f limit r (queue.take n) h⟩
    rw [List.mem_singleton.mp hreader]
    exact h

/-- What a bounded reader still gives when its stream has ended is within the limit. -/
private theorem length_le_of_atEnd (f : Framing) (limit : Nat) (r : Reader) (ending : Ending)
    (payload : Bytes) (h : r.Bounded f limit) (hend : atEnd f limit r ending = .payload payload) :
    payload.length ≤ limit := by
  -- at the end no more is handed on than what is held
  cases ending with
  | silent => cases hend
  | failed failure => cases hend
  | closed =>
    simp only [atEnd] at hend
    split at hend
    · rename_i hfinish
      obtain rfl := Outcome.payload.inj hend
      cases f with
      | unframed =>
        simp only [finish] at hfinish
        split at hfinish
        · cases hfinish
        · split at hfinish
          · cases hfinish
          · -- all that is held is handed on
            obtain rfl := Except.ok.inj hfinish
            exact h
      | newline =>
        simp only [finish] at hfinish
        split at hfinish
        · cases hfinish
        · exact Nat.le_trans (prefix_of_line r.held _ hfinish).length_le h
      | lengthPrefixed =>
        simp only [finish] at hfinish
        split at hfinish <;> cases hfinish
    · cases hend

/-- A bounded reader is bounded whenever it asks its stream for bytes, and a payload that it finds
is within the limit. -/
theorem readAsking_bounded (f : Framing) (limit : Nat) (ending : Ending) (r : Reader)
    (chunks : List Bytes) (h : r.Bounded f limit) :
    (∀ asked ∈ (readAsking f limit ending r chunks).1, asked.Bounded f limit) ∧
      ∀ payload, (readAsking f limit ending r chunks).2.1 = .payload payload →
        payload.length ≤ limit := by
  -- induction on the chunks: the reader is bounded between them
  induction chunks generalizing r with
  | nil =>
    refine ⟨fun asked hasked => ?_, fun payload hend => ?_⟩
    · rw [List.mem_singleton.mp hasked]
      exact h
    · exact length_le_of_atEnd f limit r ending payload h hend
  | cons chunk chunks ih =>
    obtain ⟨hasked, hprogress⟩ := absorbAsking_bounded f limit r chunk h
    rw [readAsking]
    -- the chunk leaves the reader asking, ends in a payload, or is refused
    split <;> rename_i hasking <;> rw [hasking] at hasked hprogress
    · obtain ⟨hlater, hpayload⟩ := ih _ hprogress
      refine ⟨fun reader hreader => ?_, hpayload⟩
      rcases List.mem_append.mp hreader with hreader | hreader
      · exact hasked reader hreader
      · exact hlater reader hreader
    · refine ⟨hasked, fun payload hend => ?_⟩
      obtain rfl := Outcome.payload.inj hend
      exact hprogress
    · exact ⟨hasked, fun payload hend => nomatch hend⟩

end Reader

/-- A payload that is read has at most as many bytes as the limit allows. A reader asks for more
only while what it holds is within the limit; with a length before the payload, while it holds at
most three bytes of that length, or less than the length, which is then itself within the limit. -/
theorem Framing.readFrame_bounded (f : Framing) (limit : Nat) (chunks : List Bytes)
    (ending : Reader.Ending) :
    (Reader.readAsking f limit ending {} chunks).2 = Reader.readChunks f limit ending {} chunks ∧
    (∀ asked ∈ (Reader.readAsking f limit ending {} chunks).1, asked.Bounded f limit) ∧
    ∀ payload, f.readFrame limit chunks ending = .payload payload → payload.length ≤ limit := by
  obtain ⟨hasked, hpayload⟩ :=
    Reader.readAsking_bounded f limit ending {} chunks (Reader.bounded_start f limit)
  refine ⟨Reader.readAsking_snd f limit ending {} chunks, hasked, fun payload h => ?_⟩
  refine hpayload payload ?_
  rw [Reader.readAsking_snd]
  exact h

end OneShot
