import Mathlib.Data.List.Infix
import OneShot.Framing.Reader

/-!
# Where payloads come from

What a reader returns stands on the stream: behind the header, if the framing has one, and from its
first byte on. The header is taken off once, so `Reader.headerOwed` counts the bytes of it that are
still among those held, and what comes behind them stays the same from one attempt to the next.

## Key results

- `readChunks_cons`: reading goes on after a chunk as long as more bytes are needed
- `prefix_of_readFrame`: a payload is a beginning of what was sent behind the header
-/

namespace OneShot

/-- The number of bytes before a payload that a framing takes off. -/
def Framing.headerLength : Framing → Nat
  | .unframed | .newline => 0
  | .lengthPrefixed => 4

namespace Reader

/-- The number of bytes of the header that a reader has not taken off yet. -/
def headerOwed (f : Framing) (r : Reader) : Nat :=
  match r.announced with
  | none => f.headerLength
  | some _ => 0

/-- A framing without a header takes nothing off. -/
theorem headerOwed_eq_zero (f : Framing) (r : Reader) (h : f.headerLength = 0) :
    headerOwed f r = 0 := by
  rw [headerOwed]
  split
  · exact h
  · rfl

/-! ### Attempts -/

/-- A line is a beginning of the bytes it is found in. -/
theorem prefix_of_line (bs p : Bytes) (h : line bs = .ok p) : p <+: bs := by
  simp only [line] at h
  split at h
  · obtain rfl := Except.ok.inj h
    split
    · exact List.dropLast_prefix bs
    · exact List.prefix_refl bs
  · cases h

/-- The bytes before a newline are a beginning. -/
private theorem prefix_of_beforeNewline (bs before : Bytes) (h : beforeNewline bs = some before) :
    before <+: bs := by
  simp only [beforeNewline] at h
  split at h
  · obtain rfl := Option.some.inj h
    exact List.takeWhile_prefix _
  · cases h

/-- A body is a beginning of the bytes held. -/
private theorem prefix_of_body (length : Nat) (held p : Bytes) (h : body length held = .frame p) :
    p <+: held := by
  simp only [body] at h
  split at h
  · cases h
  · split at h
    · cases h
    · obtain rfl := Progress.frame.inj h
      exact List.take_prefix length held

/-- A body that is not whole is kept. -/
theorem eq_of_body (length : Nat) (held : Bytes) (r : Reader)
    (h : body length held = .more r) : r = ⟨held, some length⟩ := by
  simp only [body] at h
  split at h
  · exact (Progress.more.inj h).symm
  · split at h <;> cases h

/-- Without frames, bytes that look unfinished are kept. -/
theorem eq_of_attempt_unframed (limit : Nat) (r r' : Reader)
    (h : attempt .unframed limit r = .more r') : r' = r := by
  simp only [attempt] at h
  split at h
  · cases h
  · split at h
    · exact (Progress.more.inj h).symm
    · cases h

/-- A line that is not whole is kept. -/
theorem eq_of_attempt_newline (limit : Nat) (r r' : Reader)
    (h : attempt .newline limit r = .more r') : r' = r := by
  simp only [attempt] at h
  split at h
  · simp only [lineProgress] at h
    split at h <;> cases h
  · split at h
    · cases h
    · exact (Progress.more.inj h).symm

/-- An attempt finds the payload behind the header. -/
theorem prefix_of_attempt (f : Framing) (limit : Nat) (r : Reader) (p : Bytes)
    (h : attempt f limit r = .frame p) : p <+: r.held.drop (headerOwed f r) := by
  obtain ⟨held, announced⟩ := r
  -- without a header the payload stands where the bytes begin
  have hnone : p <+: held → f.headerLength = 0 → p <+: held.drop (headerOwed f ⟨held, announced⟩) := by
    intro hp hf
    rwa [headerOwed_eq_zero f _ hf, List.drop_zero]
  cases f with
  | unframed =>
    simp only [attempt] at h
    split at h
    · cases h
    · split at h
      · cases h
      · obtain rfl := Progress.frame.inj h
        exact hnone (List.prefix_refl held) rfl
  | newline =>
    simp only [attempt] at h
    split at h
    · rename_i before hbefore
      simp only [lineProgress] at h
      split at h
      · rename_i hline
        obtain rfl := Progress.frame.inj h
        -- the line is a prefix of what stands before the newline, and that of what is held
        refine hnone ?_ rfl
        exact (prefix_of_line before _ hline).trans
          ((prefix_of_beforeNewline _ before hbefore).trans (List.take_prefix _ held))
      · cases h
    · split at h <;> cases h
  | lengthPrefixed =>
    simp only [attempt] at h
    -- a header that was taken off is owed no more
    cases announced with
    | some length => exact prefix_of_body length held p h
    -- the header is owed, and behind it stands the body
    | none =>
      simp only at h
      split at h
      · cases h
      · split at h
        · cases h
        · exact prefix_of_body _ (held.drop 4) p h

/-- An attempt that needs more bytes keeps what comes behind the header. -/
theorem drop_of_attempt (f : Framing) (limit : Nat) (r r' : Reader)
    (h : attempt f limit r = .more r') (bs : Bytes) :
    (r'.held ++ bs).drop (headerOwed f r') = (r.held ++ bs).drop (headerOwed f r) := by
  obtain ⟨held, announced⟩ := r
  cases f with
  | unframed => rw [eq_of_attempt_unframed limit _ r' h]
  | newline => rw [eq_of_attempt_newline limit _ r' h]
  | lengthPrefixed =>
    simp only [attempt] at h
    cases announced with
    | some length => rw [eq_of_body length held r' h]
    | none =>
      simp only at h
      split at h
      · -- the header is not whole, and is still owed
        rw [Progress.more.inj h]
      · split at h
        · cases h
        · rename_i hheader _
          rw [eq_of_body _ (held.drop 4) r' h]
          simp only [headerOwed, Framing.headerLength, List.drop_zero]
          -- the header was there, so what comes now stands behind it
          rw [List.drop_append_of_le_length (by omega)]

/-! ### Whole streams -/

/-- What a queue comes to stands behind the header, too. -/
theorem absorb_progress (f : Framing) (limit : Nat) (r : Reader) (queue : Bytes) :
    match (absorb f limit r queue).progress with
    | .frame p => p <+: (r.held ++ queue).drop (headerOwed f r)
    | .more r' => ∀ bs, (r'.held ++ bs).drop (headerOwed f r') =
        (r.held ++ (queue ++ bs)).drop (headerOwed f r)
    | .failed _ => True := by
  -- one case for each read: the queue is empty, the read needs more, or it ends the reading
  fun_induction absorb f limit r queue with
  | case1 r => exact fun bs => rfl
  | case2 r queue hq n next hattempt ih =>
    -- what the read keeps is what came without the header
    have hkept := drop_of_attempt f limit _ next hattempt
    have howed : headerOwed f { r with held := r.held ++ queue.take n } = headerOwed f r := rfl
    simp only [howed, List.append_assoc] at hkept
    split at ih
    · rw [hkept, List.take_append_drop] at ih
      exact ih
    · intro bs
      rw [ih bs, hkept, ← List.append_assoc (queue.take n), List.take_append_drop]
    · trivial
  | case3 r queue hq n hmore =>
    -- the read saw the front of the queue only
    have htake := (List.prefix_append_right_inj r.held).mpr (List.take_prefix n queue)
    cases hattempt : attempt f limit { r with held := r.held ++ queue.take n } with
    | more next => exact absurd hattempt (hmore next)
    | failed e => trivial
    | frame p => exact (prefix_of_attempt f limit _ p hattempt).trans (htake.drop _)

/-- Reading goes on after a chunk as long as more bytes are needed. -/
theorem readChunks_cons (f : Framing) (limit : Nat) (ending : Ending) (r : Reader) (chunk : Bytes)
    (chunks : List Bytes) :
    (readChunks f limit ending r (chunk :: chunks)).1 =
      match (absorb f limit r chunk).progress with
      | .more r' => (readChunks f limit ending r' chunks).1
      | .frame bs => .payload bs
      | .failed e => .failed e := by
  rw [readChunks]
  split <;> rename_i h <;> rw [h]

/-- When the stream has ended, the payload stands behind the header as well. -/
private theorem prefix_of_atEnd (f : Framing) (limit : Nat) (r : Reader) (ending : Ending)
    (p : Bytes) (h : atEnd f limit r ending = .payload p) : p <+: r.held.drop (headerOwed f r) := by
  -- only a stream that was closed leaves a payload at its end
  cases ending with
  | silent => cases h
  | failed failure => cases h
  | closed =>
    simp only [atEnd] at h
    split at h
    · rename_i hfinish
      obtain rfl := Outcome.payload.inj h
      cases f with
      | unframed =>
        simp only [finish] at hfinish
        split at hfinish
        · cases hfinish
        · split at hfinish
          · cases hfinish
          · obtain rfl := Except.ok.inj hfinish
            rw [headerOwed_eq_zero .unframed r rfl, List.drop_zero]
      | newline =>
        simp only [finish] at hfinish
        split at hfinish
        · cases hfinish
        · rw [headerOwed_eq_zero .newline r rfl, List.drop_zero]
          -- a last line without its newline
          exact prefix_of_line r.held _ hfinish
      | lengthPrefixed =>
        simp only [finish] at hfinish
        split at hfinish <;> cases hfinish
    · cases h

/-- A payload stands behind the header on the chunks of a stream. -/
private theorem prefix_of_readChunks (f : Framing) (limit : Nat) (ending : Ending) (r : Reader)
    (chunks : List Bytes) (p : Bytes) (h : (readChunks f limit ending r chunks).1 = .payload p) :
    p <+: (r.held ++ chunks.flatten).drop (headerOwed f r) := by
  -- induction on the chunks: what is behind the header stays the same between them
  induction chunks generalizing r with
  | nil =>
    rw [List.flatten_nil, List.append_nil]
    exact prefix_of_atEnd f limit r ending p h
  | cons chunk chunks ih =>
    rw [readChunks_cons] at h
    have habsorb := absorb_progress f limit r chunk
    rw [List.flatten_cons]
    -- the chunk needs more behind it, ends in a payload, or is refused
    split at h
    · rename_i r' hmore
      rw [hmore] at habsorb
      rw [← habsorb]
      exact ih r' h
    · rename_i bs hframe
      rw [hframe] at habsorb
      obtain rfl := Outcome.payload.inj h
      rw [← List.append_assoc]
      exact habsorb.trans ((List.prefix_append _ _).drop _)
    · cases h

end Reader

/-- A payload is a beginning of what was sent behind the header. -/
theorem Framing.prefix_of_readFrame (f : Framing) (limit : Nat) (chunks : List Bytes)
    (ending : Reader.Ending) (p : Bytes) (h : f.readFrame limit chunks ending = .payload p) :
    p <+: chunks.flatten.drop f.headerLength :=
  Reader.prefix_of_readChunks f limit ending {} chunks p h

end OneShot
