import Mathlib.Data.List.TakeWhile
import OneShot.Proofs.Framing.Payload

/-!
# Readers that do not mind the cuts

With newlines and with lengths, more bytes never change what an attempt has found, and where it has
found nothing yet, what it keeps is as good as all the bytes so far. So such a reader comes to the
same however the bytes are cut, and what it comes to is what one attempt makes of all of them.

## Key results

- `attempt_hold`: what more bytes do to an attempt
- `feed_eq_attempt`: chunks come to the same as all their bytes at once
- `readChunks_eq_feed`: the end of a stream counts only if its chunks do not make up a frame
- `readFrame_append_of_decided`: what chunks come to by themselves, nothing that follows changes
-/

namespace OneShot.Reader

/-- The reader with more bytes held. -/
def hold (r : Reader) (bs : Bytes) : Reader := { r with held := r.held ++ bs }

@[simp] theorem hold_nil (r : Reader) : r.hold [] = r := by
  rw [hold, List.append_nil]

@[simp] theorem hold_hold (r : Reader) (a b : Bytes) : (r.hold a).hold b = r.hold (a ++ b) := by
  rw [hold, hold, hold, List.append_assoc]

/-! ### One attempt -/

/-- The bytes before the first newline. -/
theorem beforeNewline_eq_some_iff (bs before : Bytes) :
    beforeNewline bs = some before ↔
      ∃ rest, bs = before ++ Framing.lineEnd :: rest ∧ Framing.lineEnd ∉ before := by
  have hsplit := List.takeWhile_append_dropWhile (p := (· != Framing.lineEnd)) (l := bs)
  constructor
  · intro h
    simp only [beforeNewline] at h
    split at h
    · rename_i hlength
      obtain rfl := Option.some.inj h
      have hhead := List.head?_dropWhile_not (· != Framing.lineEnd) bs
      -- what is dropped begins with the first newline, and there is one
      cases hdrop : bs.dropWhile (· != Framing.lineEnd) with
      | nil =>
        rw [hdrop, List.append_nil] at hsplit
        rw [hsplit] at hlength
        omega
      | cons b rest =>
        rw [hdrop] at hhead hsplit
        obtain rfl : b = Framing.lineEnd := by simpa using hhead
        refine ⟨rest, hsplit.symm, fun hmem => ?_⟩
        have hne := List.mem_takeWhile_imp hmem
        exact absurd hne (by decide)
    · cases h
  · intro h
    obtain ⟨rest, rfl, hbefore⟩ := h
    -- all in front of the first newline is taken, and nothing behind it
    have htake : (before ++ Framing.lineEnd :: rest).takeWhile (· != Framing.lineEnd) = before := by
      rw [List.takeWhile_append_of_pos, List.takeWhile_cons_of_neg (by decide), List.append_nil]
      intro b hb
      simp only [bne_iff_ne, ne_eq]
      rintro rfl
      exact hbefore hb
    simp only [beforeNewline, htake, List.length_append, List.length_cons]
    rw [if_pos (by omega)]

/-- Nothing comes before a newline where there is none. -/
theorem beforeNewline_eq_none_iff (bs : Bytes) :
    beforeNewline bs = none ↔ Framing.lineEnd ∉ bs := by
  constructor
  · intro h hmem
    -- a newline among the bytes has a first one
    obtain ⟨before, rest, hbs, hbefore⟩ := List.eq_append_cons_of_mem hmem
    have hsome := (beforeNewline_eq_some_iff bs before).mpr ⟨rest, hbs, hbefore⟩
    rw [h] at hsome
    cases hsome
  · intro h
    cases hsome : beforeNewline bs with
    | none => rfl
    | some before =>
      obtain ⟨rest, rfl, -⟩ := (beforeNewline_eq_some_iff bs before).mp hsome
      -- what is found is a newline of the bytes
      exact absurd (List.mem_append_right before List.mem_cons_self) h

/-- More bytes do not move the first newline. -/
private theorem beforeNewline_append (bs more before : Bytes) (h : beforeNewline bs = some before) :
    beforeNewline (bs ++ more) = some before := by
  obtain ⟨rest, rfl, hbefore⟩ := (beforeNewline_eq_some_iff bs before).mp h
  exact (beforeNewline_eq_some_iff _ before).mpr ⟨rest ++ more, by simp, hbefore⟩

/-- A line that was found, or is too long, stays so. -/
private theorem attempt_newline_hold (limit : Nat) (r : Reader) (bs : Bytes)
    (h : ∀ r', attempt .newline limit r ≠ .more r') :
    attempt .newline limit (r.hold bs) = attempt .newline limit r := by
  obtain ⟨held, announced⟩ := r
  -- a line was found, or the limit was passed without one
  cases hbefore : beforeNewline (held.take (limit + 1)) with
  | some before =>
    have hbefore' : beforeNewline ((held ++ bs).take (limit + 1)) = some before := by
      rw [List.take_append]
      exact beforeNewline_append _ _ before hbefore
    simp only [attempt, hold, hbefore, hbefore']
  | none =>
    -- without a line it would need more, unless the limit was passed
    have hlimit : limit < held.length := by
      by_contra hlimit
      refine h ⟨held, announced⟩ ?_
      simp only [attempt, hbefore, hlimit, if_false]
    have htake : (held ++ bs).take (limit + 1) = held.take (limit + 1) :=
      List.take_append_of_le_length (by omega)
    have hlimit' : limit < (held ++ bs).length := by
      rw [List.length_append]
      omega
    simp only [attempt, hold, htake, hbefore, hlimit, hlimit', if_true]

/-- A body that was found stays so. -/
private theorem body_append (length : Nat) (held bs : Bytes)
    (h : ∀ r', body length held ≠ .more r') : body length (held ++ bs) = body length held := by
  have hlength : ¬held.length < length := by
    intro hlength
    refine h ⟨held, some length⟩ ?_
    simp only [body, hlength, if_true]
  have hlength' : ¬(held ++ bs).length < length := by
    rw [List.length_append]
    omega
  have htake : (held ++ bs).take length = held.take length :=
    List.take_append_of_le_length (by omega)
  simp only [body, hlength, hlength', if_false, htake]

/-- Once the header is there, more bytes only make the body longer. -/
theorem attempt_header (limit : Nat) (held bs : Bytes) (h : 4 ≤ held.length) :
    attempt .lengthPrefixed limit ⟨held ++ bs, none⟩ =
      if limit < Framing.ofBigEndian (held.take 4) then .failed .announcedTooLarge
      else body (Framing.ofBigEndian (held.take 4)) (held.drop 4 ++ bs) := by
  have hheader : ¬(held ++ bs).length < 4 := by
    rw [List.length_append]
    omega
  simp only [attempt, hheader, if_false, List.take_append_of_le_length h,
    List.drop_append_of_le_length h]

/-- A frame with a length that was found, or refused, stays so. -/
private theorem attempt_lengthPrefixed_hold (limit : Nat) (r : Reader) (bs : Bytes)
    (h : ∀ r', attempt .lengthPrefixed limit r ≠ .more r') :
    attempt .lengthPrefixed limit (r.hold bs) = attempt .lengthPrefixed limit r := by
  obtain ⟨held, announced⟩ := r
  cases announced with
  | some length =>
    simp only [attempt] at h
    simp only [attempt, hold]
    exact body_append length held bs h
  | none =>
    -- without a whole header it would need more
    have hheader : 4 ≤ held.length := by
      by_contra hheader
      refine h ⟨held, none⟩ ?_
      simp only [attempt, if_pos (Nat.not_le.mp hheader)]
    have hnow := attempt_header limit held [] hheader
    rw [List.append_nil, List.append_nil] at hnow
    rw [hold, attempt_header limit held bs hheader, hnow]
    simp only [hnow] at h
    split
    · rfl
    · rename_i hlimit
      simp only [hlimit, if_false] at h
      -- the length is within the limit, so the body decides
      exact body_append _ (held.drop 4) bs h

/-- Where an attempt needs more bytes, what it keeps is as good as what was held. -/
private theorem attempt_hold_of_more (f : Framing) (hf : f ≠ .unframed) (limit : Nat)
    (r r' : Reader) (bs : Bytes) (h : attempt f limit r = .more r') :
    attempt f limit (r.hold bs) = attempt f limit (r'.hold bs) := by
  obtain ⟨held, announced⟩ := r
  cases f with
  | unframed => exact absurd rfl hf
  | newline => rw [eq_of_attempt_newline limit _ r' h]
  | lengthPrefixed =>
    cases announced with
    | some length => rw [eq_of_body length held r' h]
    | none =>
      by_cases hheader : held.length < 4
      · -- the header is not whole, so nothing changed
        simp only [attempt, hheader, if_true] at h
        rw [Progress.more.inj h]
      · -- the header was taken off, and only the body counts from here on
        have hnow := attempt_header limit held [] (by omega)
        rw [List.append_nil, List.append_nil] at hnow
        rw [hnow] at h
        split at h
        · cases h
        · rename_i hlimit
          rw [eq_of_body _ (held.drop 4) r' h, hold, attempt_header limit held bs (by omega),
            if_neg hlimit]
          rfl

/-- What more bytes do to an attempt: they count only if it needed more. -/
theorem attempt_hold (f : Framing) (hf : f ≠ .unframed) (limit : Nat) (r : Reader) (bs : Bytes) :
    attempt f limit (r.hold bs) =
      match attempt f limit r with
      | .more r' => attempt f limit (r'.hold bs)
      | progress => progress := by
  -- an attempt that ends with these bytes ends so with more of them
  have hdone : (∀ r', attempt f limit r ≠ .more r') →
      attempt f limit (r.hold bs) = attempt f limit r := by
    cases f with
    | unframed => exact absurd rfl hf
    | newline => exact attempt_newline_hold limit r bs
    | lengthPrefixed => exact attempt_lengthPrefixed_hold limit r bs
  cases hattempt : attempt f limit r with
  | more r' => exact attempt_hold_of_more f hf limit r r' bs hattempt
  | frame p => rw [hdone (by simp [hattempt]), hattempt]
  | failed e => rw [hdone (by simp [hattempt]), hattempt]

/-! ### Chunks -/

/-- A reader for which an attempt would change nothing. -/
def Settled (f : Framing) (limit : Nat) (r : Reader) : Prop := attempt f limit r = .more r

/-- A fresh reader needs bytes. -/
theorem settled_start (f : Framing) (limit : Nat) : Settled f limit {} := by
  cases f <;> rfl

/-- After an attempt that needs more bytes, the next one needs them as well. -/
theorem settled_of_attempt (f : Framing) (limit : Nat) (r r' : Reader)
    (h : attempt f limit r = .more r') : Settled f limit r' := by
  by_cases hf : f = .unframed
  · subst hf
    obtain rfl := eq_of_attempt_unframed limit r r' h
    exact h
  · have hkept := attempt_hold_of_more f hf limit r r' [] h
    rw [hold_nil, hold_nil, h] at hkept
    exact hkept.symm

/-- What a reader comes to that is fed with chunks. -/
def feed (f : Framing) (limit : Nat) (r : Reader) : List Bytes → Progress
  | [] => .more r
  | chunk :: chunks =>
    match (absorb f limit r chunk).progress with
    | .more r' => feed f limit r' chunks
    | progress => progress

/-- A queue comes to the same as all its bytes at once. -/
theorem absorb_eq_attempt (f : Framing) (hf : f ≠ .unframed) (limit : Nat) (r : Reader)
    (queue : Bytes) (hr : Settled f limit r) :
    (absorb f limit r queue).progress = attempt f limit (r.hold queue) := by
  -- the rest of the queue is added to what each read has kept
  fun_induction absorb f limit r queue with
  | case1 r =>
    rw [hold_nil]
    exact hr.symm
  | case2 r queue hq n next hattempt ih =>
    -- the read asks for more, so the attempt at all bytes goes on from what it has kept
    have hnext := attempt_hold f hf limit (r.hold (queue.take n)) (queue.drop n)
    rw [hold_hold, List.take_append_drop, show attempt f limit (r.hold (queue.take n)) = .more next
      from hattempt] at hnext
    rw [hnext]
    exact ih (settled_of_attempt f limit _ next hattempt)
  | case3 r queue hq n hmore =>
    -- the read ends it, and so does the attempt at all bytes
    have hall := attempt_hold f hf limit (r.hold (queue.take n)) (queue.drop n)
    rw [hold_hold, List.take_append_drop] at hall
    cases hattempt : attempt f limit (r.hold (queue.take n)) with
    | more next => exact absurd hattempt (hmore next)
    | failed e =>
      rw [hattempt] at hall
      rw [hall]
      exact hattempt
    | frame p =>
      rw [hattempt] at hall
      rw [hall]
      exact hattempt

/-- Chunks come to the same as all their bytes at once. -/
theorem feed_eq_attempt (f : Framing) (hf : f ≠ .unframed) (limit : Nat) (r : Reader)
    (chunks : List Bytes) (hr : Settled f limit r) :
    feed f limit r chunks = attempt f limit (r.hold chunks.flatten) := by
  -- induction on the chunks: the reader stays settled between them
  induction chunks generalizing r with
  | nil =>
    rw [List.flatten_nil, hold_nil]
    exact hr.symm
  | cons chunk chunks ih =>
    have hchunk := absorb_eq_attempt f hf limit r chunk hr
    -- the other chunks are held behind this one
    have hall := attempt_hold f hf limit (r.hold chunk) chunks.flatten
    rw [hold_hold] at hall
    rw [List.flatten_cons, hall, feed, hchunk]
    cases hattempt : attempt f limit (r.hold chunk) with
    | more r' => exact ih r' (settled_of_attempt f limit _ r' hattempt)
    | frame p => rfl
    | failed e => rfl

/-- Chunks come to a fresh reader as all their bytes at once. -/
theorem feed_start (f : Framing) (hf : f ≠ .unframed) (limit : Nat) (chunks : List Bytes) :
    feed f limit {} chunks = attempt f limit ⟨chunks.flatten, none⟩ := by
  rw [feed_eq_attempt f hf limit {} chunks (settled_start f limit)]
  rfl

/-- A stream is read to its end if its chunks do not make up a frame. -/
theorem readChunks_eq_feed (f : Framing) (limit : Nat) (ending : Ending) (r : Reader)
    (chunks : List Bytes) :
    (readChunks f limit ending r chunks).1 =
      match feed f limit r chunks with
      | .more r' => atEnd f limit r' ending
      | .frame payload => .payload payload
      | .failed e => .failed e := by
  -- induction on the chunks: the end of the stream counts behind the last of them
  induction chunks generalizing r with
  | nil => rfl
  | cons chunk chunks ih =>
    rw [readChunks_cons, feed]
    cases (absorb f limit r chunk).progress with
    | more r' => exact ih r'
    | frame payload => rfl
    | failed e => rfl

/-- Chunks that follow others are fed to what those leave. -/
theorem feed_append (f : Framing) (limit : Nat) (r : Reader) (chunks later : List Bytes) :
    feed f limit r (chunks ++ later) =
      match feed f limit r chunks with
      | .more r' => feed f limit r' later
      | progress => progress := by
  induction chunks generalizing r with
  | nil => rfl
  | cons chunk chunks ih =>
    rw [List.cons_append, feed, feed]
    cases (absorb f limit r chunk).progress with
    | more r' => exact ih r'
    | frame payload => rfl
    | failed e => rfl

/-- What chunks come to that are followed by silence they come to whatever follows. -/
theorem readFrame_append_of_decided (f : Framing) (limit : Nat) (chunks later : List Bytes)
    (ending : Ending) (h : f.readFrame limit chunks .silent ≠ .waiting) :
    f.readFrame limit (chunks ++ later) ending = f.readFrame limit chunks .silent := by
  simp only [Framing.readFrame, readChunks_eq_feed, feed_append] at h ⊢
  -- a reader that needs more would be left waiting
  cases hfeed : feed f limit {} chunks with
  | frame payload => rfl
  | failed e => rfl
  | more r =>
    rw [hfeed] at h
    exact absurd rfl h

end OneShot.Reader
