import OneShot.Proofs.Framing.Steady
import OneShot.Proofs.Message.Beginnings
import OneShot.Proofs.Message.RoundTrip

/-!
# Payloads without a frame

A reader without frames looks at all it holds after every read, and takes it for the payload as
soon as it does not count as unfinished. So what it returns is decided by where its reads end.

A message is cut short exactly if a read ends where a number still needs a digit: such bytes count
as malformed, not as unfinished.

## Key results

- `readChunks_unframed`: the payload ends with the first read that does not look unfinished
- `readFrame_unframed_of_decode`: which cuts of a message are put together again
- `readFrame_unframed_returns`: a message that has come in is not waited behind
-/

namespace OneShot.Reader

open Json (isPrefix)
open Json.Skip (owesDigit)

/-! ### Where reads end -/

/-- The numbers of bytes held after each of the reads of a queue, as much at a time as there is room
for. -/
def readEnds (held queued : Nat) : List Nat :=
  if _h : queued = 0 then []
  else
    let n := min (room held) queued
    (held + n) :: readEnds (held + n) (queued - n)
termination_by queued
decreasing_by
  have := room_pos held
  omega

/-- The numbers of bytes held after each of the reads of the chunks of a stream. -/
def chunkEnds (held : Nat) : List Bytes → List Nat
  | [] => []
  | chunk :: chunks => readEnds held chunk.length ++ chunkEnds (held + chunk.length) chunks

@[simp] theorem readEnds_zero (held : Nat) : readEnds held 0 = [] := by
  rw [readEnds]
  rfl

/-- The first read takes what there is room for. -/
theorem readEnds_of_pos (held queued : Nat) (h : 0 < queued) :
    readEnds held queued = (held + min (room held) queued) ::
      readEnds (held + min (room held) queued) (queued - min (room held) queued) := by
  rw [readEnds, dif_neg (by omega)]

/-- Every read takes a byte, and none takes more than there are. -/
theorem lt_of_mem_readEnds (held queued n : Nat) (h : n ∈ readEnds held queued) :
    held < n ∧ n ≤ held + queued := by
  induction queued using Nat.strongRecOn generalizing held with
  | _ queued ih =>
    rcases Nat.eq_zero_or_pos queued with rfl | hpos
    · simp at h
    · have hroom := room_pos held
      rw [readEnds_of_pos held queued hpos, List.mem_cons] at h
      rcases h with rfl | h
      · omega
      · have := ih _ (by omega) _ h
        omega

/-- Reads end one after the other. -/
theorem pairwise_readEnds (held queued : Nat) : (readEnds held queued).Pairwise (· < ·) := by
  induction queued using Nat.strongRecOn generalizing held with
  | _ queued ih =>
    rcases Nat.eq_zero_or_pos queued with rfl | hpos
    · simp
    · have hroom := room_pos held
      rw [readEnds_of_pos held queued hpos, List.pairwise_cons]
      exact ⟨fun n hn => (lt_of_mem_readEnds _ _ n hn).1, ih _ (by omega) _⟩

/-- The last read ends where the queue does. -/
theorem add_mem_readEnds (held queued : Nat) (h : 0 < queued) :
    held + queued ∈ readEnds held queued := by
  induction queued using Nat.strongRecOn generalizing held with
  | _ queued ih =>
    have hroom := room_pos held
    rw [readEnds_of_pos held queued h, List.mem_cons]
    rcases Nat.eq_zero_or_pos (queued - min (room held) queued) with hzero | hpos
    · exact .inl (by omega)
    · refine .inr ?_
      have hmem := ih _ (by omega) (held + min (room held) queued) hpos
      rwa [show held + min (room held) queued + (queued - min (room held) queued) = held + queued
        from by omega] at hmem

/-- Reads of chunks take bytes, and no more than there are. -/
theorem lt_of_mem_chunkEnds (held : Nat) (chunks : List Bytes) (n : Nat)
    (h : n ∈ chunkEnds held chunks) : held < n ∧ n ≤ held + chunks.flatten.length := by
  induction chunks generalizing held with
  | nil => cases h
  | cons chunk chunks ih =>
    rw [chunkEnds, List.mem_append] at h
    rw [List.flatten_cons, List.length_append]
    rcases h with h | h
    · have := lt_of_mem_readEnds held chunk.length n h
      omega
    · have := ih _ h
      omega

/-- Reads of chunks end one after the other. -/
theorem pairwise_chunkEnds (held : Nat) (chunks : List Bytes) :
    (chunkEnds held chunks).Pairwise (· < ·) := by
  induction chunks generalizing held with
  | nil => exact .nil
  | cons chunk chunks ih =>
    rw [chunkEnds, List.pairwise_append]
    refine ⟨pairwise_readEnds held chunk.length, ih _, fun n hn n' hn' => ?_⟩
    have := lt_of_mem_readEnds held chunk.length n hn
    have := lt_of_mem_chunkEnds _ chunks n' hn'
    omega

/-- The last read ends where the stream does. -/
theorem add_mem_chunkEnds (held : Nat) (chunks : List Bytes) (h : chunks.flatten ≠ []) :
    held + chunks.flatten.length ∈ chunkEnds held chunks := by
  induction chunks generalizing held with
  | nil => exact absurd rfl h
  | cons chunk chunks ih =>
    rw [chunkEnds, List.mem_append, List.flatten_cons, List.length_append]
    by_cases hrest : chunks.flatten = []
    · rw [hrest, List.length_nil, Nat.add_zero]
      rw [List.flatten_cons, hrest, List.append_nil] at h
      exact .inl (add_mem_readEnds held chunk.length (List.length_pos_iff.mpr h))
    · rw [← Nat.add_assoc]
      exact .inr (ih _ hrest)

/-! ### What is returned -/

/-- Whether the first bytes of a stream are taken for a payload. -/
def looksWhole (bs : Bytes) (n : Nat) : Bool := !isPrefix (bs.take n)

/-- Within the limit an attempt takes what does not look unfinished. -/
private theorem attempt_unframed (limit : Nat) (held rest bs : Bytes) (hbs : held ++ rest = bs)
    (hlimit : bs.length ≤ limit) :
    attempt .unframed limit ⟨held, none⟩ =
      if looksWhole bs held.length then .frame (bs.take held.length) else .more ⟨held, none⟩ := by
  have htake : bs.take held.length = held := by rw [← hbs, List.take_left]
  have hle : ¬limit < held.length := by
    rw [← hbs, List.length_append] at hlimit
    omega
  simp only [attempt, hle, if_false, looksWhole, htake]
  cases isPrefix held <;> rfl

/-- A queue is read up to the first read that does not look unfinished. -/
theorem absorb_unframed (limit : Nat) (held queue rest bs : Bytes)
    (hbs : held ++ (queue ++ rest) = bs) (hlimit : bs.length ≤ limit) :
    (absorb .unframed limit ⟨held, none⟩ queue).progress =
      match (readEnds held.length queue.length).find? (looksWhole bs) with
      | some n => .frame (bs.take n)
      | none => .more ⟨held ++ queue, none⟩ := by
  -- induction on what is still queued, since each read takes at least a byte
  induction hlen : queue.length using Nat.strongRecOn generalizing held queue with
  | _ queued ih =>
    by_cases hq : queue = []
    · subst hq hlen
      simp
    · have hpos := List.length_pos_iff.mpr hq
      have hroom := room_pos held.length
      -- the first read, and what it leaves in the queue
      have hread : (held ++ queue.take (room held.length)) ++ (queue.drop (room held.length) ++ rest)
          = bs := by
        rw [← hbs, List.append_assoc, ← List.append_assoc (queue.take _), List.take_append_drop]
      have hends : readEnds held.length queued =
          (held ++ queue.take (room held.length)).length ::
            readEnds (held ++ queue.take (room held.length)).length
              (queue.drop (room held.length)).length := by
        rw [readEnds_of_pos _ _ (by omega), List.length_append, List.length_take, List.length_drop,
          hlen, show queued - min (room held.length) queued = queued - room held.length from by omega]
      rw [absorb, dif_neg hq, hends, List.find?_cons]
      simp only [attempt_unframed limit _ _ bs hread hlimit]
      -- the first read ends it, or all of it is held and the rest of the queue goes on
      cases hwhole : looksWhole bs (held ++ queue.take (room held.length)).length with
      | true => simp only [if_true]
      | false =>
        simp only [Bool.false_eq_true, if_false]
        rw [ih _ (by rw [List.length_drop]; omega) _ _ hread rfl, List.append_assoc,
          List.take_append_drop]

/-- A stream is read up to the first read that does not look unfinished. -/
theorem readChunks_unframed (limit : Nat) (ending : Ending) (held : Bytes) (chunks : List Bytes)
    (bs : Bytes) (hbs : held ++ chunks.flatten = bs) (hlimit : bs.length ≤ limit) :
    (readChunks .unframed limit ending ⟨held, none⟩ chunks).1 =
      match (chunkEnds held.length chunks).find? (looksWhole bs) with
      | some n => .payload (bs.take n)
      | none => atEnd .unframed limit ⟨bs, none⟩ ending := by
  -- induction on the chunks: without a whole read all bytes so far are held
  induction chunks generalizing held with
  | nil =>
    rw [List.flatten_nil, List.append_nil] at hbs
    simp [readChunks, chunkEnds, hbs]
  | cons chunk chunks ih =>
    rw [List.flatten_cons] at hbs
    rw [readChunks_cons, absorb_unframed limit held chunk chunks.flatten bs hbs hlimit, chunkEnds,
      List.find?_append]
    cases (readEnds held.length chunk.length).find? (looksWhole bs) with
    -- a read of this chunk ends the reading, or none does
    | some n => rfl
    | none =>
      rw [Option.none_or, ← List.length_append]
      exact ih (held ++ chunk) (by rw [List.append_assoc, hbs])

/-! ### Messages -/

/-- Behind a message no number needs a digit. -/
private theorem owesDigit_take (bs : Bytes) (n n' : Nat) (m : Message)
    (hm : Message.decode (bs.take n) = .ok m) (h : n ≤ n') : owesDigit (bs.take n') = false := by
  have htake : bs.take n' = bs.take n ++ (bs.take n').drop n := by
    rw [show bs.take n = (bs.take n').take n from by rw [List.take_take, Nat.min_eq_left h],
      List.take_append_drop]
  rw [htake]
  exact Message.owesDigit_append_of_decode _ _ m hm

/-- A message that comes in pieces is put together again exactly if no read ends where a number of
it needs a digit. Otherwise the reader stops there, with bytes that are no message. -/
theorem readFrame_unframed_of_decode (limit : Nat) (ending : Ending) (chunks : List Bytes)
    (bs : Bytes) (m : Message) (hbs : chunks.flatten = bs) (hm : Message.decode bs = .ok m)
    (hlimit : bs.length ≤ limit) :
    ∃ p, Framing.unframed.readFrame limit chunks ending = .payload p ∧
      (Message.decode p = .ok m ↔ ∀ n ∈ chunkEnds 0 chunks, owesDigit (bs.take n) = false) ∧
      ∀ m', Message.decode p = .ok m' → m' = m := by
  have hne : chunks.flatten ≠ [] := by
    rw [hbs]
    rintro rfl
    cases hm
  -- the last read holds the message, so some read ends the reading
  have hlast : (chunkEnds 0 chunks).find? (looksWhole bs) ≠ none := by
    intro hnone
    have hmem := add_mem_chunkEnds 0 chunks hne
    rw [hbs, Nat.zero_add] at hmem
    have hwhole := List.find?_eq_none.mp hnone _ hmem
    rw [looksWhole, List.take_length, Message.isPrefix_of_decode bs m hm] at hwhole
    exact hwhole rfl
  obtain ⟨n, hfind⟩ := Option.ne_none_iff_exists'.mp hlast
  have hread := readChunks_unframed limit ending [] chunks bs hbs hlimit
  rw [List.length_nil, hfind] at hread
  obtain ⟨hwhole, before, later, hends, hbefore⟩ := List.find?_eq_some_iff_append.mp hfind
  have hpairs := pairwise_chunkEnds 0 chunks
  rw [hends, List.pairwise_append, List.pairwise_cons] at hpairs
  refine ⟨bs.take n, hread, ?_⟩
  -- what was read is a beginning of the message: it says the same or nothing
  rcases Message.beginning_cases bs (bs.take n) m hm (List.take_prefix n bs) with
    hok | ⟨hfails, -, hprefix⟩
  · refine ⟨⟨fun _ n' hn' => ?_, fun _ => hok⟩, fun m' hm' => ?_⟩
    · rw [hends, List.mem_append, List.mem_cons] at hn'
      rcases hn' with hn' | rfl | hn'
      · -- an earlier read looked unfinished
        have hlooks := hbefore n' hn'
        rw [looksWhole, Bool.not_not] at hlooks
        exact Json.Skip.owesDigit_of_isPrefix _ hlooks
      · exact owesDigit_take bs n' n' m hok (Nat.le_refl n')
      · -- a later one goes on behind the message
        exact owesDigit_take bs n n' m hok (Nat.le_of_lt (hpairs.2.1.1 n' hn'))
    · rw [hok] at hm'
      exact (Except.ok.inj hm').symm
  · -- the bytes that ended the reading are malformed, so they end where a digit is needed
    rw [looksWhole, hprefix, Bool.not_not] at hwhole
    refine ⟨⟨fun hok => absurd hok (hfails m), fun h => ?_⟩,
      fun m' hm' => absurd hm' (hfails m')⟩
    have howes := h n (by rw [hends]; simp)
    rw [hwhole] at howes
    cases howes

/-- A message with a negative identifier, cut inside its text, is put together again. -/
theorem readFrame_unframed_cut_in_text :
    Message.decode (Message.encode ⟨"x", -1⟩) = .ok ⟨"x", -1⟩ ∧
    (Message.encode ⟨"x", -1⟩).length ≤ 100 ∧
    ∃ p, Framing.unframed.readFrame 100
        [(Message.encode ⟨"x", -1⟩).take 10, (Message.encode ⟨"x", -1⟩).drop 10] .silent =
          .payload p ∧ Message.decode p = .ok ⟨"x", -1⟩ := by
  have hm := Message.decode_encode ⟨"x", -1⟩
  have hlimit : (Message.encode ⟨"x", -1⟩).length ≤ 100 := by decide
  obtain ⟨p, hread, hiff, -⟩ := readFrame_unframed_of_decode 100 .silent
    [(Message.encode ⟨"x", -1⟩).take 10, (Message.encode ⟨"x", -1⟩).drop 10]
    (Message.encode ⟨"x", -1⟩) ⟨"x", -1⟩ (by simp) hm hlimit
  -- neither of the two reads ends where a number owes a digit
  have hends : chunkEnds 0 [(Message.encode ⟨"x", -1⟩).take 10, (Message.encode ⟨"x", -1⟩).drop 10] =
      [10, 20] := by decide +kernel
  rw [hends] at hiff
  exact ⟨hm, hlimit, p, hread, hiff.mpr (by decide)⟩

/-- The same message, cut behind its minus sign, is not put together again. -/
theorem readFrame_unframed_cut_behind_minus :
    ¬∀ (limit : Nat) (ending : Ending) (chunks : List Bytes) (bs : Bytes) (m : Message),
      (∀ chunk ∈ chunks, chunk ≠ []) → (ending = .closed ∨ ending = .silent) →
      chunks.flatten = bs → Message.decode bs = .ok m → bs.length ≤ limit →
      ∃ p, Framing.unframed.readFrame limit chunks ending = .payload p ∧
        Message.decode p = .ok m := by
  intro h
  have hlimit : (Message.encode ⟨"x", -1⟩).length ≤ 100 := by decide
  obtain ⟨p, hread, hp⟩ := h 100 .closed
    [(Message.encode ⟨"x", -1⟩).take 18, (Message.encode ⟨"x", -1⟩).drop 18]
    (Message.encode ⟨"x", -1⟩) ⟨"x", -1⟩ (by decide) (.inl rfl) (by simp)
    (Message.decode_encode _) hlimit
  -- the first read ends behind the minus sign, and is handed on
  have hcut : Framing.unframed.readFrame 100
      [(Message.encode ⟨"x", -1⟩).take 18, (Message.encode ⟨"x", -1⟩).drop 18] .closed =
      .payload ((Message.encode ⟨"x", -1⟩).take 18) := by decide +kernel
  rw [hcut] at hread
  obtain rfl := Outcome.payload.inj hread
  -- the machine is still behind the minus sign, not behind a message
  have hreach : Json.Skip.reach Json.Skip.start ((Message.encode ⟨"x", -1⟩).take 18) =
      some ⟨.sign, [.object]⟩ := by decide
  have hstate := Message.eq_of_reach_of_decode _ _ _ hp hreach
  exact absurd hstate (by decide)

/-! ### Nothing is waited for -/

/-- Bytes that do not look unfinished are not waited behind: at the latest the read that takes the
last of them ends the reading. -/
theorem exists_readFrame_unframed (limit : Nat) (ending : Ending) (chunks : List Bytes) (bs : Bytes)
    (hbs : chunks.flatten = bs) (hlimit : bs.length ≤ limit) (hwhole : isPrefix bs = false) :
    ∃ n, Framing.unframed.readFrame limit chunks ending = .payload (bs.take n) := by
  have hread := readChunks_unframed limit ending [] chunks bs hbs hlimit
  -- no bytes at all look unfinished, so there is a last read
  have hne : chunks.flatten ≠ [] := by
    rw [hbs]
    rintro rfl
    cases hwhole
  have hlast := add_mem_chunkEnds 0 chunks hne
  rw [hbs, Nat.zero_add] at hlast
  rw [List.length_nil] at hread
  -- the last read holds all bytes, and they do not look unfinished
  cases hfind : (chunkEnds 0 chunks).find? (looksWhole bs) with
  | none =>
    have hlooks := List.find?_eq_none.mp hfind _ hlast
    rw [looksWhole, List.take_length, hwhole] at hlooks
    exact absurd rfl hlooks
  | some n =>
    rw [hfind] at hread
    exact ⟨n, hread⟩

/-- What is read as a message does not look unfinished. So once a message has come in, in whatever
chunks, the reader returns, though nothing more may come and the stream may stay open; and what does
come then changes nothing. -/
theorem readFrame_unframed_returns (bs : Bytes) (m : Message) (hm : Message.decode bs = .ok m) :
    isPrefix bs = false ∧
    ∀ (limit : Nat) (chunks : List Bytes), bs.length ≤ limit → chunks.flatten = bs →
      ∃ p, p <+: bs ∧ Framing.unframed.readFrame limit chunks .silent = .payload p ∧
        ∀ (later : List Bytes) (ending : Ending),
          Framing.unframed.readFrame limit (chunks ++ later) ending = .payload p := by
  have hwhole := Message.isPrefix_of_decode bs m hm
  refine ⟨hwhole, fun limit chunks hlimit hbs => ?_⟩
  obtain ⟨n, hread⟩ := exists_readFrame_unframed limit .silent chunks bs hbs hlimit hwhole
  refine ⟨bs.take n, List.take_prefix n bs, hread, fun later ending => ?_⟩
  rw [readFrame_append_of_decided _ limit chunks later ending (by simp [hread]), hread]

/-- A message of just the limit, cut inside its text. -/
theorem readFrame_unframed_returns_at_limit :
    Message.decode (Message.encode ⟨"x", -1⟩) = .ok ⟨"x", -1⟩ ∧
    (Message.encode ⟨"x", -1⟩).length ≤ 20 ∧
    isPrefix (Message.encode ⟨"x", -1⟩) = false ∧
    ∃ p, p <+: Message.encode ⟨"x", -1⟩ ∧
      Framing.unframed.readFrame 20
        [(Message.encode ⟨"x", -1⟩).take 10, (Message.encode ⟨"x", -1⟩).drop 10] .silent =
          .payload p := by
  have hm := Message.decode_encode ⟨"x", -1⟩
  have hlimit : (Message.encode ⟨"x", -1⟩).length ≤ 20 := by decide
  obtain ⟨hwhole, hreturns⟩ := readFrame_unframed_returns _ _ hm
  obtain ⟨p, hp, hread, -⟩ := hreturns 20
    [(Message.encode ⟨"x", -1⟩).take 10, (Message.encode ⟨"x", -1⟩).drop 10] hlimit (by simp)
  exact ⟨hm, hlimit, hwhole, p, hp, hread⟩

end OneShot.Reader
