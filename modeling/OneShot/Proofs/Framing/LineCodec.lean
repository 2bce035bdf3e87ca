import OneShot.Framing.LineCodec
import OneShot.Proofs.Framing.Steady

/-!
# A codec that does not look twice

A codec that begins where it has looked before finds the same newline as a reader that looks at all
bytes again, for what was looked at has none. So it reads the same line from every stream. A reader
gives up after a line that is too long; a codec that is asked again drops the rest of that line and
no more.

## Key results

- `newline?_eq`: what was looked at before holds no newline
- `decode_eq_attempt`: one attempt of the codec is one attempt of the reader
- `readLine_eq_readFrame`: the codec and the reader come to the same on every stream
- `decode_of_discarding`: what is dropped ends with the next newline, however far away it is
-/

namespace OneShot.LineCodec

open Framing (lineEnd)
open Reader (beforeNewline attempt)

/-- What a codec has looked at is held, within the limit, and has no newline in it. -/
structure Searched (limit : Nat) (c : LineCodec) : Prop where
  le_length : c.searched ≤ c.held.length
  le_limit : c.searched ≤ limit + 1
  lineEnd_notMem : lineEnd ∉ c.held.take c.searched

section Search

variable {limit : Nat} {c : LineCodec}

theorem searched_of_eq_zero (limit : Nat) (h : c.searched = 0) : Searched limit c := by
  refine ⟨?_, ?_, ?_⟩
  · omega
  · omega
  · rw [h, List.take_zero]
    exact List.not_mem_nil

/-- Bytes that come in behind change nothing about those in front. -/
theorem Searched.append (h : Searched limit c) (bs : Bytes) :
    Searched limit { c with held := c.held ++ bs } := by
  refine ⟨?_, h.le_limit, ?_⟩
  · show c.searched ≤ (c.held ++ bs).length
    rw [List.length_append]
    exact Nat.le_add_right_of_le h.le_length
  · show lineEnd ∉ (c.held ++ bs).take c.searched
    rw [List.take_append_of_le_length h.le_length]
    exact h.lineEnd_notMem

/-- Bytes without a newline stay in front of the first one. -/
private theorem beforeNewline_append_of_notMem (front bs : Bytes) (h : lineEnd ∉ front) :
    beforeNewline (front ++ bs) = (beforeNewline bs).map (front ++ ·) := by
  cases hbs : beforeNewline bs with
  | none =>
    rw [Reader.beforeNewline_eq_none_iff] at hbs
    exact (Reader.beforeNewline_eq_none_iff _).mpr (by simp [h, hbs])
  | some before =>
    obtain ⟨rest, rfl, hbefore⟩ := (Reader.beforeNewline_eq_some_iff bs before).mp hbs
    refine (Reader.beforeNewline_eq_some_iff _ _).mpr ⟨rest, by simp, fun hmem => ?_⟩
    rcases List.mem_append.mp hmem with hfront | hbehind
    · exact h hfront
    · exact hbefore hbehind

/-- A codec finds the first newline of all bytes within the limit. -/
theorem newline?_eq (h : Searched limit c) :
    c.newline? limit = (beforeNewline (c.held.take (limit + 1))).map List.length := by
  -- the front that was searched lies within the limit
  have hfront : (c.held.take (limit + 1)).take c.searched = c.held.take c.searched := by
    rw [List.take_take, Nat.min_eq_left h.le_limit]
  have hlength : (c.held.take c.searched).length = c.searched :=
    List.length_take_of_le h.le_length
  -- it has no newline, so the first one stands in the rest
  have hall := beforeNewline_append_of_notMem (c.held.take c.searched)
    ((c.held.take (limit + 1)).drop c.searched) h.lineEnd_notMem
  rw [← hfront, List.take_append_drop, hfront] at hall
  rw [hall, newline?, Option.map_map]
  apply Option.map_congr
  intro before _
  simp [hlength]

end Search

/-! ### Reading -/

section Reading

variable {limit : Nat} {c : LineCodec}

/-- One attempt of a codec is one attempt of a reader with the same bytes. A codec that needs more
has looked at all of them. -/
theorem decode_eq_attempt (h : Searched limit c) (hkeeps : c.discarding = false) :
    match attempt .newline limit ⟨c.held, none⟩ with
    | .frame payload => (c.decode limit).1 = .ok (some payload)
    | .failed e => (c.decode limit).1 = .error e
    | .more r => c.decode limit = (.ok none, { held := c.held, searched := c.held.length }) ∧
        Searched limit { held := c.held, searched := c.held.length } ∧ r = ⟨c.held, none⟩ := by
  have hnewline := newline?_eq h
  rw [decode, hkeeps, if_neg Bool.false_ne_true, look, hnewline]
  simp only [attempt]
  cases hbefore : beforeNewline (c.held.take (limit + 1)) with
  | some before =>
    -- the bytes up to the newline are those that the reader takes
    obtain ⟨rest, hwindow, -⟩ := (Reader.beforeNewline_eq_some_iff _ before).mp hbefore
    have hwithin : before <+: c.held.take (limit + 1) := ⟨lineEnd :: rest, hwindow.symm⟩
    have hprefix : before <+: c.held := hwithin.trans (List.take_prefix _ _)
    have htake : c.held.take before.length = before := (List.prefix_iff_eq_take.mp hprefix).symm
    simp only [Option.map_some, htake, Reader.lineProgress]
    cases Reader.line before <;> rfl
  | none =>
    simp only [Option.map_none]
    by_cases hlong : limit < c.held.length
    · -- the line is too long, to both
      simp only [hlong, if_true]
    -- within the limit all of it was searched
    · have hall : c.held.take (limit + 1) = c.held := List.take_of_length_le (by omega)
      have hsearched : min (limit + 1) c.held.length = c.held.length := by omega
      rw [hall, Reader.beforeNewline_eq_none_iff] at hbefore
      simp only [hlong, if_false, hsearched, hkeeps]
      refine ⟨trivial, ⟨Nat.le_refl _, ?_, ?_⟩, trivial⟩
      · show c.held.length ≤ limit + 1
        omega
      · show lineEnd ∉ c.held.take c.held.length
        rw [List.take_length]
        exact hbefore

/-- At the end of the stream, a codec makes of its bytes what a reader makes of them. -/
theorem atEnd_eq (h : Searched limit c) (hkeeps : c.discarding = false)
    (hsettled : Reader.Settled .newline limit ⟨c.held, none⟩) (ending : Reader.Ending) :
    c.atEnd limit ending = Reader.atEnd .newline limit ⟨c.held, none⟩ ending := by
  have hdecode := decode_eq_attempt h hkeeps
  rw [show attempt .newline limit ⟨c.held, none⟩ = .more ⟨c.held, none⟩ from hsettled] at hdecode
  cases ending with
  | silent => rfl
  | failed failure => simp [atEnd, Reader.atEnd, Reader.interrupted]
  | closed =>
    simp only [atEnd, Reader.atEnd, decodeEnd, hdecode.1, Reader.finish]
    -- both know the two endings that are no line
    by_cases hnothing : c.held = [] ∨ c.held = [0x0D]
    · simp only [hnothing, if_true]
    · simp only [hnothing, if_false]
      cases Reader.line c.held <;> rfl

/-- From what is held on, a codec and a reader come to the same. -/
private theorem readLine_eq (h : Searched limit c) (hkeeps : c.discarding = false)
    (hsettled : Reader.Settled .newline limit ⟨c.held, none⟩) (ending : Reader.Ending)
    (chunks : List Bytes) :
    c.readLine limit ending chunks =
      (Reader.readChunks .newline limit ending ⟨c.held, none⟩ chunks).1 := by
  -- induction on the chunks: after each, both hold the same bytes or are done
  induction chunks generalizing c with
  | nil => exact atEnd_eq h hkeeps hsettled ending
  | cons chunk chunks ih =>
    have hdecode := decode_eq_attempt (h.append chunk) hkeeps
    have habsorb : (Reader.absorb .newline limit ⟨c.held, none⟩ chunk).progress =
        attempt .newline limit ⟨c.held ++ chunk, none⟩ :=
      Reader.absorb_eq_attempt .newline (by decide) limit _ chunk hsettled
    rw [Reader.readChunks_cons, habsorb, readLine]
    cases hattempt : attempt .newline limit ⟨c.held ++ chunk, none⟩ with
    -- the two agree on each chunk: a line, a refusal, or more
    | frame payload =>
      rw [hattempt] at hdecode
      generalize decode limit { c with held := c.held ++ chunk } = decoded at hdecode ⊢
      obtain ⟨result, next⟩ := decoded
      cases hdecode
      rfl
    | failed e =>
      rw [hattempt] at hdecode
      generalize decode limit { c with held := c.held ++ chunk } = decoded at hdecode ⊢
      obtain ⟨result, next⟩ := decoded
      cases hdecode
      rfl
    | more r =>
      rw [hattempt] at hdecode
      obtain ⟨hnone, hsearched, rfl⟩ := hdecode
      rw [hnone]
      -- the positions that were searched are kept for the next chunk
      exact ih hsearched rfl (Reader.settled_of_attempt .newline limit _ _ hattempt)

/-- A codec reads the same from every stream as a reader that looks at all bytes again. -/
theorem readLine_eq_readFrame (limit : Nat) (chunks : List Bytes) (ending : Reader.Ending) :
    readLine limit ending {} chunks = Framing.newline.readFrame limit chunks ending :=
  readLine_eq (searched_of_eq_zero limit rfl) rfl (Reader.settled_start .newline limit) ending chunks

end Reading

/-! ### Dropping -/

section Dropping

variable {limit : Nat} {c : LineCodec}

/-- The bytes behind the first newline. -/
def behindNewline (bs : Bytes) : Option Bytes :=
  (beforeNewline bs).map fun before => bs.drop (before.length + 1)

/-- Bytes without a newline in front are dropped with the others. -/
private theorem behindNewline_drop (bs : Bytes) (n : Nat) (h : lineEnd ∉ bs.take n) :
    behindNewline bs = behindNewline (bs.drop n) := by
  have hall := beforeNewline_append_of_notMem (bs.take n) (bs.drop n) h
  rw [List.take_append_drop] at hall
  rw [behindNewline, behindNewline, hall, Option.map_map]
  apply Option.map_congr
  intro before _
  show bs.drop ((bs.take n ++ before).length + 1) = (bs.drop n).drop (before.length + 1)
  rw [List.drop_drop, List.length_append, List.length_take]
  by_cases hn : n ≤ bs.length
  · rw [Nat.min_eq_left hn, Nat.add_assoc]
  · rw [List.drop_eq_nil_of_le (by omega), List.drop_eq_nil_of_le (by omega)]

/-- A codec drops the bytes up to the next newline, however far away it is. -/
theorem discard_eq (h : Searched limit c) : c.discard limit = behindNewline c.held := by
  fun_induction discard limit c with
  | case1 c i hnewline =>
    rw [newline?_eq h, Option.map_eq_some_iff] at hnewline
    obtain ⟨before, hbefore, rfl⟩ := hnewline
    obtain ⟨rest, hwindow, hnone⟩ := (Reader.beforeNewline_eq_some_iff _ before).mp hbefore
    -- the newline within the limit is the first of all
    have hfirst : beforeNewline c.held = some before := by
      refine (Reader.beforeNewline_eq_some_iff _ before).mpr
        ⟨rest ++ c.held.drop (limit + 1), ?_, hnone⟩
      rw [← List.cons_append, ← List.append_assoc, ← hwindow, List.take_append_drop]
    rw [behindNewline, hfirst]
    rfl
  | case2 c hnewline hshort =>
    -- all that is held was searched
    rw [newline?_eq h, Option.map_eq_none_iff, List.take_of_length_le hshort] at hnewline
    rw [behindNewline, hnewline]
    rfl
  | case3 c hnewline hlong ih =>
    rw [newline?_eq h, Option.map_eq_none_iff, Reader.beforeNewline_eq_none_iff] at hnewline
    -- a window without a newline is dropped, and the search goes on behind it
    rw [ih (searched_of_eq_zero limit rfl), behindNewline_drop c.held (limit + 1) hnewline]

/-- After a line that was too long, a codec goes on behind it as one that starts there. -/
theorem decode_of_discarding (h : Searched limit c) (hdrops : c.discarding = true) :
    c.decode limit =
      match behindNewline c.held with
      | some rest => decode limit { held := rest }
      | none => (.ok none, { discarding := true }) := by
  rw [decode, hdrops, if_pos rfl, discard_eq h]
  cases behindNewline c.held <;> rfl

end Dropping

end OneShot.LineCodec
