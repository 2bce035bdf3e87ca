import Mathlib.Data.List.Infix
import OneShot.Proofs.Framing.Writing

/-!
# What a stream takes of a frame

A frame is offered until it has been taken or an offer ends the write. `Writer.accepted` counts what
offers take by their answers alone, and `Writer.StopsAt` says which offer is the one that ends the
write: all before it took something and left something, and it fails or takes nothing. What the
stream has of the frame then is exactly what was accepted before.

## Key results

- `writeAll_of_stopsAt`: what an offer that ends the write leaves behind
- `exists_stopsAt_of_error`: a write fails only by such an offer
- `writeFrame_allOrPrefix`: a frame is written as a whole, or a known beginning of it is
-/

namespace OneShot

namespace Writer

/-- The number of bytes that an answer takes. -/
def Answer.count : Answer → Nat
  | .takes count => count
  | .fails _ => 0

/-- The failure of a write that an answer ends: its own, or that nothing was taken. -/
def Answer.failure? : Answer → Option Failure
  | .takes 0 => some writeZero
  | .takes (_ + 1) => none
  | .fails failure => some failure

/-- An answer that takes something does not end the write. -/
theorem Answer.failure?_takes (count : Nat) (h : count ≠ 0) : (takes count).failure? = none := by
  cases count with
  | zero => exact absurd rfl h
  | succ count => rfl

/-- The number of bytes that some offers take, the first of which is the offer number `turn`. -/
def accepted (w : Writer) (turn : Nat) : Nat → Nat
  | 0 => 0
  | offers + 1 => (w.answer turn).count + w.accepted (turn + 1) offers

/-- Whether the offer that comes after `offers` others from the offer number `turn` on is made and
ends the write of some bytes: those before it took something and left something. -/
structure StopsAt (w : Writer) (bytes : Bytes) (turn offers : Nat) (failure : Failure) : Prop where
  goesOn : ∀ earlier < offers, (w.answer (turn + earlier)).failure? = none
  left : w.accepted turn offers < bytes.length
  stops : (w.answer (turn + offers)).failure? = some failure

/-- An offer that ends the write ends it for all bytes before the first. -/
theorem StopsAt.succ {w : Writer} {bytes : Bytes} {turn offers : Nat} {failure : Failure}
    (hfirst : (w.answer turn).failure? = none) (hfew : (w.answer turn).count < bytes.length)
    (h : w.StopsAt (bytes.drop (w.answer turn).count) (turn + 1) offers failure) :
    w.StopsAt bytes turn (offers + 1) failure := by
  have hleft := h.left
  have hstops := h.stops
  rw [List.length_drop] at hleft
  rw [show turn + 1 + offers = turn + (offers + 1) from by omega] at hstops
  -- an offer behind the first is an offer of what is left
  refine ⟨fun earlier hearlier => ?_, ?_, hstops⟩
  · cases earlier with
    -- the first offer went on
    | zero => exact hfirst
    | succ earlier =>
      rw [show turn + (earlier + 1) = turn + 1 + earlier from by omega]
      exact h.goesOn earlier (by omega)
  · rw [accepted]
    omega

/-- After the first offer was taken in part, the write of what it left ends at the same offer. -/
theorem StopsAt.pred {w : Writer} {bytes : Bytes} {turn offers : Nat} {failure : Failure}
    (h : w.StopsAt bytes turn (offers + 1) failure) :
    w.StopsAt (bytes.drop (w.answer turn).count) (turn + 1) offers failure := by
  have hleft := h.left
  have hstops := h.stops
  rw [accepted] at hleft
  rw [show turn + (offers + 1) = turn + 1 + offers from by omega] at hstops
  refine ⟨fun earlier hearlier => ?_, ?_, hstops⟩
  · rw [show turn + 1 + earlier = turn + (earlier + 1) from by omega]
    exact h.goesOn (earlier + 1) (by omega)
  · rw [List.length_drop]
    omega

/-! ### All offers -/

/-- An offer that ends the write leaves all that was offered. -/
theorem writeAll_of_failure? (w : Writer) (turn : Nat) (bytes : Bytes) (failure : Failure)
    (hne : bytes ≠ []) (h : (w.answer turn).failure? = some failure) :
    w.writeAll turn bytes = ([], .error failure) := by
  rw [writeAll, dif_neg hne]
  -- the answer fails, or it takes nothing and that is a failure too
  cases hanswer : w.answer turn with
  | fails failure' =>
    rw [hanswer] at h
    rw [Option.some.inj h]
  | takes count =>
    rw [hanswer] at h
    cases count with
    | succ count => cases h
    -- nothing taken is told as such
    | zero =>
      rw [← Option.some.inj h]
      rfl

/-- After an offer that was taken in part, what it left is offered. -/
theorem writeAll_of_goesOn (w : Writer) (turn : Nat) (bytes : Bytes) (hne : bytes ≠ [])
    (h : (w.answer turn).failure? = none) :
    w.writeAll turn bytes =
      (bytes.take (w.answer turn).count ++
        (w.writeAll (turn + 1) (bytes.drop (w.answer turn).count)).1,
      (w.writeAll (turn + 1) (bytes.drop (w.answer turn).count)).2) := by
  rw [writeAll, dif_neg hne]
  -- an answer that is no failure takes some bytes
  cases hanswer : w.answer turn with
  | fails failure =>
    rw [hanswer] at h
    cases h
  | takes count =>
    rw [hanswer] at h
    cases count with
    | zero => cases h
    | succ count => rfl

/-- What an offer that ends the write leaves behind: exactly the bytes that were accepted before. -/
theorem writeAll_of_stopsAt (w : Writer) (turn : Nat) (bytes : Bytes) (offers : Nat)
    (failure : Failure) (h : w.StopsAt bytes turn offers failure) :
    w.writeAll turn bytes = (bytes.take (w.accepted turn offers), .error failure) := by
  have hne : bytes ≠ [] := List.ne_nil_of_length_pos (Nat.zero_lt_of_lt h.left)
  -- induction on the offers before the one that ends the write
  induction offers generalizing turn bytes with
  | zero => rw [writeAll_of_failure? w turn bytes failure hne h.stops, accepted, List.take_zero]
  | succ offers ih =>
    have hrest := h.pred
    rw [writeAll_of_goesOn w turn bytes hne (h.goesOn 0 (by omega)), ih _ _ hrest
      (List.ne_nil_of_length_pos (Nat.zero_lt_of_lt hrest.left)), accepted, List.take_add]

/-- A write fails only by an offer that ends it. -/
theorem exists_stopsAt_of_error (w : Writer) (turn : Nat) (bytes : Bytes) (failure : Failure)
    (h : (w.writeAll turn bytes).2 = .error failure) :
    ∃ offers, w.StopsAt bytes turn offers failure := by
  -- the cases of an offer: nothing is left, a failure, nothing taken, some bytes taken
  fun_induction writeAll w turn bytes with
  | case1 turn => cases h
  | case2 turn bytes hb failure' ha =>
    refine ⟨0, fun _ h => absurd h (Nat.not_lt_zero _), List.length_pos_iff.mpr hb, ?_⟩
    rw [← Except.error.inj h, Nat.add_zero, ha]
    rfl
  | case3 turn bytes hb ha =>
    refine ⟨0, fun _ h => absurd h (Nat.not_lt_zero _), List.length_pos_iff.mpr hb, ?_⟩
    rw [← Except.error.inj h, Nat.add_zero, ha]
    rfl
  | case4 turn bytes hb count ha hc taken result heq ih =>
    rw [heq] at ih
    -- the write fails behind this offer, at one more than the rest of it
    obtain ⟨offers, hstops⟩ := ih h
    have hcount : (w.answer turn).count = count := by rw [ha]; rfl
    have hgoesOn : (w.answer turn).failure? = none := by rw [ha, Answer.failure?_takes count hc]
    rw [← hcount] at hstops
    refine ⟨offers + 1, hstops.succ hgoesOn ?_⟩
    -- something was left, or the rest of the write could not have failed
    have hleft := hstops.left
    rw [List.length_drop] at hleft
    omega

/-! ### Frames -/

/-- A frame is taken as a whole exactly if no offer ends the write. -/
theorem write_taken_eq_iff (w : Writer) (frame : Bytes) :
    (w.write frame).taken = frame ↔ ∀ offers failure, ¬w.StopsAt frame 0 offers failure := by
  rw [write_taken, ← writeAll_eq_ok_iff]
  constructor
  · -- a write that went well was stopped by no offer
    intro hok offers failure hstops
    rw [writeAll_of_stopsAt w 0 frame offers failure hstops] at hok
    cases hok
  · intro hgoesOn
    cases hresult : (w.writeAll 0 frame).2 with
    | ok _ => rfl
    | error failure =>
      -- one of the offers stopped it
      obtain ⟨offers, hstops⟩ := exists_stopsAt_of_error w 0 frame failure hresult
      exact absurd hstops (hgoesOn offers failure)

/-- What an offer that ends the write makes of a frame: a beginning of it is taken, nothing is
flushed, and the write fails as the offer did. -/
theorem write_of_stopsAt (w : Writer) (frame : Bytes) (offers : Nat) (failure : Failure)
    (h : w.StopsAt frame 0 offers failure) :
    w.write frame = ⟨frame.take (w.accepted 0 offers), 0, .error failure⟩ := by
  simp only [write, writeAll_of_stopsAt w 0 frame offers failure h]

/-- A frame that is taken as a whole is flushed once, and the flush decides. -/
theorem write_of_taken (w : Writer) (frame : Bytes) (h : (w.write frame).taken = frame) :
    w.write frame = ⟨frame, 1, w.flush⟩ := by
  have hresult : (w.writeAll 0 frame).2 = .ok () := by
    rwa [writeAll_eq_ok_iff, ← write_taken]
  rw [write_taken] at h
  simp only [write]
  split <;> rename_i heq <;> rw [heq] at h hresult
  · rw [← h]
  · cases hresult

/-- A frame is flushed once if all of it was taken, and otherwise not at all. -/
theorem write_flushes (w : Writer) (frame : Bytes) :
    (w.write frame).flushes = if (w.write frame).taken = frame then 1 else 0 := by
  by_cases htaken : (w.write frame).taken = frame
  · -- the stream is flushed once behind the whole frame
    rw [if_pos htaken, w.write_of_taken frame htaken]
  · rw [if_neg htaken]
    -- an offer has ended the write, since not all was taken
    have hfailed : (w.writeAll 0 frame).2 ≠ .ok () := by
      rwa [ne_eq, writeAll_eq_ok_iff, ← write_taken]
    cases hresult : (w.writeAll 0 frame).2 with
    | ok _ => exact absurd hresult hfailed
    | error failure =>
      obtain ⟨offers, hstops⟩ := exists_stopsAt_of_error w 0 frame failure hresult
      rw [w.write_of_stopsAt frame offers failure hstops]

end Writer

namespace Framing

/-- What is known of a payload that was written. -/
structure AllOrPrefix (f : Framing) (w : Writer) (payload : Bytes) (written : Writer.Written) :
    Prop where
  /-- What was taken is a beginning of the frame. -/
  taken_prefix : ∀ frame, f.encode payload = .ok frame → written.taken <+: frame
  /-- A payload without a frame writes nothing and flushes nothing. -/
  unencoded : ∀ e, f.encode payload = .error e →
    written.taken = [] ∧ written.flushes = 0 ∧ written.result = .error e.failure
  /-- A write succeeds exactly if all of the frame was taken and the flush succeeded. -/
  ok_iff : written.result = .ok () ↔ f.encode payload = .ok written.taken ∧ w.flush = .ok ()
  /-- An offer that fails or takes nothing leaves what was accepted before it, without a flush. -/
  stopped : ∀ frame offers failure, f.encode payload = .ok frame →
    w.StopsAt frame 0 offers failure →
      written.taken = frame.take (w.accepted 0 offers) ∧
        written.taken.length = w.accepted 0 offers ∧ written.flushes = 0 ∧
        written.result = .error failure
  /-- Only such an offer keeps a part of the frame from being taken. -/
  whole_iff : ∀ frame, f.encode payload = .ok frame →
    (written.taken = frame ↔ ∀ offers failure, ¬w.StopsAt frame 0 offers failure)
  flushes_le : written.flushes ≤ 1
  /-- There is a flush exactly if all of the frame was taken. -/
  flushes_iff : written.flushes = 1 ↔ f.encode payload = .ok written.taken
  /-- A write that was flushed comes to what the flush came to. -/
  flushed : f.encode payload = .ok written.taken → written.result = w.flush

/-- However the offers are answered, what is taken of a payload is a beginning of its frame. All of
it is taken, and then flushed once, or the write ends with the first offer that fails or takes
nothing: then exactly what was accepted before is taken, and nothing is flushed. -/
theorem writeFrame_allOrPrefix (f : Framing) (w : Writer) (payload : Bytes) :
    AllOrPrefix f w payload (f.writeFrame w payload) := by
  cases hframe : f.encode payload with
  | error e =>
    -- a payload that is not encoded writes nothing
    have hwrite : f.writeFrame w payload = ⟨[], 0, .error e.failure⟩ := by
      simp only [writeFrame, hframe]
    rw [hwrite]
    constructor <;> simp [hframe]
  | ok frame =>
    rw [writeFrame_of_encode f w payload frame hframe]
    -- every field speaks of the frame of the payload, and this is the only one
    have hsame : ∀ bytes, f.encode payload = .ok bytes ↔ bytes = frame := by
      intro bytes
      rw [hframe, Except.ok.injEq, eq_comm]
    constructor
    case taken_prefix =>
      intro frame' hframe'
      rw [(hsame frame').mp hframe']
      exact w.write_taken_prefix frame
    case unencoded =>
      intro e he
      rw [hframe] at he
      cases he
    case ok_iff => rw [hsame, w.write_eq_ok_iff]
    case stopped =>
      intro frame' offers failure hframe' hstops
      rw [(hsame frame').mp hframe'] at hstops ⊢
      rw [w.write_of_stopsAt frame offers failure hstops]
      exact ⟨rfl, List.length_take_of_le (Nat.le_of_lt hstops.left), rfl, rfl⟩
    case whole_iff =>
      intro frame' hframe'
      rw [(hsame frame').mp hframe']
      exact w.write_taken_eq_iff frame
    case flushes_le =>
      rw [w.write_flushes]
      split <;> decide
    case flushes_iff =>
      rw [hsame, w.write_flushes]
      simp
    case flushed =>
      intro htaken
      rw [w.write_of_taken frame ((hsame _).mp htaken)]

/-- A line of three bytes, of which the first offer takes two, the second one and the third none. -/
theorem writeFrame_allOrPrefix_short :
    newline.encode [0x61, 0x62, 0x63] = .ok [0x61, 0x62, 0x63, 0x0A] ∧
    (Writer.limited (some 2) (some 3) none (.ok ())).StopsAt [0x61, 0x62, 0x63, 0x0A] 0 2
      Writer.writeZero ∧
    (newline.writeFrame (.limited (some 2) (some 3) none (.ok ())) [0x61, 0x62, 0x63]).taken =
      [0x61, 0x62, 0x63] ∧
    (newline.writeFrame (.limited (some 2) (some 3) none (.ok ())) [0x61, 0x62, 0x63]).flushes = 0 ∧
    (newline.writeFrame (.limited (some 2) (some 3) none (.ok ())) [0x61, 0x62, 0x63]).result =
      .error ⟨.writeZero, "write zero"⟩ := by
  have hframe : newline.encode [0x61, 0x62, 0x63] = .ok [0x61, 0x62, 0x63, 0x0A] := by
    decide +kernel
  have hstops : (Writer.limited (some 2) (some 3) none (.ok ())).StopsAt [0x61, 0x62, 0x63, 0x0A]
      0 2 Writer.writeZero := ⟨by decide, by decide, by decide⟩
  obtain ⟨htaken, -, hflushes, hresult⟩ :=
    (writeFrame_allOrPrefix newline (.limited (some 2) (some 3) none (.ok ()))
      [0x61, 0x62, 0x63]).stopped _ 2 _ hframe hstops
  exact ⟨hframe, hstops, htaken, hflushes, hresult⟩

end Framing

end OneShot
