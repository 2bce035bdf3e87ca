import OneShot.Framing

/-! # Writing one frame

A writer answers each call with the number of bytes that it takes of those offered, or fails.
`writeFrame` offers what is left of the frame until nothing is, and then flushes once.

* `writeAll_taken_prefix`   the bytes taken are a beginning of those offered
-/

namespace OneShot

namespace Writer

/-- The answer to one offer of bytes. -/
inductive Answer where
  | takes (count : Nat)
  | fails (failure : Failure)
  deriving Repr, DecidableEq

end Writer

/-- A writer, by its answer to each offer, counted from 0, and to the flush. -/
structure Writer where
  answer : Nat → Writer.Answer
  flush : Except Failure Unit

namespace Writer

/-- What a write comes to. -/
structure Written where
  taken : Bytes
  flushes : Nat
  result : Except Failure Unit

/-- The failure of a writer that takes nothing. -/
def writeZero : Failure := ⟨.writeZero, "write zero"⟩

/-- Offers `bytes` from the offer number `turn` on until all are taken. -/
def writeAll (w : Writer) (turn : Nat) (bytes : Bytes) : Bytes × Except Failure Unit :=
  if _hb : bytes = [] then ([], .ok ())
  else
    match w.answer turn with
    | .fails failure => ([], .error failure)
    | .takes count =>
      if _hc : count = 0 then ([], .error writeZero)
      else
        let (taken, result) := writeAll w (turn + 1) (bytes.drop count)
        (bytes.take count ++ taken, result)
termination_by bytes.length
decreasing_by
  have := List.length_pos_iff.2 _hb
  simp only [List.length_drop]
  omega

theorem writeAll_taken_prefix (w : Writer) (turn : Nat) (bytes : Bytes) :
    (w.writeAll turn bytes).1 <+: bytes := by
  fun_induction writeAll w turn bytes with
  | case1 => exact List.nil_prefix
  | case2 => exact List.nil_prefix
  | case3 => exact List.nil_prefix
  | case4 turn bytes hb count ha hc taken result heq ih =>
    rw [heq] at ih
    conv => rhs; rw [← List.take_append_drop count bytes]
    exact (List.prefix_append_right_inj _).2 ih

/-- Writes a frame and flushes once all of it is taken. -/
def write (w : Writer) (frame : Bytes) : Written :=
  match w.writeAll 0 frame with
  | (taken, .ok ()) => ⟨taken, 1, w.flush⟩
  | (taken, .error failure) => ⟨taken, 0, .error failure⟩

/-- More bytes than any frame has. -/
def unlimited : Nat := 0x10000000000000000

/-- A writer that takes at most `step` bytes at a time and `room` bytes in all. When the room is
used up it takes nothing, or fails if `failure` says how. -/
def limited (step room : Option Nat) (failure : Option Failure) (flush : Except Failure Unit) :
    Writer where
  answer turn :=
    match room, step with
    | none, none => .takes unlimited
    | none, some step => .takes step
    | some room, step =>
      let used := match step with
        | some step => turn * step
        | none => if turn = 0 then 0 else room
      if room ≤ used then
        match failure with
        | some failure => .fails failure
        | none => .takes 0
      else .takes (min (room - used) (step.getD room))
  flush := flush

end Writer

/-- Frames a payload and writes the frame. A payload that cannot be framed writes nothing. -/
def Framing.writeFrame (f : Framing) (w : Writer) (payload : Bytes) : Writer.Written :=
  match f.encode payload with
  | .ok frame => w.write frame
  | .error e => ⟨[], 0, .error e.failure⟩

end OneShot
