import OneShot.Proofs.Framing.Unfinished

/-!
# What is told of the end of a stream

A stream may fail or close while a frame is unfinished, and what is told of it then depends on how
it ended and on what the reader still holds.

A failure of the stream is passed on as it is, unless it is of no particular kind and the frame is
not a line: then the peer is said to have closed the connection inside a frame. A stream that was
closed is said to have brought nothing if nothing is held, which is also so for a header without its
body, and if a carriage return is held instead of a line.

## Key results

- `failing_readFrame`: what is told of a stream that fails
- `closing_readFrame`: what is told of a stream that is closed
-/

namespace OneShot

/-- Whether a failure reads as if the peer had closed the connection. -/
def Failure.TellsClosed (failure : Failure) : Prop :=
  failure.kind = .unexpectedEnd ∧ "peer closed the connection".toList <+: failure.message.toList

namespace Reader

/-- The failure that callers see, if there is one. -/
def Outcome.failure? : Outcome → Option Failure
  | .failed e => some e.failure
  | .payload _ | .waiting => none

/-! ### What is told to a reader that holds a part of a frame -/

/-- A failure of the stream is passed on as it is, unless it is of no particular kind and the frame
is not a line. -/
private theorem failure?_atEnd_failed (f : Framing) (limit : Nat) (r : Reader) (failure : Failure) :
    (atEnd f limit r (.failed failure)).failure? = some
      (if failure.kind = .other ∧ f ≠ .newline then
        ⟨.unexpectedEnd, "peer closed the connection mid-frame: " ++ failure.message⟩
      else failure) := by
  simp only [atEnd, interrupted, Outcome.failure?]
  split <;> rfl

/-- A stream that was closed is said to have brought nothing exactly if the reader holds nothing, or
a carriage return instead of a line. -/
private theorem atEnd_closed_eq_nothingSent_iff (f : Framing) (limit : Nat) (r : Reader) :
    (atEnd f limit r .closed).failure? = some ReadError.nothingSent.failure ↔
      r.held = [] ∨ f = .newline ∧ r.held = [0x0D] := by
  -- each framing has its own bytes that count as nothing
  cases f with
  | unframed =>
    simp only [atEnd, finish, reduceCtorEq, false_and, or_false]
    by_cases hheld : r.held = []
    · simp [hheld, Outcome.failure?]
    · by_cases hlimit : limit < r.held.length <;>
        simp [hheld, hlimit, Outcome.failure?, ReadError.failure]
  | newline =>
    simp only [atEnd, finish, true_and]
    by_cases hnothing : r.held = [] ∨ r.held = [0x0D]
    · simp [hnothing, Outcome.failure?]
    · simp only [if_neg hnothing]
      refine iff_of_false (fun htold => ?_) hnothing
      cases hline : line r.held with
      | ok payload =>
        rw [hline] at htold
        cases htold
      | error e =>
        -- what is refused as a line is invalid data
        rw [hline] at htold
        have hkind := kind_of_line r.held e hline
        rw [Option.some.inj htold] at hkind
        cases hkind
  | lengthPrefixed =>
    simp only [atEnd, finish, reduceCtorEq, false_and, or_false]
    by_cases hheld : r.held = []
    · simp [hheld, Outcome.failure?]
    · -- a part of a frame is told in other words
      simp only [if_neg hheld]
      exact iff_of_false (by decide) hheld

/-- What a line or a payload without a frame comes to when its stream was closed, if the reader
holds some of it. -/
private theorem atEnd_closed_cases (f : Framing) (hf : f ≠ .lengthPrefixed) (limit : Nat)
    (r : Reader) (hheld : r.held ≠ []) (hline : f = .newline → r.held ≠ [0x0D]) :
    (∃ payload, atEnd f limit r .closed = .payload payload) ∨
      ∃ e, atEnd f limit r .closed = .failed e ∧ e.failure.kind = .invalidData := by
  -- without a length in front, the bytes held are a payload or refused for what they are
  cases f with
  | lengthPrefixed => exact absurd rfl hf
  | unframed =>
    simp only [atEnd, finish]
    by_cases hlimit : limit < r.held.length
    · -- more is held than the limit
      exact .inr ⟨.payloadTooLarge limit, by rw [if_pos hlimit], rfl⟩
    · exact .inl ⟨r.held, by rw [if_neg hlimit, if_neg hheld]⟩
  | newline =>
    -- neither nothing nor a lone carriage return is held
    have hsome : ¬(r.held = [] ∨ r.held = [0x0D]) := not_or.mpr ⟨hheld, hline rfl⟩
    simp only [atEnd, finish, if_neg hsome]
    cases hresult : line r.held with
    | ok payload => exact .inl ⟨payload, rfl⟩
    | error e => exact .inr ⟨e, rfl, kind_of_line r.held e hresult⟩

end Reader

namespace Framing

open Reader (Ending)

/-! ### Streams that fail -/

/-- A frame is unfinished exactly if a reader would wait for more of it. When the stream fails then,
its failure is passed on as it is, unless it is of no particular kind and the frame is not a line:
that is told as if the peer had closed the connection inside the frame. So the peer is said to have
closed the connection only if it did, or by such a failure, or by a failure that says so itself. -/
theorem failing_readFrame (f : Framing) (limit : Nat) (chunks : List Bytes) :
    (f.Unfinished limit chunks ↔ f.readFrame limit chunks .silent = .waiting) ∧
    (f.Unfinished limit chunks → ∀ failure,
      (f.readFrame limit chunks (.failed failure)).failure? = some
        (if failure.kind = .other ∧ f ≠ .newline then
          ⟨.unexpectedEnd, "peer closed the connection mid-frame: " ++ failure.message⟩
        else failure)) ∧
    ∀ ending told, (f.readFrame limit chunks ending).failure? = some told → told.TellsClosed →
      ending = .closed ∨
        ∃ failure, ending = .failed failure ∧
          (failure.kind = .other ∧ f ≠ .newline ∨ failure = told) := by
  refine ⟨?_, ?_, ?_⟩
  · -- a stream that falls silent keeps a reader waiting exactly if it needs more
    rcases Reader.readFrame_cases f limit chunks .silent with
      ⟨hunfinished, r, -, hread⟩ | ⟨hdone, ⟨payload, hread⟩ | ⟨e, hread, -⟩⟩
    · rw [hread]
      exact iff_of_true hunfinished rfl
    · rw [hread]
      exact iff_of_false hdone nofun
    · rw [hread]
      exact iff_of_false hdone nofun
  · -- the failure meets a reader in the middle of a frame
    intro hunfinished failure
    rcases Reader.readFrame_cases f limit chunks (.failed failure) with
      ⟨-, r, -, hread⟩ | ⟨hdone, -⟩
    · rw [hread]
      exact Reader.failure?_atEnd_failed f limit r failure
    · exact absurd hunfinished hdone
  · -- what is told is told of the end, or of what the reader refused before
    intro ending told htold hclosed
    rcases Reader.readFrame_cases f limit chunks ending with
      ⟨-, r, -, hread⟩ | ⟨-, ⟨payload, hread⟩ | ⟨e, hread, hkind⟩⟩
    · rw [hread] at htold
      cases ending with
      | closed => exact .inl rfl
      | silent => cases htold
      | failed failure =>
        refine .inr ⟨failure, rfl, ?_⟩
        rw [Reader.failure?_atEnd_failed] at htold
        split at htold
        · rename_i hother
          exact .inl hother
        · exact .inr (Option.some.inj htold)
    · rw [hread] at htold
      cases htold
    · -- what a reader refuses does not read like this
      rw [hread] at htold
      rw [Option.some.inj htold, hclosed.1] at hkind
      cases hkind

/-- Two bytes of a header, and a stream that is reset. -/
theorem failing_readFrame_cut_header :
    lengthPrefixed.Unfinished 100 [[0x00, 0x00]] ∧
    (lengthPrefixed.readFrame 100 [[0x00, 0x00]] (.failed ⟨.connectionReset, "reset"⟩)).failure? =
      some ⟨.connectionReset, "reset"⟩ := by
  have hunfinished : lengthPrefixed.Unfinished 100 [[0x00, 0x00]] := .inl (by decide)
  exact ⟨hunfinished, (failing_readFrame lengthPrefixed 100 [[0x00, 0x00]]).2.1 hunfinished
    ⟨.connectionReset, "reset"⟩⟩

/-- A failure of no particular kind behind the beginning of a message is told in another kind, and
as if the peer had closed the connection. -/
theorem failing_readFrame_of_other :
    (¬∀ (f : Framing) (limit : Nat) (chunks : List Bytes) (failure : Failure),
      f.Unfinished limit chunks →
      ∃ told, (f.readFrame limit chunks (.failed failure)).failure? = some told ∧
        told.kind = failure.kind) ∧
    ¬∀ (f : Framing) (limit : Nat) (chunks : List Bytes) (ending : Ending) (told : Failure),
      (f.readFrame limit chunks ending).failure? = some told → told.TellsClosed →
      ending = .closed := by
  have hread : (unframed.readFrame 100 [(Message.encode ⟨"x", 1⟩).take 8]
      (.failed ⟨.other, "scripted failure"⟩)).failure? =
      some ⟨.unexpectedEnd, "peer closed the connection mid-frame: scripted failure"⟩ := by
    decide +kernel
  have hunfinished : unframed.Unfinished 100 [(Message.encode ⟨"x", 1⟩).take 8] := by
    refine ⟨by decide, fun n hn => ?_⟩
    -- the bytes come in one read, and a message cut there looks unfinished
    have hends : Reader.chunkEnds 0 [(Message.encode ⟨"x", 1⟩).take 8] = [8] := by decide +kernel
    rw [hends, List.mem_singleton] at hn
    rw [hn]
    decide +kernel
  -- the kind is lost, and the failure is told as if the stream had been closed
  constructor
  · intro h
    obtain ⟨told, htold, hkind⟩ := h _ _ _ _ hunfinished
    rw [hread] at htold
    obtain rfl := Option.some.inj htold
    cases hkind
  · intro h
    exact absurd (h _ _ _ _ _ hread ⟨rfl, by decide +kernel⟩) nofun

/-! ### Streams that are closed -/

/-- No bytes leave every frame unfinished. -/
theorem unfinished_of_flatten_eq_nil (f : Framing) (limit : Nat) (chunks : List Bytes)
    (h : chunks.flatten = []) : f.Unfinished limit chunks := by
  cases f with
  | unframed =>
    refine ⟨by simp [h], fun n _ => ?_⟩
    rw [h, List.take_nil]
    rfl
  | newline => simp [Unfinished, h]
  | lengthPrefixed => simp [Unfinished, h]

/-- Nothing is kept of a stream that brought nothing, and of a header without its body. -/
theorem kept_eq_nil_iff (f : Framing) (stream : Bytes) :
    f.kept stream = [] ↔ stream = [] ∨ f = .lengthPrefixed ∧ stream.length = 4 := by
  cases f with
  | unframed => simp [kept]
  | newline => simp [kept]
  | lengthPrefixed =>
    simp only [kept, true_and]
    -- of a header all bytes are held, behind it only the body
    split
    · rename_i hheader
      exact ⟨.inl, fun h => h.resolve_right (by omega)⟩
    · rename_i hheader
      rw [List.drop_eq_nil_iff]
      refine ⟨fun hle => .inr (by omega), fun h => ?_⟩
      rcases h with rfl | h
      · exact absurd (Nat.zero_lt_succ 3) hheader
      · omega

/-- A stream that was closed is said to have brought nothing exactly if it brought no byte, a line
that is a carriage return, or the header of an unfinished frame and nothing behind it. Any other
part of a frame with a length is told as such, and any other line or payload without a frame is
returned, or refused as invalid data. -/
theorem closing_readFrame (f : Framing) (limit : Nat) (chunks : List Bytes) :
    ((f.readFrame limit chunks .closed).failure? =
        some ⟨.unexpectedEnd, "peer closed the connection before sending any data"⟩ ↔
      chunks.flatten = [] ∨ f.Unfinished limit chunks ∧
        (f = .newline ∧ chunks.flatten = [0x0D] ∨
          f = .lengthPrefixed ∧ chunks.flatten.length = 4)) ∧
    (f = .lengthPrefixed → f.Unfinished limit chunks → chunks.flatten ≠ [] →
      chunks.flatten.length ≠ 4 →
      (f.readFrame limit chunks .closed).failure? =
        some ⟨.unexpectedEnd, "peer closed the connection mid-frame: bytes remaining on stream"⟩) ∧
    (f ≠ .lengthPrefixed → chunks.flatten ≠ [] →
      ¬(f.Unfinished limit chunks ∧ f = .newline ∧ chunks.flatten = [0x0D]) →
      (∃ payload, f.readFrame limit chunks .closed = .payload payload) ∨
        ∃ told, (f.readFrame limit chunks .closed).failure? = some told ∧
          told.kind = .invalidData) := by
  rcases Reader.readFrame_cases f limit chunks .closed with
    ⟨hunfinished, r, hheld, hread⟩ | ⟨hdone, hread⟩
  · -- the end meets a reader in the middle of a frame, and what it holds decides
    rw [hread]
    refine ⟨?_, ?_, ?_⟩
    · refine (Reader.atEnd_closed_eq_nothingSent_iff f limit r).trans ?_
      rw [hheld, kept_eq_nil_iff]
      cases f <;> simp [hunfinished, kept]
    · -- a part of the header or of the body is held
      rintro rfl - hne hlength
      have hkept : r.held ≠ [] := by
        rw [hheld, ne_eq, kept_eq_nil_iff]
        exact not_or.mpr ⟨hne, fun hheader => hlength hheader.2⟩
      simp only [Reader.atEnd, Reader.finish, if_neg hkept]
      rfl
    · intro hf hne hreturn
      -- without a length in front, all that came is held
      have hkept : r.held = chunks.flatten := by
        rw [hheld]
        cases f with
        | lengthPrefixed => exact absurd rfl hf
        | _ => rfl
      have hline : f = .newline → r.held ≠ [0x0D] := fun hline heq =>
        hreturn ⟨hunfinished, hline, by rw [← hkept, heq]⟩
      rcases Reader.atEnd_closed_cases f hf limit r (by rwa [hkept]) hline with
        ⟨payload, hend⟩ | ⟨e, hend, hkind⟩
      · exact .inl ⟨payload, hend⟩
      · exact .inr ⟨e.failure, by rw [hend]; rfl, hkind⟩
  · -- the frame is not unfinished, so the stream brought something and its end does not count
    refine ⟨iff_of_false ?_ ?_, fun _ hunfinished => absurd hunfinished hdone, fun _ _ _ => ?_⟩
    · rcases hread with ⟨payload, hread⟩ | ⟨e, hread, hkind⟩
      · rw [hread]
        intro htold
        cases htold
      · rw [hread]
        intro htold
        rw [Option.some.inj htold] at hkind
        cases hkind
    · rintro (hnil | ⟨hunfinished, -⟩)
      · -- where nothing came the frame is unfinished
        exact hdone (unfinished_of_flatten_eq_nil f limit chunks hnil)
      · exact hdone hunfinished
    · rcases hread with ⟨payload, hread⟩ | ⟨e, hread, hkind⟩
      · exact .inl ⟨payload, hread⟩
      · exact .inr ⟨e.failure, by rw [hread]; rfl, hkind⟩

/-- A length with one byte of its body, cut inside the length; and a line that is cut in two and has
no newline. -/
theorem closing_readFrame_cut_body :
    lengthPrefixed.Unfinished 100 [[0x00, 0x00], [0x00, 0x05, 0x61]] ∧
    (lengthPrefixed.readFrame 100 [[0x00, 0x00], [0x00, 0x05, 0x61]] .closed).failure? =
      some ⟨.unexpectedEnd, "peer closed the connection mid-frame: bytes remaining on stream"⟩ ∧
    ((∃ payload, newline.readFrame 100 [[0x61], [0x0D]] .closed = .payload payload) ∨
      ∃ told, (newline.readFrame 100 [[0x61], [0x0D]] .closed).failure? = some told ∧
        told.kind = .invalidData) := by
  have hunfinished : lengthPrefixed.Unfinished 100 [[0x00, 0x00], [0x00, 0x05, 0x61]] :=
    .inr (by decide)
  exact ⟨hunfinished,
    (closing_readFrame lengthPrefixed 100 [[0x00, 0x00], [0x00, 0x05, 0x61]]).2.1 rfl hunfinished
      (by decide) (by decide),
    (closing_readFrame newline 100 [[0x61], [0x0D]]).2.2 (by decide) (by decide)
      (fun hreturn => absurd hreturn.2.2 (by decide))⟩

/-- A header without its body, and a carriage return without its line, are told as if nothing had
been sent. -/
theorem closing_readFrame_of_header :
    (¬∀ (f : Framing) (limit : Nat) (chunks : List Bytes),
      (f.readFrame limit chunks .closed).failure? =
          some ⟨.unexpectedEnd, "peer closed the connection before sending any data"⟩ ↔
        chunks.flatten = []) ∧
    (¬∀ (limit : Nat) (chunks : List Bytes), lengthPrefixed.Unfinished limit chunks →
      chunks.flatten ≠ [] →
      (lengthPrefixed.readFrame limit chunks .closed).failure? =
        some ⟨.unexpectedEnd, "peer closed the connection mid-frame: bytes remaining on stream"⟩) ∧
    ¬∀ (f : Framing) (limit : Nat) (chunks : List Bytes), f ≠ .lengthPrefixed →
      chunks.flatten ≠ [] → chunks.flatten.length ≤ limit →
      (∃ payload, f.readFrame limit chunks .closed = .payload payload) ∨
        ∃ told, (f.readFrame limit chunks .closed).failure? = some told ∧
          told.kind = .invalidData := by
  -- a header is taken off before its body has come, so nothing is held
  have hheader : lengthPrefixed.readFrame 100 [[0x00, 0x00, 0x00, 0x05]] .closed =
      .failed .nothingSent := by decide +kernel
  -- a lone carriage return is a line without content
  have hreturn : newline.readFrame 100 [[0x0D]] .closed = .failed .nothingSent := by decide +kernel
  refine ⟨fun h => ?_, fun h => ?_, fun h => ?_⟩
  · have hnil := (h lengthPrefixed 100 [[0x00, 0x00, 0x00, 0x05]]).mp (by rw [hheader]; rfl)
    cases hnil
  · have htold := h 100 [[0x00, 0x00, 0x00, 0x05]] (.inr (by decide)) (by decide)
    rw [hheader] at htold
    exact absurd htold (by decide)
  · have hresult := h newline 100 [[0x0D]] (by decide) (by decide) (by decide)
    rw [hreturn] at hresult
    rcases hresult with ⟨payload, hpayload⟩ | ⟨told, htold, hkind⟩
    · cases hpayload
    · rw [← Option.some.inj htold] at hkind
      cases hkind

end Framing

end OneShot
