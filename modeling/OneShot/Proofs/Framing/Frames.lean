import OneShot.Proofs.Framing.Steady
import OneShot.Proofs.Framing.Writing
import OneShot.Proofs.Message.Plain

/-!
# Frames give their payloads

A frame gives back its payload if that is within the limit, and nothing if it is not. The payload is
found no earlier than with the last byte of the frame.

## Key results

- `ofBigEndian_bigEndian`: a length is read back from its four bytes
- `attempt_encode`, `attempt_encode_of_lt`: what an attempt makes of a frame
- `eq_of_attempt_prefix`: no shorter beginning of a frame gives its payload
-/

namespace OneShot.Framing

/-! ### Lengths -/

/-- A length is read back from its four bytes. -/
theorem ofBigEndian_bigEndian (n : Nat) (h : n ≤ greatestLength) :
    ofBigEndian (bigEndian n) = n := by
  have hbyte : ∀ k : Nat, k.toUInt8.toNat = k % 256 := fun _ => rfl
  simp only [greatestLength] at h
  simp only [ofBigEndian, bigEndian, List.foldl_cons, List.foldl_nil, hbyte]
  omega

/-- Whether a framing gives a payload back. -/
def Keeps : Framing → Bytes → Prop
  | .unframed, _ => False
  | .newline, payload => lineEnd ∉ payload ∧ payload.getLast? ≠ some 0x0D
  | .lengthPrefixed, payload => payload ≠ []

/-- Both framings give back plain text. -/
theorem keeps_of_plain (f : Framing) (hf : f ≠ .unframed) (payload : Bytes) (h : Plain payload)
    (hne : payload ≠ []) : f.Keeps payload := by
  cases f with
  | unframed => exact absurd rfl hf
  | newline =>
    refine ⟨fun hmem => ?_, fun hlast => ?_⟩
    · exact absurd (h.le_toNat lineEnd hmem) (by decide)
    · exact absurd (h.le_toNat 0x0D (List.mem_of_getLast? hlast)) (by decide)
  | lengthPrefixed => exact hne

/-- Both framings give back the payload of a message. -/
theorem keeps_encode (f : Framing) (hf : f ≠ .unframed) (m : Message) : f.Keeps m.encode :=
  keeps_of_plain f hf m.encode m.plain_encode (by simp [Message.encode])

/-- The payload of a message within a limit can be framed. -/
theorem exists_encode (f : Framing) (m : Message) (h : m.encode.length ≤ greatestLength) :
    ∃ frame, f.encode m.encode = .ok frame := by
  cases f with
  | unframed => exact ⟨m.encode, rfl⟩
  | newline => exact ⟨_, (encode_newline_eq_ok_iff _ _).mpr ⟨m.plain_encode.exists_decode, rfl⟩⟩
  | lengthPrefixed => exact ⟨_, (encode_lengthPrefixed_eq_ok_iff _ _).mpr ⟨h, rfl⟩⟩

end OneShot.Framing

namespace OneShot.Reader

open Framing (lineEnd bigEndian)

/-! ### What an attempt makes of a frame -/

/-- A line of text that does not end in a carriage return is itself. -/
private theorem line_of_decode (bs : Bytes) (text : List Char) (h : Utf8.decode bs = .ok text)
    (hlast : bs.getLast? ≠ some 0x0D) : line bs = .ok bs := by
  have hlast' : (bs.getLast? == some 0x0D) = false := by
    rw [beq_eq_false_iff_ne]
    exact hlast
  simp only [line, hlast', Bool.false_eq_true, if_false, h]

/-- A header is taken off, and the payload behind it is the body. -/
theorem attempt_bigEndian (limit : Nat) (payload : Bytes)
    (h : payload.length ≤ Framing.greatestLength) :
    attempt .lengthPrefixed limit ⟨bigEndian payload.length ++ payload, none⟩ =
      if limit < payload.length then .failed .announcedTooLarge
      else body payload.length payload := by
  have hheader := Framing.bigEndian_length payload.length
  rw [attempt_header limit _ payload (by omega), List.take_of_length_le (by omega),
    List.drop_of_length_le (by omega), Framing.ofBigEndian_bigEndian _ h, List.nil_append]

/-- A frame gives its payload if that is within the limit. -/
theorem attempt_encode (f : Framing) (limit : Nat) (payload frame : Bytes)
    (hframe : f.encode payload = .ok frame) (hkeeps : f.Keeps payload)
    (hlimit : payload.length ≤ limit) : attempt f limit ⟨frame, none⟩ = .frame payload := by
  cases f with
  | unframed => exact hkeeps.elim
  | newline =>
    obtain ⟨⟨text, htext⟩, rfl⟩ := (Framing.encode_newline_eq_ok_iff payload frame).mp hframe
    -- the newline is the last byte that is looked at
    have htake : (payload ++ [lineEnd]).take (limit + 1) = payload ++ [lineEnd] := by
      apply List.take_of_length_le
      rw [List.length_append, List.length_singleton]
      omega
    have hbefore : beforeNewline (payload ++ [lineEnd]) = some payload :=
      (beforeNewline_eq_some_iff _ payload).mpr ⟨[], rfl, hkeeps.1⟩
    simp only [attempt, htake, hbefore, lineProgress, line_of_decode payload text htext hkeeps.2]
  | lengthPrefixed =>
    obtain ⟨hgreatest, rfl⟩ := (Framing.encode_lengthPrefixed_eq_ok_iff payload frame).mp hframe
    -- a payload that is kept is not empty, so its length is announced and allowed
    have hzero : payload.length ≠ 0 := by
      intro hzero
      exact hkeeps (List.eq_nil_of_length_eq_zero hzero)
    rw [attempt_bigEndian limit payload hgreatest, if_neg (Nat.not_lt.mpr hlimit)]
    simp only [body, Nat.lt_irrefl, hzero, if_false, List.take_length]

/-- A frame whose payload is beyond the limit is refused. -/
theorem attempt_encode_of_lt (f : Framing) (limit : Nat) (payload frame : Bytes)
    (hframe : f.encode payload = .ok frame) (hkeeps : f.Keeps payload)
    (hlimit : limit < payload.length) : ∃ e, attempt f limit ⟨frame, none⟩ = .failed e := by
  cases f with
  | unframed => exact hkeeps.elim
  | newline =>
    obtain ⟨-, rfl⟩ := (Framing.encode_newline_eq_ok_iff payload frame).mp hframe
    -- the newline stands behind all the bytes that are looked at
    have hbefore : beforeNewline ((payload ++ [lineEnd]).take (limit + 1)) = none := by
      rw [beforeNewline_eq_none_iff, List.take_append_of_le_length (by omega)]
      intro hmem
      exact hkeeps.1 (List.mem_of_mem_take hmem)
    have hlong : limit < (payload ++ [lineEnd]).length := by
      rw [List.length_append]
      omega
    refine ⟨.payloadTooLarge limit, ?_⟩
    simp only [attempt, hbefore, hlong, if_true]
  | lengthPrefixed =>
    obtain ⟨hgreatest, rfl⟩ := (Framing.encode_lengthPrefixed_eq_ok_iff payload frame).mp hframe
    -- the header alone says that it is too long
    refine ⟨.announcedTooLarge, ?_⟩
    rw [attempt_bigEndian limit payload hgreatest, if_pos hlimit]

/-- What gives a payload is at least as long as its frame. -/
private theorem length_le_of_attempt (f : Framing) (hf : f ≠ .unframed) (limit : Nat)
    (held payload frame : Bytes) (hframe : f.encode payload = .ok frame)
    (h : attempt f limit ⟨held, none⟩ = .frame payload) : frame.length ≤ held.length := by
  cases f with
  | unframed => exact absurd rfl hf
  | newline =>
    obtain ⟨-, rfl⟩ := (Framing.encode_newline_eq_ok_iff payload frame).mp hframe
    simp only [attempt] at h
    split at h
    · rename_i before hbefore
      simp only [lineProgress] at h
      split at h
      · rename_i hline
        obtain rfl := Progress.frame.inj h
        -- the line and the newline behind it stand in what is held
        obtain ⟨rest, htake, -⟩ := (beforeNewline_eq_some_iff _ before).mp hbefore
        have hlength := congrArg List.length htake
        have hpayload := (prefix_of_line before _ hline).length_le
        simp only [List.length_take, List.length_append, List.length_cons] at hlength
        rw [List.length_append, List.length_singleton]
        omega
      · cases h
    · split at h <;> cases h
  | lengthPrefixed =>
    obtain ⟨-, rfl⟩ := (Framing.encode_lengthPrefixed_eq_ok_iff payload frame).mp hframe
    -- the payload stands behind the four bytes of the header
    have hpayload := (prefix_of_attempt .lengthPrefixed limit _ payload h).length_le
    have howed : headerOwed .lengthPrefixed ⟨held, none⟩ = 4 := rfl
    simp only [attempt] at h
    split at h
    · cases h
    · simp only [howed, List.length_drop] at hpayload
      rw [List.length_append, Framing.bigEndian_length]
      omega

/-- No shorter beginning of a frame gives its payload. -/
theorem eq_of_attempt_prefix (f : Framing) (hf : f ≠ .unframed) (limit : Nat)
    (payload frame part : Bytes) (hframe : f.encode payload = .ok frame) (hpart : part <+: frame)
    (h : attempt f limit ⟨part, none⟩ = .frame payload) : part = frame :=
  hpart.eq_of_length_le (length_le_of_attempt f hf limit part payload frame hframe h)

end OneShot.Reader
