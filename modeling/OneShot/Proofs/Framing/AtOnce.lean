import OneShot.Proofs.Framing.Steady
import OneShot.Proofs.Text.Utf8

/-!
# Streams that are read at once

With newlines and with lengths a reader keeps to a rule on the stream as a whole: its bytes, the
limit and the way it ends decide, and the cuts between its reads do not. `lineReport` and
`lengthReport` are these rules. They know nothing of reads, of bytes that are held back or of a
header that is taken off.

## Key results

- `readFrame_eq_attempt`: a stream comes to one attempt on all its bytes, or to its end
- `readFrame_eq_of_decided`: what is decided before a stream ends is decided for good
- `readFrame_newline_report`: the rule for lines
- `readFrame_lengthPrefixed_report`: the rule for payloads behind their length
-/

namespace OneShot

namespace Reader

/-! ### What is told of a reading -/

/-- What a caller is told: the payload or the kind of the failure, and nothing while the reader
waits. -/
def Outcome.report : Outcome → Option (Except FailureKind Bytes)
  | .payload bs => some (.ok bs)
  | .failed e => some (.error e.failure.kind)
  | .waiting => none

/-- What comes of a line: its bytes without a carriage return at the end, if they are text. -/
def lineText (bs : Bytes) : Except FailureKind Bytes :=
  let content := if bs.getLast? = some 0x0D then bs.dropLast else bs
  if Utf8.IsText content then .ok content else .error .invalidData

/-- A stream as a line: the first newline counts if it is among the first `limit + 1` bytes, and the
end of the stream counts if the whole stream is within the limit. -/
def lineReport (limit : Nat) (ending : Ending) (stream : Bytes) :
    Option (Except FailureKind Bytes) :=
  let position := stream.idxOf Framing.lineEnd
  if position < stream.length ∧ position ≤ limit then some (lineText (stream.take position))
  else if limit < stream.length then some (.error .invalidData)
  else
    match ending with
    | .closed =>
      if stream = [] ∨ stream = [0x0D] then some (.error .unexpectedEnd) else some (lineText stream)
    | .silent => none
    | .failed failure => some (.error failure.kind)

/-- A stream as a payload behind its length, where `closes` says whether the stream ends. -/
def lengthReport (limit : Nat) (closes : Bool) (stream : Bytes) :
    Option (Except FailureKind Bytes) :=
  let length := Framing.ofBigEndian (stream.take 4)
  if 4 ≤ stream.length ∧ (limit < length ∨ length = 0) then some (.error .invalidData)
  else if 4 ≤ stream.length ∧ 4 + length ≤ stream.length then
    some (.ok ((stream.drop 4).take length))
  else if closes then some (.error .unexpectedEnd)
  else none

/-- The end of a stream that does not fail. -/
def Ending.ofCloses (closes : Bool) : Ending := if closes then .closed else .silent

/-! ### One attempt on the whole stream -/

/-- A stream comes to one attempt on all its bytes, and to its end only if that needs more. -/
theorem readFrame_eq_attempt (f : Framing) (hf : f ≠ .unframed) (limit : Nat)
    (chunks : List Bytes) (ending : Ending) :
    f.readFrame limit chunks ending =
      match attempt f limit ⟨chunks.flatten, none⟩ with
      | .more r => atEnd f limit r ending
      | .frame payload => .payload payload
      | .failed e => .failed e := by
  have hstart := settled_start f limit
  have hfeed := feed_eq_attempt f hf limit {} chunks hstart
  have hhold : hold {} chunks.flatten = ⟨chunks.flatten, none⟩ := rfl
  cases hattempt : attempt f limit ⟨chunks.flatten, none⟩ <;>
    rw [Framing.readFrame, readChunks_eq_feed, hfeed, hhold, hattempt]

/-- The cuts between the reads do not count. -/
theorem readFrame_eq_flatten (f : Framing) (hf : f ≠ .unframed) (limit : Nat)
    (chunks : List Bytes) (ending : Ending) :
    f.readFrame limit chunks ending = f.readFrame limit [chunks.flatten] ending := by
  have hone : [chunks.flatten].flatten = chunks.flatten := by simp
  rw [readFrame_eq_attempt f hf, readFrame_eq_attempt f hf, hone]

/-- What is decided before a stream ends is decided for good: nothing that follows counts, and
neither does the end of the stream. -/
theorem readFrame_eq_of_decided (f : Framing) (hf : f ≠ .unframed) (limit : Nat)
    (part rest : Bytes) (chunks : List Bytes) (ending : Ending)
    (hstream : chunks.flatten = part ++ rest)
    (hdecided : f.readFrame limit [part] .silent ≠ .waiting) :
    f.readFrame limit chunks ending = f.readFrame limit [part] .silent := by
  have hone : [part].flatten = part := by simp
  -- what comes behind the first part is held with it
  have hmore := attempt_hold f hf limit ⟨part, none⟩ rest
  have hhold : hold ⟨part, none⟩ rest = ⟨part ++ rest, none⟩ := rfl
  rw [readFrame_eq_attempt f hf, hone] at hdecided
  rw [readFrame_eq_attempt f hf, readFrame_eq_attempt f hf, hstream, hone]
  rw [hhold] at hmore
  rw [hmore]
  -- an attempt that needs more would leave the reader waiting
  cases hattempt : attempt f limit ⟨part, none⟩ with
  | frame payload => rfl
  | failed e => rfl
  | more r =>
    rw [hattempt] at hdecided
    exact absurd rfl hdecided

/-! ### Lines -/

/-- What is told of a line that was found. -/
private theorem report_line (bs : Bytes) :
    (match line bs with
      | .ok payload => Outcome.payload payload
      | .error e => Outcome.failed e).report = some (lineText bs) := by
  simp only [line, lineText, beq_iff_eq]
  generalize (if bs.getLast? = some 0x0D then bs.dropLast else bs) = content
  -- a line is its content, or it is refused because that is no text
  by_cases htext : Utf8.IsText content
  · obtain ⟨text, rfl⟩ := htext
    have hread := Utf8.decode_encode text
    simp only [hread, if_pos (show Utf8.IsText (Utf8.encode text) from ⟨text, rfl⟩)]
    rfl
  · obtain ⟨fault, hfault⟩ := Utf8.exists_fault_of_not_isText content htext
    simp only [hfault, if_neg htext]
    rfl

/-- The first newline is looked for among one byte more than the limit allows. -/
private theorem beforeNewline_take (limit : Nat) (stream : Bytes) :
    beforeNewline (stream.take (limit + 1)) =
      if stream.idxOf Framing.lineEnd < stream.length ∧ stream.idxOf Framing.lineEnd ≤ limit then
        some (stream.take (stream.idxOf Framing.lineEnd))
      else none := by
  by_cases hmem : Framing.lineEnd ∈ stream
  · have hlt : stream.idxOf Framing.lineEnd < stream.length := List.idxOf_lt_length_of_mem hmem
    by_cases hreach : stream.idxOf Framing.lineEnd ≤ limit
    · rw [if_pos ⟨hlt, hreach⟩, beforeNewline_eq_some_iff]
      -- the stream is split at its first newline
      obtain ⟨before, rest, hstream, hbefore⟩ := List.eq_append_cons_of_mem hmem
      have hposition : stream.idxOf Framing.lineEnd = before.length := by
        rw [hstream, List.idxOf_append_of_notMem hbefore, List.idxOf_cons_self, Nat.add_zero]
      have htake : stream.take before.length = before := by rw [hstream, List.take_left]
      rw [hposition] at hreach ⊢
      rw [htake]
      refine ⟨rest.take (limit - before.length), ?_, hbefore⟩
      have hroom : limit + 1 - before.length = limit - before.length + 1 := by omega
      rw [hstream, List.take_append, List.take_of_length_le (by omega), hroom, List.take_succ_cons]
    · -- the first newline is beyond the limit
      rw [if_neg (fun hboth => hreach hboth.2), beforeNewline_eq_none_iff,
        List.mem_take_iff_idxOf_lt hmem]
      omega
  · have hlength := List.idxOf_of_notMem hmem
    rw [if_neg (fun hboth => by omega), beforeNewline_eq_none_iff]
    exact fun hmem' => hmem (List.mem_of_mem_take hmem')

/-- A stream is read as a line by the rule for lines. -/
private theorem report_newline (limit : Nat) (chunks : List Bytes) (ending : Ending) :
    (Framing.newline.readFrame limit chunks ending).report =
      lineReport limit ending chunks.flatten := by
  rw [readFrame_eq_attempt .newline (by decide)]
  generalize chunks.flatten = stream
  simp only [attempt, lineReport, beforeNewline_take]
  -- a newline within the limit decides, then the limit, then the end of the stream
  by_cases hline : stream.idxOf Framing.lineEnd < stream.length ∧
      stream.idxOf Framing.lineEnd ≤ limit
  -- the line is what stands in front of the newline
  · have hreport := report_line (stream.take (stream.idxOf Framing.lineEnd))
    simp only [if_pos hline, lineProgress]
    rw [← hreport]
    cases line (stream.take (stream.idxOf Framing.lineEnd)) <;> rfl
  · simp only [if_neg hline]
    by_cases hlong : limit < stream.length
    · simp only [if_pos hlong]
      rfl
    · -- no newline and not too long, so the end of the stream decides
      simp only [if_neg hlong]
      cases ending with
      | silent => rfl
      | failed failure =>
        -- the reason of a failed read is kept
        have hkept : interrupted .newline failure = .transport failure := by simp [interrupted]
        simp only [atEnd, hkept]
        rfl
      | closed =>
        simp only [atEnd, finish]
        by_cases hnothing : stream = [] ∨ stream = [0x0D]
        · simp only [if_pos hnothing]
          rfl
        · simp only [if_neg hnothing]
          exact report_line stream

/-! ### Lengths -/

/-- A stream is read as a payload behind its length by the rule for lengths. -/
private theorem report_lengthPrefixed (limit : Nat) (chunks : List Bytes) (closes : Bool) :
    (Framing.lengthPrefixed.readFrame limit chunks (.ofCloses closes)).report =
      lengthReport limit closes chunks.flatten := by
  have hend : ∀ r : Reader, (atEnd .lengthPrefixed limit r (.ofCloses closes)).report =
      if closes then some (.error .unexpectedEnd) else none := by
    intro r
    cases closes with
    | false => rfl
    | true =>
      -- a part of a frame and no byte of it fail in different words, but with one kind
      by_cases hheld : r.held = [] <;> simp [Ending.ofCloses, atEnd, finish, hheld] <;> rfl
  rw [readFrame_eq_attempt .lengthPrefixed (by decide)]
  generalize chunks.flatten = stream
  -- the header, then the length it announces, then the body
  by_cases hheader : 4 ≤ stream.length
  · have hattempt := attempt_header limit stream [] hheader
    rw [List.append_nil, List.append_nil] at hattempt
    simp only [hattempt, lengthReport, hheader, true_and]
    -- what the header announces is one number to both
    generalize Framing.ofBigEndian (stream.take 4) = length
    have hdrop : (stream.drop 4).length = stream.length - 4 := List.length_drop
    by_cases hlimit : limit < length
    · simp only [if_pos hlimit, if_pos (show limit < length ∨ length = 0 from .inl hlimit)]
      rfl
    · simp only [if_neg hlimit, body, hdrop]
      by_cases hzero : length = 0
      · have hwhole : ¬stream.length - 4 < length := by omega
        simp only [if_neg hwhole, if_pos hzero, if_pos (show limit < length ∨ length = 0 from
          .inr hzero)]
        rfl
      · have hgood : ¬(limit < length ∨ length = 0) := by omega
        by_cases hshort : stream.length - 4 < length
        -- a part of the body
        · have hpart : ¬4 + length ≤ stream.length := by omega
          simp only [if_pos hshort, if_neg hgood, if_neg hpart]
          exact hend _
        -- the whole body
        · have hwhole : 4 + length ≤ stream.length := by omega
          simp only [if_neg hshort, if_neg hzero, if_neg hgood, if_pos hwhole]
          rfl
  · -- without a whole header only the end of the stream counts
    have hattempt : attempt .lengthPrefixed limit ⟨stream, none⟩ = .more ⟨stream, none⟩ := by
      simp only [attempt, if_pos (Nat.not_le.mp hheader)]
    simp only [hattempt, lengthReport, hheader, false_and, if_false]
    exact hend _

end Reader

namespace Framing

open Reader (Ending lineReport lengthReport)

/-- Reading a line keeps to the rule for lines, whatever the cuts between the reads. Nothing behind
a newline within reach is looked at, nor is the end of the stream. -/
theorem readFrame_newline_report (limit : Nat) (chunks : List Bytes) (ending : Ending) :
    (newline.readFrame limit chunks ending).report = lineReport limit ending chunks.flatten ∧
    newline.readFrame limit chunks ending = newline.readFrame limit [chunks.flatten] ending ∧
    ∀ line rest, chunks.flatten = line ++ lineEnd :: rest → lineEnd ∉ line →
      line.length ≤ limit →
      newline.readFrame limit chunks ending =
        newline.readFrame limit [line ++ [lineEnd]] .silent := by
  have hnewline : newline ≠ unframed := by decide
  refine ⟨Reader.report_newline limit chunks ending,
    Reader.readFrame_eq_flatten newline hnewline limit chunks ending, ?_⟩
  intro line rest hstream hline hlimit
  have hsplit : chunks.flatten = (line ++ [lineEnd]) ++ rest := by
    rw [hstream, List.append_assoc, List.singleton_append]
  refine Reader.readFrame_eq_of_decided newline hnewline limit _ rest chunks ending hsplit ?_
  -- the newline is within reach, so something is told of its line at once
  intro hwaiting
  have hreport := Reader.report_newline limit [line ++ [lineEnd]] .silent
  -- the rule looks at the first newline, which is the one at the end
  have hposition : (line ++ [lineEnd]).idxOf lineEnd = line.length := by
    rw [List.idxOf_append_of_notMem hline, List.idxOf_cons_self, Nat.add_zero]
  have hreach : line.length < (line ++ [lineEnd]).length := by simp
  have hflatten : [line ++ [lineEnd]].flatten = line ++ [lineEnd] := by simp
  rw [hwaiting, hflatten] at hreport
  simp only [lineReport, hposition, if_pos (And.intro hreach hlimit)] at hreport
  cases hreport

/-- A newline that is cut off from its carriage return, with more bytes and a failure behind it. -/
theorem readFrame_newline_report_cut_return :
    [[0x61, 0x0D], [0x0A, 0x62, 0xFF]].flatten = ([0x61, 0x0D] : Bytes) ++ lineEnd :: [0x62, 0xFF] ∧
    lineEnd ∉ ([0x61, 0x0D] : Bytes) ∧ ([0x61, 0x0D] : Bytes).length ≤ 2 ∧
    (newline.readFrame 2 [[0x61, 0x0D], [0x0A, 0x62, 0xFF]]
      (.failed ⟨.connectionReset, "reset"⟩)).report = some (.ok [0x61]) ∧
    newline.readFrame 2 [[0x61, 0x0D], [0x0A, 0x62, 0xFF]] (.failed ⟨.connectionReset, "reset"⟩) =
      newline.readFrame 2 [[0x61, 0x0D, 0x0A]] .silent := by
  obtain ⟨hreport, -, hline⟩ := readFrame_newline_report 2 [[0x61, 0x0D], [0x0A, 0x62, 0xFF]]
    (.failed ⟨.connectionReset, "reset"⟩)
  exact ⟨rfl, by decide, by decide, hreport.trans (by decide +kernel),
    hline [0x61, 0x0D] [0x62, 0xFF] rfl (by decide) (by decide)⟩

/-- Reading a payload behind its length keeps to the rule for lengths, whatever the cuts between
the reads. As soon as the header is refused or the body is there, nothing that follows is looked at,
nor does the stream have to end. -/
theorem readFrame_lengthPrefixed_report (limit : Nat) (chunks : List Bytes) (closes : Bool) :
    (lengthPrefixed.readFrame limit chunks (.ofCloses closes)).report =
      lengthReport limit closes chunks.flatten ∧
    lengthPrefixed.readFrame limit chunks (.ofCloses closes) =
      lengthPrefixed.readFrame limit [chunks.flatten] (.ofCloses closes) ∧
    ∀ part rest, chunks.flatten = part ++ rest → 4 ≤ part.length →
      (limit < ofBigEndian (part.take 4) ∨ ofBigEndian (part.take 4) = 0 ∨
        4 + ofBigEndian (part.take 4) ≤ part.length) →
      lengthPrefixed.readFrame limit chunks (.ofCloses closes) =
        lengthPrefixed.readFrame limit [part] .silent := by
  have hlength : lengthPrefixed ≠ unframed := by decide
  refine ⟨Reader.report_lengthPrefixed limit chunks closes,
    Reader.readFrame_eq_flatten lengthPrefixed hlength limit chunks _, ?_⟩
  intro part rest hstream hheader hdecides
  refine Reader.readFrame_eq_of_decided lengthPrefixed hlength limit part rest chunks _ hstream ?_
  -- on the part alone the rule tells something already
  intro hwaiting
  have hreport := Reader.report_lengthPrefixed limit [part] false
  have hflatten : [part].flatten = part := by simp
  have hsilent : Ending.ofCloses false = .silent := rfl
  rw [hsilent, hwaiting, hflatten] at hreport
  simp only [lengthReport, hheader, true_and] at hreport
  -- the announced length is refused, or the body is there
  split at hreport
  · cases hreport
  · rename_i hgood
    have hwhole : 4 + ofBigEndian (part.take 4) ≤ part.length := by omega
    rw [if_pos hwhole] at hreport
    cases hreport

/-- A length that is cut in two, with the body and a byte too many behind it. -/
theorem readFrame_lengthPrefixed_report_cut_header :
    [[0x00, 0x00], [0x00, 0x02, 0x61], [0x62, 0xFF]].flatten =
      ([0x00, 0x00, 0x00, 0x02, 0x61, 0x62] : Bytes) ++ [0xFF] ∧
    (lengthPrefixed.readFrame 2 [[0x00, 0x00], [0x00, 0x02, 0x61], [0x62, 0xFF]]
      (.ofCloses true)).report = some (.ok [0x61, 0x62]) ∧
    lengthPrefixed.readFrame 2 [[0x00, 0x00], [0x00, 0x02, 0x61], [0x62, 0xFF]] (.ofCloses true) =
      lengthPrefixed.readFrame 2 [[0x00, 0x00, 0x00, 0x02, 0x61, 0x62]] .silent := by
  obtain ⟨hreport, -, hpart⟩ := readFrame_lengthPrefixed_report 2
    [[0x00, 0x00], [0x00, 0x02, 0x61], [0x62, 0xFF]] true
  exact ⟨rfl, hreport.trans (by decide), hpart [0x00, 0x00, 0x00, 0x02, 0x61, 0x62] [0xFF] rfl
    (by decide) (by decide)⟩

end Framing

end OneShot
