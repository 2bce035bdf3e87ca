import OneShot.Proofs.Framing.Writing
import OneShot.Proofs.Message.Plain
import OneShot.Proofs.Message.RoundTrip
import OneShot.Proofs.Message.Summary
import OneShot.Rehearsal.Program

/-!
# What a call prints

A call prints one line for its reply, and nothing without one. The line is the payload of the reply,
or a sentence for people. Either is one line whatever the text of the reply says, and the reply can
be told from it: the payload is read back, and the sentence quotes the text so that its end can be
seen.

## Key results

- `output_eq_replyLine_iff`: a call prints the line of a message exactly if that is its reply
- `Message.oneLine_encode`: payloads are lines, and so is the output of calls that ask for them
- `Message.unambiguous_summary`: summaries are lines that tell messages apart, and so is the output
  of all other calls
-/

namespace OneShot

open Framing (lineEnd)

/-- One line with its end. -/
def IsLine (bs : Bytes) : Prop := ∃ content, lineEnd ∉ content ∧ bs = content ++ [lineEnd]

theorem IsLine.ne_nil {bs : Bytes} (h : IsLine bs) : bs ≠ [] := by
  obtain ⟨content, -, rfl⟩ := h
  exact List.append_ne_nil_of_right_ne_nil content (List.cons_ne_nil _ _)

/-- A line end is a control character. -/
theorem Plain.lineEnd_notMem {bs : Bytes} (h : Plain bs) : lineEnd ∉ bs := by
  intro hmem
  have hplain := h.le_toNat lineEnd hmem
  exact absurd hplain (by decide)

/-- A text without control characters becomes a line by its end. -/
theorem Plain.isLine {bs : Bytes} (h : Plain bs) : IsLine (bs ++ [lineEnd]) :=
  ⟨bs, h.lineEnd_notMem, rfl⟩

namespace Cli

/-- The sentence for people, and its end. -/
theorem replyLine_false (m : Message) : replyLine false m =
    Utf8.encodeString ("Received response: " ++ m.summary) ++ [lineEnd] := by
  have hend : Utf8.encode "\n".toList = [lineEnd] := by decide
  rw [replyLine, if_neg Bool.false_ne_true, Utf8.encodeString, String.toList_append,
    Utf8.encode_append, hend, Utf8.encodeString]

/-- The sentence for people has no control characters. -/
private theorem plain_sentence (m : Message) :
    Plain (Utf8.encodeString ("Received response: " ++ m.summary)) := by
  refine ⟨_, rfl, fun c hc => ?_⟩
  rw [String.toList_append, List.mem_append] at hc
  cases hc with
  | inl hstart =>
    -- the words in front are plain
    have hchars : ∀ c ∈ "Received response: ".toList, 0x20 ≤ c.toNat := by simp
    exact hchars c hstart
  | inr hsummary =>
    have hcontrol := m.not_isControl_of_mem_summary c hsummary
    unfold Text.IsControl at hcontrol
    omega

/-- What is printed for a reply is one line. -/
theorem isLine_replyLine (json : Bool) (m : Message) : IsLine (replyLine json m) := by
  cases json with
  | true => exact m.plain_encode.isLine
  | false =>
    rw [replyLine_false]
    exact (plain_sentence m).isLine

/-- Different messages are printed differently. -/
theorem replyLine_injective (json : Bool) : Function.Injective (replyLine json) := by
  intro a b h
  cases json with
  | true =>
    -- the payload is read back
    have hread := congrArg Message.decode (List.append_cancel_right h)
    rw [Message.decode_encode, Message.decode_encode] at hread
    exact Except.ok.inj hread
  | false =>
    -- the sentence ends with the summary
    rw [replyLine_false, replyLine_false] at h
    have htext := congrArg Utf8.decodeString (List.append_cancel_right h)
    rw [Utf8.decodeString_encodeString, Utf8.decodeString_encodeString] at htext
    have hchars := congrArg String.toList (Except.ok.inj htext)
    rw [String.toList_append, String.toList_append] at hchars
    apply Message.summary_injective
    exact String.toList_inj.mp (List.append_cancel_left hchars)

/-- The plan of a call command is a call with the request and the output that it asks for. -/
theorem exists_call_of_plan {i : Invocation} {socket : Option Bytes} {framing : Option String}
    {request : Message} {json : Bool} (hcall : i.command = .call socket framing request json)
    {found : Bool} {config : Config} {plan : Plan} (h : i.plan found config = .ok plan) :
    ∃ client, plan = .call client request json := by
  simp only [Invocation.plan, hcall] at h
  split at h
  · rename_i c _
    unfold planCall at h
    split at h
    · exact ⟨_, (Except.ok.inj h).symm⟩
    · cases h
  · cases h

end Cli

/-! ### Calls -/

namespace ProgramScene

/-- What the call of an invocation comes to: the configuration is loaded, the command line is put
above it, and the client that comes of it calls. Nothing if it comes to no call. -/
def outcome? (s : ProgramScene) (i : Cli.Invocation) : Option (Outcome Message) :=
  match Cli.loadConfig i.configPath (s.files.isAvailable i.configPath)
      (s.files.content i.configPath) with
  | .error _ => none
  | .ok config =>
    match i.plan (s.files.isAvailable i.configPath) config with
    | .ok (.call client request _) =>
      some (client.call (s.surroundings client.path) request).outcome
    | _ => none

/-- The call of an invocation ends with a reply. -/
def Receives (s : ProgramScene) (i : Cli.Invocation) (reply : Message) : Prop :=
  s.outcome? i = some (.ok reply)

/-- A peer that answers at once. -/
example : Receives { peer := some (Message.encode ⟨"é\n", 7⟩) }
    ⟨Cli.standardConfigPath, 0, .call (some peerPath) none ⟨"a", 1⟩ true⟩ ⟨"é\n", 7⟩ := by
  unfold Receives
  decide +kernel

end ProgramScene

section Calls

variable (s : ProgramScene) (i : Cli.Invocation) (socket : Option Bytes) (framing : Option String)
  (request : Message) (json : Bool)

/-- A call prints the line of its reply, and nothing without one. -/
theorem output_rehearseInvocation (hcall : i.command = .call socket framing request json) :
    (rehearseInvocation s i).output =
      match s.outcome? i with
      | some (.ok reply) => Cli.replyLine json reply
      | _ => [] := by
  unfold ProgramScene.outcome?
  cases hload : Cli.loadConfig i.configPath (s.files.isAvailable i.configPath)
      (s.files.content i.configPath) with
  | error e =>
    -- the configuration is not loaded
    rw [rehearseInvocation_of_error s i e hload]
    rfl
  | ok config =>
    rw [rehearseInvocation_of_ok s i config hload]
    cases hplan : i.plan (s.files.isAvailable i.configPath) config with
    | error e =>
      -- the command is refused
      obtain ⟨log, hrun⟩ := rehearseUnder_of_error s i _ config e hplan
      rw [hrun]
      simp only [hplan]
      rfl
    | ok plan =>
      obtain ⟨client, rfl⟩ := Cli.exists_call_of_plan hcall hplan
      obtain ⟨log, hrun⟩ := rehearseUnder_of_ok s i _ config _ hplan
      rw [hrun]
      simp only [hplan, rehearsePlan, rehearseCallPlan]
      -- the run is that of the call
      cases (client.call (s.surroundings client.path) request).outcome with
      | ok reply => rfl
      | error e => rfl
      | waiting => rfl

/-- A call prints the line of a message exactly if that is its reply. -/
theorem output_eq_replyLine_iff (hcall : i.command = .call socket framing request json)
    (m : Message) :
    (rehearseInvocation s i).output = Cli.replyLine json m ↔ s.Receives i m := by
  have hne := (Cli.isLine_replyLine json m).ne_nil
  rw [output_rehearseInvocation s i socket framing request json hcall, ProgramScene.Receives]
  split
  · rename_i reply houtcome
    -- the line tells which reply was received
    rw [houtcome, (Cli.replyLine_injective json).eq_iff, Option.some_inj, Outcome.ok.injEq]
  · -- without a reply nothing is printed, and a line is not empty
    rename_i hnone
    constructor
    · intro h
      exact absurd h.symm hne
    · intro h
      exact absurd h (hnone m)

end Calls

namespace Message

/-- A payload begins with the name of its text, and ends with the brace that closes it. -/
private theorem exists_encode_eq (m : Message) : ∃ members,
    m.encode = Utf8.encodeString "\x7b\"text\":\"" ++ members ++ Utf8.encodeString "\x7d" := by
  have hopening : Utf8.encodeString "\x7b\"text\":\"" = opening := by decide
  have hclosing : Utf8.encodeString "\x7d" = [Json.closeBrace] := by decide
  refine ⟨Json.StringBody.encode m.text.toList ++ middle ++ Json.Numeral.encode m.id.toInt, ?_⟩
  rw [hopening, hclosing, encode]
  simp only [List.append_assoc]

/-- A payload is text without control characters, from the name of its text to the closing brace. So
its frame as a line has no line end but its own, and a call that asks for payloads prints exactly
this line if that is its reply; the reply is read back from it. -/
theorem oneLine_encode (m : Message) :
    (∃ text, Utf8.decode m.encode = .ok text) ∧
    (∀ b ∈ m.encode, 0x20 ≤ b.toNat) ∧
    (∃ members,
      m.encode = Utf8.encodeString "\x7b\"text\":\"" ++ members ++ Utf8.encodeString "\x7d") ∧
    lineEnd ∉ m.encode ∧
    Framing.newline.encode m.encode = .ok (m.encode ++ [lineEnd]) ∧
    decode m.encode = .ok m ∧
    ∀ (s : ProgramScene) (i : Cli.Invocation) (socket : Option Bytes) (framing : Option String)
      (request : Message), i.command = .call socket framing request true →
      (s.Receives i m ↔ (rehearseInvocation s i).output = m.encode ++ [lineEnd]) := by
  -- no byte of it is a control character, which covers the newline
  have hplain := m.plain_encode
  have hcontrol := hplain.lineEnd_notMem
  have hframe := (Framing.encode_newline_eq_ok_iff m.encode (m.encode ++ [lineEnd])).mpr
    ⟨hplain.exists_decode, rfl⟩
  refine ⟨hplain.exists_decode, hplain.le_toNat, m.exists_encode_eq, hcontrol, hframe,
    m.decode_encode, ?_⟩
  intro s i socket framing request hcall
  exact (output_eq_replyLine_iff s i socket framing request true hcall m).symm

/-- A summary has no control characters, and no two messages have the same. So a call that does not
ask for payloads prints one line for its reply, and every call that prints the same line has received
the same reply. -/
theorem unambiguous_summary (a b : Message) :
    (a.summary = b.summary → a = b) ∧
    (∀ c ∈ a.summary.toList, ¬Text.IsControl c) ∧
    ∀ (s : ProgramScene) (i : Cli.Invocation) (socket : Option Bytes) (framing : Option String)
      (request : Message), i.command = .call socket framing request false → s.Receives i a →
      (rehearseInvocation s i).output =
        Utf8.encodeString ("Received response: " ++ a.summary) ++ [lineEnd] ∧
      IsLine (rehearseInvocation s i).output ∧
      ∀ (s' : ProgramScene) (i' : Cli.Invocation) (socket' : Option Bytes)
        (framing' : Option String) (request' : Message),
        i'.command = .call socket' framing' request' false →
        ((rehearseInvocation s' i').output = (rehearseInvocation s i).output ↔
          s'.Receives i' a) := by
  refine ⟨fun h => summary_injective h, a.not_isControl_of_mem_summary, ?_⟩
  intro s i socket framing request hcall hreply
  have houtput := (output_eq_replyLine_iff s i socket framing request false hcall a).mpr hreply
  rw [houtput]
  refine ⟨Cli.replyLine_false a, Cli.isLine_replyLine false a, ?_⟩
  intro s' i' socket' framing' request' hcall'
  exact output_eq_replyLine_iff s' i' socket' framing' request' false hcall' a

/-- A peer answers with a text that ends a line and looks like a summary itself. -/
theorem unambiguous_summary_imitated :
    let reply : Message := ⟨"a\", id: 1\x7d\n", 2⟩
    let s : ProgramScene := { peer := some reply.encode }
    let i : Cli.Invocation :=
      ⟨Cli.standardConfigPath, 0, .call (some ProgramScene.peerPath) none ⟨"x", 5⟩ false⟩
    s.Receives i reply ∧
      (rehearseInvocation s i).output =
        Utf8.encodeString ("Received response: " ++ reply.summary) ++ [lineEnd] ∧
      IsLine (rehearseInvocation s i).output := by
  intro reply s i
  have hreply : s.Receives i reply := by
    unfold ProgramScene.Receives
    decide +kernel
  -- the text closes its quotes and its line as a summary does, and still it is one line
  obtain ⟨-, -, hcalls⟩ := unambiguous_summary reply reply
  obtain ⟨houtput, hline, -⟩ := hcalls s i _ _ _ rfl hreply
  exact ⟨hreply, houtput, hline⟩

end Message

end OneShot
