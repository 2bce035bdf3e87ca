import OneShot.Proofs.Exchange.Transfer
import OneShot.Proofs.Exchange.Waiting
import OneShot.Proofs.Message.RoundTrip
import OneShot.Proofs.Server.Handling

/-!
# A call that meets a handler

A client and the reference server agree: a call brings back the reply to its request exactly if both
payloads are within the limits of their readers, however the two streams are cut into reads. If one
is not, the call fails while it writes the request or reads the reply.

A meeting is told from both sides. Each side is given what it saw: the offers its stream took, the
reads, and in the end the end of the stream. What was seen has to agree with what the other side did;
this is what `Undisturbed` says. As neither side ends its stream before it is done, the handler sees
nothing but bytes while a call awaits the reply.

## Key results

- `call_agrees`: a call returns the reply exactly if both payloads are within the limits
-/

namespace OneShot

/-- A call of a client and the handler of a server that it meets. -/
structure Meeting where
  client : Client
  server : ServerOptions
  request : Message
  /-- How connecting went. -/
  attempt : List (Nat × Signal (Except Failure Unit))
  /-- How the stream took the request. -/
  requestWriter : Writer
  /-- The reads of the handler. -/
  requestReads : List Bytes
  /-- How the stream took the reply. -/
  replyWriter : Writer
  /-- The reads of the client, each at its instant. -/
  replyReads : List (Nat × Bytes)
  /-- The end of the reply as the client would see it. -/
  ending : Reader.Ending
  endInstant : Nat

namespace Meeting

/-- What the call meets. -/
def surroundings (m : Meeting) : Surroundings where
  attempt := m.attempt
  writer := m.requestWriter
  course := Course.ofReads m.replyReads ++ Course.ofEnding m.endInstant m.ending

/-- The call. -/
def call (m : Meeting) : Performed Message := m.client.call m.surroundings m.request

/-- What the write of the request comes to. -/
def sent (m : Meeting) : Writer.Written :=
  m.client.options.framing.writeFrame m.requestWriter m.request.encode

/-- What the handler does over the bytes that it reads, without an end of the stream. -/
def handling (m : Meeting) : Handling :=
  Handler.run m.server m.replyWriter { since := 0 } (m.requestReads.map .bytes)

/-- The reply that is due. -/
def reply (m : Meeting) : Message := ⟨m.server.replyPrefix ++ m.request.text, m.request.id⟩

/-- Nothing is lost between the two, no deadline passes and nobody cancels. -/
structure Undisturbed (m : Meeting) : Prop where
  connects : (guarded m.client.options.connectTimeout m.attempt).1 = .finished (.ok ())
  /-- The reads come in time. -/
  onTime : ∀ read ∈ m.replyReads, isLate m.client.options.readTimeout read.1 = false
  endsOnTime : isLate m.client.options.readTimeout m.endInstant = false
  /-- The handler reads what the call has sent. -/
  requests : Transfer m.server.framing m.server.maxRequestBytes m.requestWriter m.sent.taken
    m.requestReads
  /-- The call reads what the handler has sent. -/
  replies : Transfer m.client.options.framing m.client.options.maxReplyBytes m.replyWriter
    m.handling.written (m.replyReads.map (·.2))
  /-- A handler that is done ends the stream, and the call sees that unless it needs no more. -/
  ends : m.handling.IsDone → Reader.Finished m.client.options.framing
    m.client.options.maxReplyBytes (m.replyReads.map (·.2)) ∨ m.ending ≠ .silent

/-- A meeting over streams that take some of every offer, bring everything and then end. -/
def ofCuts (client : Client) (server : ServerOptions) (request : Message) (w : Writer)
    (requestReads replyReads : List Bytes) : Meeting where
  client
  server
  request
  attempt := [(0, .done (.ok ()))]
  requestWriter := w
  requestReads
  replyWriter := w
  replyReads := replyReads.map (0, ·)
  ending := .closed
  endInstant := 0

/-- Every cut of the two streams into reads belongs to an undisturbed meeting. -/
theorem undisturbed_ofCuts (client : Client) (server : ServerOptions) (request : Message)
    (w : Writer) (requestReads replyReads : List Bytes)
    (htakes : ∀ turn, ∃ count, 0 < count ∧ w.answer turn = .takes count)
    (hflush : w.flush = .ok ())
    (hrequest : requestReads.flatten =
      (ofCuts client server request w requestReads replyReads).sent.taken)
    (hreply : replyReads.flatten =
      (ofCuts client server request w requestReads replyReads).handling.written) :
    (ofCuts client server request w requestReads replyReads).Undisturbed := by
  -- everything happens at the first instant, and no limit is over then
  have hnow : ∀ deadline, isLate deadline 0 = false := by
    intro deadline
    cases deadline with
    | none => rfl
    | some limit => exact decide_eq_false (Nat.not_lt_zero limit)
  have hreads : (replyReads.map ((0 : Nat), ·)).map (·.2) = replyReads := by
    rw [List.map_map]
    exact List.map_id replyReads
  refine ⟨?_, ?_, hnow _, ?_, ?_, fun _ => .inr (by simp [ofCuts])⟩
  · simp only [ofCuts, guarded_cons _ _ _ _ (hnow _)]
  · intro read hread
    obtain ⟨bs, -, rfl⟩ := List.mem_map.mp hread
    exact hnow _
  · exact ⟨hrequest ▸ List.prefix_refl _, .inr hrequest, .inr htakes, hflush⟩
  -- the reply is read in these pieces and in no others
  · have hall : ((ofCuts client server request w requestReads replyReads).replyReads.map
        (·.2)).flatten = (ofCuts client server request w requestReads replyReads).handling.written := by
      rw [← hreply]
      exact congrArg List.flatten hreads
    exact ⟨hall ▸ List.prefix_refl _, .inr hall, .inr htakes, hflush⟩

/-! ### The handler -/

/-- The payload of a request is answered with the reply. -/
private theorem answer_encode (o : ServerOptions) (w : Writer) (request : Message)
    (unread : Bytes) :
    let sent := o.framing.writeFrame w (request.reply o.replyPrefix).encode
    (o.answer w request.encode unread).written = sent.taken ∧
      (sent.result = .ok () →
        (o.answer w request.encode unread).result = .ok (request.reply o.replyPrefix)) := by
  simp only [ServerOptions.answer, ServerOptions.prepare, Framing.writeFrame,
    Message.decode_encode]
  -- a reply without a frame is not written; with one, the writer decides
  cases o.framing.encode (request.reply o.replyPrefix).encode with
  | error e => exact ⟨rfl, by simp⟩
  | ok frame =>
    cases hresult : (w.write frame).result with
    | ok _ => simp [hresult, Sending.close]
    | error failure => simp [hresult, Sending.close]

/-- A handler that has read the request answers it. -/
private theorem handling_of_frame (m : Meeting) (h : Reader.feed m.server.framing
      m.server.maxRequestBytes {} m.requestReads = .frame m.request.encode) :
    ∃ closing, m.handling = .done closing ∧
      closing.written = (m.server.framing.writeFrame m.replyWriter m.reply.encode).taken ∧
      ((m.server.framing.writeFrame m.replyWriter m.reply.encode).result = .ok () →
        closing.result = .ok m.reply) := by
  have hrun := Handler.run_bytes m.server m.replyWriter { since := 0 } m.requestReads
  simp only [h] at hrun
  obtain ⟨unread, hrun⟩ := hrun
  exact ⟨_, hrun, answer_encode m.server m.replyWriter m.request unread⟩

/-- A handler that could not read the request drops it without a reply. -/
private theorem handling_of_failed (m : Meeting) (e : ReadError) (h : Reader.feed m.server.framing
      m.server.maxRequestBytes {} m.requestReads = .failed e) :
    m.handling.IsDone ∧ m.handling.written = [] := by
  have hrun := Handler.run_bytes m.server m.replyWriter { since := 0 } m.requestReads
  simp only [h] at hrun
  obtain ⟨unread, hrun⟩ := hrun
  rw [handling, hrun]
  exact ⟨trivial, rfl⟩

/-! ### The call -/

/-- Over the bytes of the reply the call waits as its reader does. -/
private theorem awaited_eq (m : Meeting) (h : m.Undisturbed) :
    m.client.awaited m.surroundings.course =
      match Reader.feed m.client.options.framing m.client.options.maxReplyBytes {}
        (m.replyReads.map (·.2)) with
      | .more r => (guarded m.client.options.readTimeout (Reader.signals m.client.options.framing
          m.client.options.maxReplyBytes r (Course.ofEnding m.endInstant m.ending))).1
      | .frame payload => .finished (.ok payload)
      | .failed e => .finished (.error e) :=
  Reader.guarded_signals _ _ _ {} m.replyReads _ h.onTime

/-- The call is the exchange of a connection that was opened. -/
private theorem call_eq (m : Meeting) (h : m.Undisturbed) :
    m.call = Client.exchange m.client.connected m.surroundings m.request :=
  Client.call_of_connected m.client m.surroundings m.request h.connects

/-- A call that is brought nothing but the end of the stream cannot read a reply. -/
private theorem awaited_of_nothing (m : Meeting) (h : m.Undisturbed)
    (hfeed : Reader.feed m.client.options.framing m.client.options.maxReplyBytes {}
      (m.replyReads.map (·.2)) = .more {}) (hdone : m.handling.IsDone) :
    ∃ e, m.client.awaited m.surroundings.course = .finished (.error e) := by
  -- the call has found nothing, so it sees the end of the stream
  have hunfinished : ¬Reader.Finished m.client.options.framing m.client.options.maxReplyBytes
      (m.replyReads.map (·.2)) := fun hfinished => hfinished {} hfeed
  have hending := (h.ends hdone).resolve_left hunfinished
  have hnothing : Reader.finish m.client.options.framing m.client.options.maxReplyBytes {} =
      .error .nothingSent := by
    cases m.client.options.framing <;> rfl
  rw [awaited_eq m h, hfeed]
  -- the server has closed the stream, or it failed on the way
  cases hend : m.ending with
  | silent => exact absurd hend hending
  | closed =>
    refine ⟨.nothingSent, ?_⟩
    simp only [Course.ofEnding, Reader.signals, Reader.onArrival, hnothing,
      guarded_cons _ _ _ _ h.endsOnTime]
  | failed failure =>
    refine ⟨Reader.interrupted m.client.options.framing failure, ?_⟩
    simp only [Course.ofEnding, Reader.signals, Reader.onArrival,
      guarded_cons _ _ _ _ h.endsOnTime]

/-- A call whose request is beyond the limit of the server fails. -/
private theorem error_of_request (m : Meeting) (h : m.Undisturbed)
    (hframing : m.server.framing = m.client.options.framing)
    (hunframed : m.client.options.framing ≠ .unframed)
    (hlong : m.server.maxRequestBytes < m.request.encode.length) :
    ∃ failure, m.call.outcome = .error (.write failure) ∨
      m.call.outcome = .error (.read failure) := by
  rw [call_eq m h]
  -- the write fails, or the server refuses the request and the reply stays empty
  cases hsent : m.sent.result with
  | error failure =>
    exact ⟨failure, .inl (Client.exchange_of_unwritten m.client m.surroundings m.request failure
      hsent)⟩
  | ok _ =>
    cases hframe : m.client.options.framing.encode m.request.encode with
    | error e =>
      rw [sent, Framing.writeFrame, hframe] at hsent
      cases hsent
    | ok frame =>
      have hrequests := h.requests
      rw [hframing] at hrequests
      -- the request is beyond the limit, so its frame is refused wherever it was cut
      obtain ⟨e, hfeed⟩ := hrequests.feed_failed hunframed hframe
        (Framing.keeps_encode _ hunframed m.request) hlong
      rw [← hframing] at hfeed
      obtain ⟨hdone, hwritten⟩ := handling_of_failed m e hfeed
      -- the server has written nothing, so the call reads nothing
      have hnothing := h.replies.reads_prefix
      rw [hwritten, List.prefix_nil] at hnothing
      obtain ⟨e', hawaited⟩ := awaited_of_nothing m h
        (feed_of_flatten_eq_nil _ hunframed _ _ hnothing) hdone
      exact ⟨e'.failure, .inr (Client.exchange_of_readError m.client m.surroundings m.request e'
        hsent hawaited)⟩

/-- A request within the limit of the server is sent, read and answered. -/
private theorem answered (m : Meeting) (h : m.Undisturbed)
    (hframing : m.server.framing = m.client.options.framing)
    (hunframed : m.client.options.framing ≠ .unframed)
    (hgreatest : m.server.maxRequestBytes ≤ Framing.greatestLength)
    (hshort : m.request.encode.length ≤ m.server.maxRequestBytes) :
    m.sent.result = .ok () ∧ ∃ closing, m.handling = .done closing ∧
      closing.written = (m.client.options.framing.writeFrame m.replyWriter m.reply.encode).taken ∧
      ((m.client.options.framing.writeFrame m.replyWriter m.reply.encode).result = .ok () →
        closing.result = .ok m.reply) := by
  -- within the limit the request has a frame, and the handler finds it in the reads
  obtain ⟨frame, hframe⟩ := Framing.exists_encode m.client.options.framing m.request
    (Nat.le_trans hshort hgreatest)
  -- the frame is what the client wrote and the handler reads
  have hrequests := h.requests
  rw [hframing] at hrequests
  obtain ⟨hfeed, hsent⟩ := hrequests.feed_eq hunframed hframe
    (Framing.keeps_encode _ hunframed m.request) hshort
  rw [← hframing] at hfeed
  obtain ⟨closing, hhandling, hwritten, hresult⟩ := handling_of_frame m hfeed
  rw [hframing] at hwritten hresult
  exact ⟨hsent, closing, hhandling, hwritten, hresult⟩

/-- A call whose reply is beyond its limit fails. -/
private theorem error_of_reply (m : Meeting) (h : m.Undisturbed)
    (hframing : m.server.framing = m.client.options.framing)
    (hunframed : m.client.options.framing ≠ .unframed)
    (hgreatest : m.server.maxRequestBytes ≤ Framing.greatestLength)
    (hshort : m.request.encode.length ≤ m.server.maxRequestBytes)
    (hlong : m.client.options.maxReplyBytes < m.reply.encode.length) :
    ∃ failure, m.call.outcome = .error (.read failure) := by
  obtain ⟨hsent, closing, hhandling, hwritten, -⟩ :=
    answered m h hframing hunframed hgreatest hshort
  have hreplies := h.replies
  rw [hhandling, Handling.written, hwritten] at hreplies
  -- a reply that is too long for its framing is not sent at all
  have hawaited : ∃ e, m.client.awaited m.surroundings.course = .finished (.error e) := by
    cases hframe : m.client.options.framing.encode m.reply.encode with
    | error e =>
      have hfeed := hreplies.feed_of_error hunframed hframe
      exact awaited_of_nothing m h hfeed (by rw [hhandling]; trivial)
    | ok frame =>
      -- the reply is beyond the limit, so its frame is refused wherever it was cut
      obtain ⟨e, hfeed⟩ := hreplies.feed_failed hunframed hframe
        (Framing.keeps_encode _ hunframed m.reply) hlong
      exact ⟨e, by rw [awaited_eq m h, hfeed]⟩
  obtain ⟨e, hawaited⟩ := hawaited
  rw [call_eq m h]
  exact ⟨e.failure, Client.exchange_of_readError m.client m.surroundings m.request e hsent hawaited⟩

/-- A call whose request and reply are within the limits returns the reply, and is over. -/
private theorem reply_of_within (m : Meeting) (h : m.Undisturbed)
    (hframing : m.server.framing = m.client.options.framing)
    (hunframed : m.client.options.framing ≠ .unframed)
    (hrequests : m.server.maxRequestBytes ≤ Framing.greatestLength)
    (hreplies : m.client.options.maxReplyBytes ≤ Framing.greatestLength)
    (hshort : m.request.encode.length ≤ m.server.maxRequestBytes)
    (hshort' : m.reply.encode.length ≤ m.client.options.maxReplyBytes) :
    m.call.outcome = .ok m.reply ∧ m.call.connection.state = .completed ∧
      m.call.connection.isOpen = false ∧
      ∃ closing, m.handling = .done closing ∧ closing.result = .ok m.reply := by
  obtain ⟨hsent, closing, hhandling, hwritten, hresult⟩ :=
    answered m h hframing hunframed hrequests hshort
  -- what the handler wrote is what the call reads
  have htransfer := h.replies
  rw [hhandling, Handling.written, hwritten] at htransfer
  obtain ⟨frame, hframe⟩ := Framing.exists_encode m.client.options.framing m.reply
    (Nat.le_trans hshort' hreplies)
  -- within the limit the reply has a frame too, and the call finds it in the reads
  obtain ⟨hfeed, hreply⟩ := htransfer.feed_eq hunframed hframe
    (Framing.keeps_encode _ hunframed m.reply) hshort'
  have hawaited : m.client.awaited m.surroundings.course = .finished (.ok m.reply.encode) := by
    rw [awaited_eq m h, hfeed]
  obtain ⟨houtcome, hstate, hopen⟩ := Client.exchange_of_payload m.client m.surroundings m.request
    m.reply _ hsent hawaited (Message.decode_encode m.reply)
  rw [call_eq m h]
  exact ⟨houtcome, hstate, hopen, closing, hhandling, hresult hreply⟩

/-- A call returns the reply exactly if request and reply are within the limits of their readers,
and fails to write or to read otherwise. When it returns the reply, the server has answered without
an end of the stream, and the connection is completed and holds no stream. -/
theorem call_agrees (m : Meeting) (h : m.Undisturbed)
    (hframing : m.server.framing = m.client.options.framing)
    (hunframed : m.client.options.framing ≠ .unframed)
    (hrequests : m.server.maxRequestBytes ≤ 0xFFFFFFFF)
    (hreplies : m.client.options.maxReplyBytes ≤ 0xFFFFFFFF) :
    (m.call.outcome = .ok ⟨m.server.replyPrefix ++ m.request.text, m.request.id⟩ ↔
      m.request.encode.length ≤ m.server.maxRequestBytes ∧
      (Message.encode ⟨m.server.replyPrefix ++ m.request.text, m.request.id⟩).length ≤
        m.client.options.maxReplyBytes) ∧
    (m.call.outcome ≠ .ok ⟨m.server.replyPrefix ++ m.request.text, m.request.id⟩ →
      ∃ failure, m.call.outcome = .error (.write failure) ∨
        m.call.outcome = .error (.read failure)) ∧
    (m.call.outcome = .ok ⟨m.server.replyPrefix ++ m.request.text, m.request.id⟩ →
      (∃ closing, m.handling = .done closing ∧
        closing.result = .ok ⟨m.server.replyPrefix ++ m.request.text, m.request.id⟩) ∧
      m.call.connection.state = .completed ∧ m.call.connection.isOpen = false) := by
  -- a failure is no reply
  have hfails : ∀ failure, (m.call.outcome = .error (.write failure) ∨
      m.call.outcome = .error (.read failure)) → m.call.outcome ≠ .ok m.reply := by
    intro failure hfailure
    rcases hfailure with hfailure | hfailure <;> simp [hfailure]
  rcases Nat.lt_or_ge m.server.maxRequestBytes m.request.encode.length with hlong | hshort
  · -- the request is beyond the limit of the server
    obtain ⟨failure, hfailure⟩ := error_of_request m h hframing hunframed hlong
    have hne := hfails failure hfailure
    refine ⟨⟨fun hok => absurd hok hne, fun hboth => ?_⟩, fun _ => ⟨failure, hfailure⟩,
      fun hok => absurd hok hne⟩
    exact absurd hboth.1 (Nat.not_le.mpr hlong)
  · rcases Nat.lt_or_ge m.client.options.maxReplyBytes m.reply.encode.length with hlong' | hshort'
    · -- the reply is beyond the limit of the client
      obtain ⟨failure, hfailure⟩ := error_of_reply m h hframing hunframed hrequests hshort hlong'
      have hne := hfails failure (.inr hfailure)
      refine ⟨⟨fun hok => absurd hok hne, fun hboth => ?_⟩, fun _ => ⟨failure, .inr hfailure⟩,
        fun hok => absurd hok hne⟩
      exact absurd hboth.2 (Nat.not_le.mpr hlong')
    · -- both are within the limits
      obtain ⟨hok, hstate, hopen, hclosing⟩ :=
        reply_of_within m h hframing hunframed hrequests hreplies hshort hshort'
      exact ⟨⟨fun _ => ⟨hshort, hshort'⟩, fun _ => hok⟩, fun hne => absurd hok hne,
        fun _ => ⟨hclosing, hstate, hopen⟩⟩

/-- A call over lines whose request is cut in two returns the reply. -/
theorem call_agrees_cut_request :
    ∃ m : Meeting, m.Undisturbed ∧ m.server.framing = m.client.options.framing ∧
      m.client.options.framing ≠ .unframed ∧ m.server.maxRequestBytes ≤ 0xFFFFFFFF ∧
      m.client.options.maxReplyBytes ≤ 0xFFFFFFFF ∧ m.requestReads.length = 2 ∧
      m.call.outcome = .ok ⟨"Acknowledged: x", 5⟩ ∧ m.call.connection.state = .completed := by
  let client : Client := { path := [], options := { framing := .newline } }
  let server : ServerOptions := { framing := .newline }
  let w : Writer := { answer := fun _ => .takes 3, flush := .ok () }
  let frame : Bytes := (Framing.newline.writeFrame w (Message.encode ⟨"x", 5⟩)).taken
  let requestReads : List Bytes := [frame.take 4, frame.drop 4]
  let replyReads : List Bytes :=
    [(Handler.run server w { since := 0 } (requestReads.map .bytes)).written]
  -- the frame is cut after four bytes, and the reply comes at once
  have h : (ofCuts client server ⟨"x", 5⟩ w requestReads replyReads).Undisturbed := by
    refine undisturbed_ofCuts client server ⟨"x", 5⟩ w requestReads replyReads
      (fun _ => ⟨3, by decide, rfl⟩) rfl ?_ ?_
    · simp only [requestReads, List.flatten_cons, List.flatten_nil, List.append_nil,
        List.take_append_drop]
      rfl
    · simp only [replyReads, List.flatten_cons, List.flatten_nil, List.append_nil]
      rfl
  -- both limits hold the message, so the call completes
  obtain ⟨hiff, -, hover⟩ := call_agrees _ h rfl (by decide) (by decide) (by decide)
  have hok := hiff.mpr ⟨by decide, by decide⟩
  exact ⟨_, h, rfl, by decide, by decide, by decide, rfl, hok, (hover hok).2.1⟩

end Meeting

end OneShot
