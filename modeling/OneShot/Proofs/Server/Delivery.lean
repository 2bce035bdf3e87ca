import OneShot.Proofs.Framing.Frames
import OneShot.Proofs.Framing.Writing
import OneShot.Proofs.Server.Serving

/-!
# A reply on its way

Once its request has been read, a connection takes the reply, part by part as its stream likes. The
parts make up a beginning of one frame, and nothing but the whole frame, a failure of the stream or
the end of the server ends the connection.

## Key results

- `Delivery.of_serve`: a reply on its way is taken in parts that make up a beginning of its frame
- `serve_course`: a stream that goes on takes a reply as a writer does
- `serve_onArrival`: a reply that is taken at once is the answer of the handler
- `conduct_serve`: nothing is written without a request, and one frame with one
-/

namespace OneShot.ServerOptions

open Stage (Act)

/-! ### The parts of a reply -/

section Prepare

variable (o : ServerOptions) {payload : Bytes} (unread : Bytes)

/-- There is no reply to a payload that is no message. -/
private theorem prepare_of_malformed {e : Json.Error} (hdecode : Message.decode payload = .error e) :
    o.prepare payload unread = .error { unread, result := .error (.malformed e) } := by
  simp only [prepare, hdecode]

/-- There is no frame for a reply that is too long. -/
private theorem prepare_of_unframed {request : Message} {e : Framing.EncodeError}
    (hdecode : Message.decode payload = .ok request)
    (hframe : o.framing.encode (request.reply o.replyPrefix).encode = .error e) :
    o.prepare payload unread =
      .error { request := some request, unread, result := .error (.io e.failure) } := by
  simp only [prepare, hdecode, hframe]

/-- The reply to a request is its frame, of which nothing is taken yet. -/
private theorem prepare_of_framed {request : Message} {frame : Bytes}
    (hdecode : Message.decode payload = .ok request)
    (hframe : o.framing.encode (request.reply o.replyPrefix).encode = .ok frame) :
    o.prepare payload unread =
      .ok { request, reply := request.reply o.replyPrefix, left := frame, unread } := by
  simp only [prepare, hdecode, hframe]

end Prepare

/-- A reply after the stream has taken some parts of it. -/
structure Progress (p p' : Sending) (parts : List Bytes) : Prop where
  request_eq : p'.request = p.request
  reply_eq : p'.reply = p.reply
  taken_eq : p'.taken = p.taken ++ parts.flatten
  left_eq : p.left = parts.flatten ++ p'.left

namespace Progress

theorem refl (p : Sending) : Progress p p [] :=
  ⟨rfl, rfl, (List.append_nil _).symm, rfl⟩

theorem trans {p p' p'' : Sending} {parts parts' : List Bytes} (h : Progress p p' parts)
    (h' : Progress p' p'' parts') : Progress p p'' (parts ++ parts') where
  request_eq := h'.request_eq.trans h.request_eq
  reply_eq := h'.reply_eq.trans h.reply_eq
  taken_eq := by rw [h'.taken_eq, h.taken_eq, List.flatten_append, List.append_assoc]
  left_eq := by rw [h.left_eq, h'.left_eq, List.flatten_append, List.append_assoc]

/-- The stream takes the next bytes. -/
theorem take (p : Sending) (count : Nat) :
    Progress p { p with taken := p.taken ++ p.left.take count, left := p.left.drop count }
      [p.left.take count] where
  request_eq := rfl
  reply_eq := rfl
  taken_eq := by simp
  left_eq := by simp

end Progress

/-- What becomes of a reply on its way. -/
inductive Delivery (p : Sending) (seen : List Incident) : Option Stage × List Act → Prop where
  | underWay (p' : Sending) (parts : List Bytes) (h : Progress p p' parts) :
      Delivery p seen (some (.sending p'), parts.map .sends)
  | whole (p' : Sending) (parts : List Bytes) (h : Progress p p' parts) (hleft : p'.left = []) :
      Delivery p seen (none, parts.map .sends ++ [.closes (p'.close (.ok ()))])
  | failed (p' : Sending) (parts : List Bytes) (failure : Failure) (h : Progress p p' parts)
      (hfails : ∃ i ∈ seen, i.Fails failure) :
      Delivery p seen (none, parts.map .sends ++ [.closes (p'.close (.error failure))])
  | aborted (p' : Sending) (parts : List Bytes) (h : Progress p p' parts)
      (hends : ∃ overdue, .clock overdue true ∈ seen) :
      Delivery p seen (none, parts.map .sends ++ [.aborts p'.unread])

namespace Delivery

variable {p : Sending} {first rest : List Incident}

/-- What becomes of a reply is what becomes of it at first, and then of the rest of it. -/
private theorem append {result : Option Stage × List Act}
    {next : Stage → Option Stage × List Act} (h : Delivery p first result)
    (hnext : ∀ p', Delivery p' rest (next (.sending p'))) :
    Delivery p (first ++ rest) (andThen result next) := by
  cases h with
  | underWay p' parts hparts =>
    simp only [andThen]
    -- the parts taken before stand in front of those taken then
    generalize hthen : next (.sending p') = result
    have hdelivery := hthen ▸ hnext p'
    cases hdelivery with
    | underWay p'' parts' hparts' =>
      rw [← List.map_append]
      exact .underWay p'' _ (hparts.trans hparts')
    | whole p'' parts' hparts' hleft =>
      rw [← List.append_assoc, ← List.map_append]
      exact .whole p'' _ (hparts.trans hparts') hleft
    | failed p'' parts' failure hparts' hfails =>
      -- the incident that fails is one of those that come later
      obtain ⟨i, hi, hfails⟩ := hfails
      rw [← List.append_assoc, ← List.map_append]
      exact .failed p'' _ failure (hparts.trans hparts') ⟨i, List.mem_append_right _ hi, hfails⟩
    | aborted p'' parts' hparts' hends =>
      obtain ⟨overdue, hends⟩ := hends
      rw [← List.append_assoc, ← List.map_append]
      exact .aborted p'' _ (hparts.trans hparts') ⟨overdue, List.mem_append_right _ hends⟩
  | whole p' parts hparts hleft => exact .whole p' parts hparts hleft
  -- a delivery that is over does not go on
  | failed p' parts failure hparts hfails =>
    obtain ⟨i, hi, hfails⟩ := hfails
    exact .failed p' parts failure hparts ⟨i, List.mem_append_left _ hi, hfails⟩
  | aborted p' parts hparts hends =>
    obtain ⟨overdue, hends⟩ := hends
    exact .aborted p' parts hparts ⟨overdue, List.mem_append_left _ hends⟩

/-- What one incident does to a reply on its way. -/
private theorem of_meet (o : ServerOptions) (p : Sending) (i : Incident) :
    Delivery p [i] (o.meet (.sending p) i) := by
  cases i with
  | clock overdue ends =>
    -- a reply on its way has no limit of its own, so only the end of the server cuts it
    cases ends with
    | true => cases overdue <;> exact .aborted p [] (.refl p) ⟨_, List.mem_cons_self⟩
    | false => cases overdue <;> exact .underWay p [] (.refl p)
  | stream e =>
    cases e with
    | arrives a =>
      cases a with
      | bytes chunk =>
        -- bytes that come now are left unread
        exact .underWay { p with unread := p.unread ++ chunk } [] ⟨rfl, rfl, by simp, rfl⟩
      | closed => exact .underWay p [] (.refl p)
      | failed failure => exact .underWay p [] (.refl p)
    | takes answer =>
      -- an offer is made only while bytes are left
      simp only [meet, Stage.step]
      by_cases hleft : p.left = []
      · rw [if_pos hleft]
        exact .underWay p [] (.refl p)
      · rw [if_neg hleft]
        cases answer with
        | fails failure =>
          exact .failed p [] failure (.refl p) ⟨_, List.mem_cons_self, .inl rfl⟩
        | takes count =>
          by_cases hcount : count = 0
          · -- a writer that takes nothing has failed
            subst hcount
            exact .failed p [] _ (.refl p) ⟨_, List.mem_cons_self, .inr (.inl ⟨rfl, rfl⟩)⟩
          · simp only [Stage.onTake, if_neg hcount]
            exact .underWay _ [p.left.take count] (.take p count)
    | flushes result =>
      simp only [meet, Stage.step]
      by_cases hleft : p.left = []
      · rw [if_pos hleft]
        cases result with
        -- behind the last byte the flush ends the delivery
        | ok _ => exact .whole p [] (.refl p) hleft
        | error failure =>
          exact .failed p [] failure (.refl p) ⟨_, List.mem_cons_self, .inr (.inr rfl)⟩
      · rw [if_neg hleft]
        exact .underWay p [] (.refl p)

/-- A reply on its way is taken in parts, and ends whole, by a failure or with the server. -/
theorem of_serve (o : ServerOptions) (p : Sending) (seen : List Incident) :
    Delivery p seen (o.serve (.sending p) seen) := by
  induction seen generalizing p with
  | nil => exact .underWay p [] (.refl p)
  | cons i rest ih => exact (of_meet o p i).append ih

end Delivery

/-- From any offer on, a stream goes on as its writer says. -/
private theorem serve_course_from (o : ServerOptions) (w : Writer) (turn : Nat) (bytes : Bytes)
    (p : Sending) (hleft : p.left = bytes) :
    ∃ parts : List Bytes, parts.flatten = (w.writeAll turn bytes).1 ∧
      o.serve (.sending p) ((w.course turn bytes).map .stream) =
        (none, parts.map .sends ++ [.closes ({ p with
          taken := p.taken ++ (w.writeAll turn bytes).1 }.close
            (w.flushed (w.writeAll turn bytes).2))]) := by
  -- the cases of an offer: nothing is left, a failure, nothing taken, some bytes taken
  fun_induction w.writeAll turn bytes generalizing p with
  | case1 turn =>
    refine ⟨[], rfl, ?_⟩
    rw [Writer.course, dif_pos rfl]
    -- only the flush is left, and its result closes the connection
    simp [serve, meet, Stage.step, hleft, andThen, Writer.flushed, Sending.close]
  | case2 turn bytes hb failure ha =>
    refine ⟨[], rfl, ?_⟩
    rw [Writer.course, dif_neg hb, ha]
    -- the failure closes the connection, and nothing more is sent
    simp [serve, meet, Stage.step, Stage.onTake, hleft, hb, andThen, Writer.flushed, Sending.close]
  | case3 turn bytes hb ha =>
    refine ⟨[], rfl, ?_⟩
    rw [Writer.course, dif_neg hb, ha]
    simp [serve, meet, Stage.step, Stage.onTake, hleft, hb, andThen, Writer.flushed, Sending.close]
  | case4 turn bytes hb count ha hc taken result heq ih =>
    obtain ⟨parts, hparts, hserve⟩ := ih { p with
      taken := p.taken ++ bytes.take count
      left := bytes.drop count } rfl
    rw [heq] at hparts hserve
    -- the bytes taken now stand in front of those the rest of the course sends
    refine ⟨bytes.take count :: parts, by rw [List.flatten_cons, hparts], ?_⟩
    rw [Writer.course, dif_neg hb, ha]
    simp only [dif_neg hc, List.map_cons, serve, meet, Stage.step, hleft, if_neg hb, Stage.onTake,
      if_neg hc, andThen, hserve]
    simp [List.append_assoc, Sending.close]

/-- A stream that goes on takes a reply as its writer does, and then the connection is closed. -/
theorem serve_course (o : ServerOptions) (w : Writer) (p : Sending) :
    ∃ parts : List Bytes, parts.flatten = (w.write p.left).taken ∧
      o.serve (.sending p) ((w.course 0 p.left).map .stream) =
        (none, parts.map .sends ++ [.closes ({ p with
          taken := p.taken ++ (w.write p.left).taken }.close (w.write p.left).result)]) := by
  rw [w.write_taken, w.write_result]
  exact serve_course_from o w 0 p.left p rfl

/-- What is written in parts is written as a whole. -/
@[simp] theorem flatMap_sent_map_sends (parts : List Bytes) :
    (parts.map Act.sends).flatMap Act.sent = parts.flatten := by
  rw [List.flatMap_map]
  exact List.flatMap_id

/-- A request that cannot be read is dropped without a reply. -/
private theorem written_of_read_done (o : ServerOptions) (h : Handler) (a : Arrival) (c : Closing)
    (hread : h.read o a = .done c) : c.written = [] := by
  -- it is done without a request only where reading failed, at once or at the end
  unfold Handler.read at hread
  split at hread
  · split at hread
    · cases hread
    · cases hread
    · cases hread
      rfl
  · split at hread
    · cases hread
    · cases hread
      rfl
  · cases hread
    rfl

/-- What a handler answers at once is what the server does on the connection, part by part. -/
theorem serve_onArrival (o : ServerOptions) (w : Writer) (h : Handler) (a : Arrival) :
    match h.onArrival o w a with
    | .waiting h' => o.meet (.reading h) (.stream (.arrives a)) = (some (.reading h'), [])
    | .done c => ∃ bytes acts, acts.flatMap Act.sent = c.written ∧
        o.serve (.reading h) (.stream (.arrives a) :: (w.course 0 bytes).map .stream) =
          (none, acts ++ [.closes c]) := by
  simp only [Handler.onArrival, serve, meet, Stage.step]
  -- only a whole request is answered; a reply follows only where it is read and fits a frame
  cases hread : h.read o a with
  | waiting h' => rfl
  -- reading failed, and nothing is sent
  | done c => exact ⟨[], [], (written_of_read_done o h a c hread).symm, rfl⟩
  | request payload unread =>
    simp only [Stage.start, answer]
    cases hdecode : Message.decode payload with
    | error e =>
      rw [o.prepare_of_malformed unread hdecode]
      exact ⟨[], [], rfl, rfl⟩
    | ok request =>
      cases hframe : o.framing.encode (request.reply o.replyPrefix).encode with
      | error e =>
        rw [o.prepare_of_unframed unread hdecode hframe]
        exact ⟨[], [.receives request], rfl, rfl⟩
      | ok frame =>
        rw [o.prepare_of_framed unread hdecode hframe]
        obtain ⟨parts, hparts, hserve⟩ := o.serve_course w
          { request, reply := request.reply o.replyPrefix, left := frame, unread }
        -- the reply goes out as the writer takes it
        refine ⟨frame, .receives request :: parts.map .sends, ?_, ?_⟩
        · simp only [List.flatMap_cons, flatMap_sent_map_sends, hparts, Sending.close_written]
          rfl
        · simp only [andThen, hserve]
          rfl

/-! ### The conduct of a server -/

/-- What becomes of the reply to a request, by what a connection does behind the request. -/
inductive Delivers (reply : Message) (frame : Bytes) (seen : List Incident) :
    Option Stage → List Act → Prop where
  /-- The stream has taken a part of the frame so far. -/
  | underWay (p : Sending) (parts : List Bytes) (hparts : parts.flatten ++ p.left = frame)
      (htaken : p.taken = parts.flatten) (hreply : p.reply = reply) :
      Delivers reply frame seen (some (.sending p)) (parts.map .sends)
  /-- The stream has taken the frame, and the connection is closed. -/
  | whole (parts : List Bytes) (c : Closing) (hparts : parts.flatten = frame)
      (hwritten : c.written = frame) (hresult : c.result = .ok reply) :
      Delivers reply frame seen none (parts.map .sends ++ [.closes c])
  /-- The stream has failed to take the rest of the frame, and the connection is closed. -/
  | failed (parts : List Bytes) (c : Closing) (failure : Failure) (hparts : parts.flatten <+: frame)
      (hwritten : c.written = parts.flatten) (hresult : c.result = .error (.io failure))
      (hfails : ∃ i ∈ seen, i.Fails failure) :
      Delivers reply frame seen none (parts.map .sends ++ [.closes c])
  /-- The server has come to its end. -/
  | aborted (parts : List Bytes) (unread : Bytes) (hparts : parts.flatten <+: frame)
      (hends : ∃ overdue, .clock overdue true ∈ seen) :
      Delivers reply frame seen none (parts.map .sends ++ [.aborts unread])

/-- How a server treats a connection, given what the connection has met. -/
structure Conduct (o : ServerOptions) (seen : List Incident)
    (result : Option Stage × List Act) : Prop where
  /-- Where no frame can be read, the connection is closed without an answer. -/
  unreadable : ∀ e, o.reading seen = .failed e →
    ∃ c, result = (none, [.closes c]) ∧ c.written = [] ∧ c.result = .error (.io e.failure)
  /-- A request that is overdue is given up, without an answer. -/
  overdue : ∀ ends, o.reading seen = .waiting → Incident.stop? seen = some (.clock true ends) →
    ∃ c, result = (none, [.closes c]) ∧ c.written = [] ∧
      c.result = .error (.silent (o.readTimeout.getD 0))
  /-- A payload that is no message is not answered. -/
  malformed : ∀ payload e, o.reading seen = .payload payload →
    Message.decode payload = .error e →
    ∃ c, result = (none, [.closes c]) ∧ c.written = [] ∧ c.result = .error (.malformed e)
  /-- A request is answered with one frame, in parts, and then the connection is closed. -/
  answered : ∀ payload request frame, o.reading seen = .payload payload →
    Message.decode payload = .ok request →
    o.framing.encode (Message.encode ⟨o.replyPrefix ++ request.text, request.id⟩) = .ok frame →
    ∃ acts, result.2 = .receives request :: acts ∧
      Delivers ⟨o.replyPrefix ++ request.text, request.id⟩ frame seen result.1 acts
  /-- Only a reply that is too long has no frame; then the write fails before it begins. -/
  unframed : ∀ payload request e, o.reading seen = .payload payload →
    Message.decode payload = .ok request →
    o.framing.encode (Message.encode ⟨o.replyPrefix ++ request.text, request.id⟩) = .error e →
    Framing.greatestLength <
        (Message.encode ⟨o.replyPrefix ++ request.text, request.id⟩).length ∧
      ∃ c, result = (none, [.receives request, .closes c]) ∧ c.written = [] ∧
        c.result = .error (.io e.failure)
  /-- A request that has not come by the end of the server is cut short, without an answer. -/
  aborted : o.reading seen = .waiting → Incident.stop? seen = some (.clock false true) →
    result = (none, [.aborts []])
  /-- Until a request has come, nothing is done. -/
  inFlight : o.reading seen = .waiting → Incident.stop? seen = none →
    ∃ h, result = (some (.reading h), [])

/-- A reply is delivered as its stream takes it. -/
private theorem delivers_of_serve (o : ServerOptions) (p : Sending) (frame : Bytes)
    (rest seen : List Incident) (htaken : p.taken = []) (hleft : p.left = frame)
    (hrest : rest <:+ seen) :
    Delivers p.reply frame seen (o.serve (.sending p) rest).1 (o.serve (.sending p) rest).2 := by
  have hdelivery := Delivery.of_serve o p rest
  generalize o.serve (.sending p) rest = result at hdelivery ⊢
  have hmem : ∀ i ∈ rest, i ∈ seen := fun i hi => hrest.subset hi
  -- a delivery starts with nothing taken, so what was taken is what was sent
  cases hdelivery with
  | underWay p' parts h =>
    refine .underWay p' parts ?_ ?_ h.reply_eq
    · rw [← h.left_eq, hleft]
    · rw [h.taken_eq, htaken, List.nil_append]
  | whole p' parts h hnothing =>
    -- nothing is left, so the parts are the frame
    have hparts : parts.flatten = frame := by
      rw [← hleft, h.left_eq, hnothing, List.append_nil]
    refine .whole parts _ hparts ?_ (by rw [← h.reply_eq]; rfl)
    show p'.taken = frame
    rw [h.taken_eq, htaken, List.nil_append, hparts]
  | failed p' parts failure h hfails =>
    obtain ⟨i, hi, hfails⟩ := hfails
    -- what was sent is the front of the frame
    refine .failed parts _ failure ⟨p'.left, ?_⟩ ?_ rfl ⟨i, hmem i hi, hfails⟩
    · rw [← h.left_eq, hleft]
    · show p'.taken = parts.flatten
      rw [h.taken_eq, htaken, List.nil_append]
  | aborted p' parts h hends =>
    obtain ⟨overdue, hends⟩ := hends
    refine .aborted parts _ ⟨p'.left, ?_⟩ ⟨overdue, hmem _ hends⟩
    rw [← h.left_eq, hleft]

/-- A server treats a connection by what the connection meets: nothing is written where no request
can be read, and one frame where there is one. -/
theorem conduct_serve (o : ServerOptions) (seen : List Incident) :
    Conduct o seen (o.serve Stage.opened seen) := by
  have h := Serving.of_serve o { since := 0 } seen
  have hfrom : o.readingFrom {} seen = o.reading seen := rfl
  generalize hresult : o.serve Stage.opened seen = result
  rw [show o.serve (.reading { since := 0 }) seen = result from hresult] at h
  -- each way in which the reading ends belongs to one part of the conduct; the others do not apply
  cases h with
  | answered payload unread rest hreading hrest =>
    rw [hfrom] at hreading
    refine ⟨by simp [hreading], by simp [hreading], ?_, ?_, ?_, by simp [hreading],
      by simp [hreading]⟩
    · intro payload' e hpayload hdecode
      -- the payload is no message
      obtain rfl := Reader.Outcome.payload.inj (hpayload.symm.trans hreading)
      rw [Stage.start, o.prepare_of_malformed unread hdecode]
      exact ⟨_, rfl, rfl, rfl⟩
    · intro payload' request frame hpayload hdecode hframe
      -- the reply has a frame, and that is delivered
      obtain rfl := Reader.Outcome.payload.inj (hpayload.symm.trans hreading)
      have hdelivers := o.delivers_of_serve
        { request, reply := request.reply o.replyPrefix, left := frame, unread } frame rest seen
        rfl rfl hrest
      rw [Stage.start, o.prepare_of_framed unread hdecode hframe]
      exact ⟨_, rfl, hdelivers⟩
    · intro payload' request e hpayload hdecode hframe
      -- the reply has no frame
      obtain rfl := Reader.Outcome.payload.inj (hpayload.symm.trans hreading)
      rw [Stage.start, o.prepare_of_unframed unread hdecode hframe]
      refine ⟨?_, _, rfl, rfl, rfl⟩
      -- a reply that were short enough would have a frame
      by_contra hshort
      obtain ⟨frame, hframe'⟩ := o.framing.exists_encode _ (Nat.le_of_not_lt hshort)
      cases hframe.symm.trans hframe'
  | unreadable e unread hreading =>
    rw [hfrom] at hreading
    refine ⟨?_, by simp [hreading], by simp [hreading], by simp [hreading], by simp [hreading],
      by simp [hreading], by simp [hreading]⟩
    intro e' he
    obtain rfl := Reader.Outcome.failed.inj (hreading.symm.trans he)
    exact ⟨_, rfl, rfl, rfl⟩
  | overdue ends hreading hstop =>
    rw [hfrom] at hreading
    exact ⟨by simp [hreading], fun _ _ _ => ⟨_, rfl, rfl, rfl⟩, by simp [hreading],
      by simp [hreading], by simp [hreading], by simp [hstop], by simp [hstop]⟩
  | aborted hreading hstop =>
    rw [hfrom] at hreading
    exact ⟨by simp [hreading], by simp [hstop], by simp [hreading], by simp [hreading],
      by simp [hreading], fun _ _ => rfl, by simp [hstop]⟩
  | inFlight r hreading hstop =>
    rw [hfrom] at hreading
    exact ⟨by simp [hreading], by simp [hstop], by simp [hreading], by simp [hreading],
      by simp [hreading], by simp [hstop], fun _ _ => ⟨_, rfl⟩⟩

end OneShot.ServerOptions
