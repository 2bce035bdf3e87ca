import OneShot.Proofs.Framing.Payload
import OneShot.Server.Stage

/-!
# A connection of its own

What becomes of a connection is told here from what it meets: what its stream brings about, its
deadline and the end of the server. Nothing else comes in, neither the clock nor the number of the
connection nor any other one. First it is the reading of one frame from the chunks that arrive.

## Key results

- `step_takenAt`: a connection goes on in the same way, whenever it was taken
- `serve_append`: what a connection meets first decides whether the rest matters
- `Serving.of_serve`: what becomes of a connection follows from the reading of its request
-/

namespace OneShot

open Stage (Act)

/-- What a connection meets. -/
inductive Incident where
  /-- Its stream brings something about. -/
  | stream (e : Stage.Event)
  /-- An instant at which its request is overdue, or the server is at its end. -/
  | clock (overdue ends : Bool)

namespace Incident

/-- Whether no request is read from then on. -/
def stops : Incident → Bool
  | .stream (.arrives (.bytes _)) => false
  | .stream (.arrives _) => true
  | .stream _ => false
  | .clock overdue ends => overdue || ends

/-- The bytes that arrive. -/
def chunk? : Incident → Option Bytes
  | .stream (.arrives (.bytes chunk)) => some chunk
  | _ => none

/-- Whether the stream fails to take a reply. -/
def Fails (failure : Failure) (i : Incident) : Prop :=
  i = .stream (.takes (.fails failure)) ∨
    (i = .stream (.takes (.takes 0)) ∧ failure = Writer.writeZero) ∨
    i = .stream (.flushes (.error failure))

/-- The chunks that arrive before the reading of a request has to end. -/
def reads (seen : List Incident) : List Bytes := (seen.takeWhile (!·.stops)).filterMap chunk?

/-- What ends the reading of a request. -/
def stop? (seen : List Incident) : Option Incident := seen.find? stops

/-- The end of the stream, as far as the reading of a request meets it. -/
def ending (seen : List Incident) : Reader.Ending :=
  match stop? seen with
  | some (.stream (.arrives .closed)) => .closed
  | some (.stream (.arrives (.failed failure))) => .failed failure
  | _ => .silent

theorem stop?_cons {i : Incident} (rest : List Incident) (h : i.stops = false) :
    stop? (i :: rest) = stop? rest :=
  List.find?_cons_of_neg (by simp [h])

end Incident

namespace Stage

/-- A connection that was taken just now. -/
def opened : Stage := .reading { since := 0 }

/-- The same stage of a connection that was taken at an instant. -/
def takenAt (since : Nat) : Stage → Stage
  | .reading h => .reading { h with since }
  | .sending p => .sending p

@[simp] theorem unread_takenAt (since : Nat) (stage : Stage) :
    (stage.takenAt since).unread = stage.unread := by
  cases stage <;> rfl

/-- A connection goes on in the same way, whenever it was taken. -/
theorem step_takenAt (o : ServerOptions) (since : Nat) (stage : Stage) (e : Event) :
    (stage.takenAt since).step o e =
      ((stage.step o e).1.map (takenAt since), (stage.step o e).2) := by
  -- the instant is kept beside the reader and the reply; no step looks at it
  cases stage with
  | sending p =>
    cases e with
    | arrives a => cases a <;> rfl
    | takes answer =>
      simp only [takenAt, step]
      -- with nothing left to take, only the flush counts, and before that only what is taken
      by_cases hleft : p.left = []
      · rw [if_pos hleft]
        rfl
      · rw [if_neg hleft]
        cases answer with
        | fails failure => rfl
        | takes count => by_cases hcount : count = 0 <;> simp [onTake, hcount, takenAt]
    | flushes result =>
      simp only [takenAt, step]
      by_cases hleft : p.left = []
      · rw [if_pos hleft]
        rfl
      · rw [if_neg hleft]
        rfl
  | reading h =>
    cases e with
    | takes answer => rfl
    | flushes result => rfl
    | arrives a =>
      -- a reply starts without an instant
      have hstart : ∀ payload unread, (start o payload unread).1.map (takenAt since) =
          (start o payload unread).1 := by
        intro payload unread
        unfold start
        cases o.prepare payload unread <;> rfl
      cases a with
      -- what the reader makes of the arrival does not depend on the instant
      | failed failure => rfl
      | closed =>
        simp only [takenAt, step, Handler.read]
        cases Reader.finish o.framing o.maxRequestBytes h.reader with
        | ok payload => simp [hstart]
        | error e => rfl
      | bytes chunk =>
        simp only [takenAt, step, Handler.read]
        obtain ⟨progress, unread⟩ := Reader.absorb o.framing o.maxRequestBytes h.reader chunk
        cases progress with
        | more r => rfl
        | frame payload => simp [hstart]
        | failed e => rfl

/-- The bytes that are written on a connection. -/
def Act.sent : Act → Bytes
  | .sends bytes => bytes
  | _ => []

end Stage

namespace ServerOptions

/-- What a connection does that meets one incident; there is no next stage when it is over. -/
def meet (o : ServerOptions) (stage : Stage) : Incident → Option Stage × List Act
  | .stream e => stage.step o e
  | .clock overdue ends =>
    match stage, overdue, ends with
    | .reading _, true, _ =>
      (none, [.closes { result := .error (.silent (o.readTimeout.getD 0)) }])
    | stage, _, true => (none, [.aborts stage.unread])
    | stage, _, false => (some stage, [])

/-- What a connection does that meets one incident, or none. -/
def meet? (o : ServerOptions) (stage : Stage) : Option Incident → Option Stage × List Act
  | none => (some stage, [])
  | some i => o.meet stage i

/-- An instant drops a request that is overdue, and else cuts the connection short at the end of the
server. -/
theorem meet?_clock (o : ServerOptions) (stage : Stage) (overdue ends : Bool) :
    o.meet? stage (if overdue || ends then some (.clock overdue ends) else none) =
      match stage with
      | .reading h =>
        if overdue then (none, [.closes { result := .error (.silent (o.readTimeout.getD 0)) }])
        else if ends then (none, [.aborts []])
        else (some (.reading h), [])
      | .sending p => if ends then (none, [.aborts p.unread]) else (some (.sending p), []) := by
  cases stage <;> cases overdue <;> cases ends <;> rfl

/-- Goes on with a connection, if it is not over. -/
def andThen (first : Option Stage × List Act) (next : Stage → Option Stage × List Act) :
    Option Stage × List Act :=
  match first with
  | (none, acts) => (none, acts)
  | (some stage, acts) => ((next stage).1, acts ++ (next stage).2)

/-- What a connection does that meets incidents one after the other. -/
def serve (o : ServerOptions) (stage : Stage) : List Incident → Option Stage × List Act
  | [] => (some stage, [])
  | i :: rest => andThen (o.meet stage i) fun next => o.serve next rest

/-- What a connection does at first comes before what it does then. -/
theorem andThen_andThen (first : Option Stage × List Act)
    (next last : Stage → Option Stage × List Act) :
    andThen (andThen first next) last = andThen first fun stage => andThen (next stage) last := by
  obtain ⟨stage, acts⟩ := first
  cases stage with
  | none => rfl
  | some stage =>
    simp only [andThen]
    cases hnext : next stage with
    | mk stage' acts' => cases stage' <;> simp [List.append_assoc]

/-- What a connection meets first decides whether the rest matters. -/
theorem serve_append (o : ServerOptions) (stage : Stage) (first rest : List Incident) :
    o.serve stage (first ++ rest) =
      andThen (o.serve stage first) fun next => o.serve next rest := by
  induction first generalizing stage with
  | nil => rfl
  | cons i first ih =>
    rw [List.cons_append, serve, serve, andThen_andThen]
    simp only [ih]

/-- What a connection meets in one step decides whether the rest matters. -/
theorem serve_toList_append (o : ServerOptions) (stage : Stage) (i? : Option Incident)
    (rest : List Incident) :
    o.serve stage (i?.toList ++ rest) =
      andThen (o.meet? stage i?) fun next => o.serve next rest := by
  cases i? <;> rfl

/-- The reading of a request from what a connection meets, from the state of a reader on. -/
def readingFrom (o : ServerOptions) (r : Reader) (seen : List Incident) : Reader.Outcome :=
  (Reader.readChunks o.framing o.maxRequestBytes (Incident.ending seen) r
    (Incident.reads seen)).1

/-- The reading of the request from what a connection meets. -/
def reading (o : ServerOptions) (seen : List Incident) : Reader.Outcome :=
  o.framing.readFrame o.maxRequestBytes (Incident.reads seen) (Incident.ending seen)

/-! ### From the reading to the reply -/

/-- What becomes of a connection, by what the reading of its request comes to. -/
inductive Serving (o : ServerOptions) (h : Handler) (seen : List Incident) :
    Option Stage × List Act → Prop where
  | answered (payload unread : Bytes) (rest : List Incident)
      (hreading : o.readingFrom h.reader seen = .payload payload) (hrest : rest <:+ seen) :
      Serving o h seen (andThen (Stage.start o payload unread) fun next => o.serve next rest)
  | unreadable (e : ReadError) (unread : Bytes)
      (hreading : o.readingFrom h.reader seen = .failed e) :
      Serving o h seen (none, [.closes { unread, result := .error (.io e.failure) }])
  | overdue (ends : Bool) (hreading : o.readingFrom h.reader seen = .waiting)
      (hstop : Incident.stop? seen = some (.clock true ends)) :
      Serving o h seen (none, [.closes { result := .error (.silent (o.readTimeout.getD 0)) }])
  | aborted (hreading : o.readingFrom h.reader seen = .waiting)
      (hstop : Incident.stop? seen = some (.clock false true)) :
      Serving o h seen (none, [.aborts []])
  | inFlight (r : Reader) (hreading : o.readingFrom h.reader seen = .waiting)
      (hstop : Incident.stop? seen = none) :
      Serving o h seen (some (.reading { h with reader := r }), [])

namespace Serving

variable {o : ServerOptions} {h h' : Handler} {seen : List Incident}
  {result : Option Stage × List Act}

/-- An incident that leaves the request to be read leaves the rest to decide. -/
private theorem cons (i : Incident) (hserving : Serving o h' seen result)
    (hsince : h'.since = h.since) (hstops : i.stops = false)
    (hreading : o.readingFrom h.reader (i :: seen) = o.readingFrom h'.reader seen) :
    Serving o h (i :: seen) result := by
  -- what stops is found behind it
  have hstop := Incident.stop?_cons seen hstops
  -- each way to end is read off the rest, so an incident in front that stops nothing keeps it
  cases hserving with
  | answered payload unread rest hpayload hrest =>
    exact .answered payload unread rest (hreading.trans hpayload)
      (hrest.trans (List.suffix_cons i seen))
  | unreadable e unread hfailed => exact .unreadable e unread (hreading.trans hfailed)
  | overdue ends hwaiting hclock =>
    exact .overdue ends (hreading.trans hwaiting) (hstop.trans hclock)
  | aborted hwaiting hclock => exact .aborted (hreading.trans hwaiting) (hstop.trans hclock)
  | inFlight r hwaiting hnone =>
    rw [hsince]
    exact .inFlight r (hreading.trans hwaiting) (hstop.trans hnone)

/-- What becomes of a connection follows from the reading of its request. -/
theorem of_serve (o : ServerOptions) (h : Handler) (seen : List Incident) :
    Serving o h seen (o.serve (.reading h) seen) := by
  -- induction on the incidents: chunks go to the reader, and anything else ends the reading or is
  -- passed over
  induction seen generalizing h with
  | nil => exact .inFlight h.reader rfl rfl
  | cons i rest ih =>
    cases i with
    | clock overdue ends =>
      -- a clock that is late ends it first, then the end of the server
      cases overdue with
      | true => exact .overdue ends rfl rfl
      | false =>
        cases ends with
        | true => exact .aborted rfl rfl
        | false => exact (ih h).cons _ rfl rfl rfl
    | stream e =>
      cases e with
      | takes answer => exact (ih h).cons _ rfl rfl rfl
      | flushes result => exact (ih h).cons _ rfl rfl rfl
      | arrives a =>
        cases a with
        | failed failure => exact .unreadable _ [] rfl
        | closed =>
          have hreading : o.readingFrom h.reader (.stream (.arrives .closed) :: rest) =
              Reader.atEnd o.framing o.maxRequestBytes h.reader .closed := rfl
          simp only [serve, meet, Stage.step, Handler.read]
          -- the bytes held are the request, or there is none
          cases hfinish : Reader.finish o.framing o.maxRequestBytes h.reader with
          | ok payload =>
            simp only [Reader.atEnd, hfinish] at hreading
            exact .answered payload [] rest hreading (List.suffix_cons _ rest)
          | error e =>
            simp only [Reader.atEnd, hfinish] at hreading
            exact .unreadable e [] hreading
        | bytes chunk =>
          have hcons := Reader.readChunks_cons o.framing o.maxRequestBytes (Incident.ending rest)
            h.reader chunk (Incident.reads rest)
          have hreading : o.readingFrom h.reader (.stream (.arrives (.bytes chunk)) :: rest) =
              (Reader.readChunks o.framing o.maxRequestBytes (Incident.ending rest) h.reader
                (chunk :: Incident.reads rest)).1 := rfl
          simp only [serve, meet, Stage.step, Handler.read]
          -- the reader needs more, has a request or gives up; the incidents behind decide only the
          -- first
          cases habsorb : Reader.absorb o.framing o.maxRequestBytes h.reader chunk with
          | mk progress unread =>
            rw [habsorb] at hcons
            cases progress with
            | more r => exact (ih { h with reader := r }).cons _ rfl rfl (hreading.trans hcons)
            | frame payload =>
              exact .answered payload unread rest (hreading.trans hcons) (List.suffix_cons _ rest)
            | failed e => exact .unreadable e unread (hreading.trans hcons)

end Serving

end ServerOptions

end OneShot
