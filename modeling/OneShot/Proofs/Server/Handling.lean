import OneShot.Proofs.Framing.Steady
import OneShot.Server.Handler

/-!
# A handler over its arrivals

A handler takes what arrives on its connection, one arrival after the other, until the connection is
closed. Over bytes it does what its reader does; how they were cut shows in no more than the bytes
that stay unread.

## Key results

- `run_bytes`: what a handler comes to over bytes
-/

namespace OneShot

/-- Whether a connection is closed. -/
def Handling.IsDone : Handling → Prop
  | .waiting _ => False
  | .done _ => True

/-- The bytes that the connection took. -/
def Handling.written : Handling → Bytes
  | .waiting _ => []
  | .done closing => closing.written

namespace Handler

/-- What arrivals come to. -/
def run (o : ServerOptions) (w : Writer) (h : Handler) : List Arrival → Handling
  | [] => .waiting h
  | a :: rest =>
    match h.onArrival o w a with
    | .waiting h' => run o w h' rest
    | .done closing => .done closing

/-- Over bytes a handler waits, answers or gives up as its reader does. -/
theorem run_bytes (o : ServerOptions) (w : Writer) (h : Handler) (reads : List Bytes) :
    match Reader.feed o.framing o.maxRequestBytes h.reader reads with
    | .more r => h.run o w (reads.map .bytes) = .waiting { h with reader := r }
    | .frame payload => ∃ unread, h.run o w (reads.map .bytes) = .done (o.answer w payload unread)
    | .failed e => ∃ unread, h.run o w (reads.map .bytes) =
        .done { unread, result := .error (.io e.failure) } := by
  -- induction on the reads: a handler that waits differs in its reader only
  induction reads generalizing h with
  | nil => rfl
  | cons chunk reads ih =>
    simp only [Reader.feed, List.map_cons, run, onArrival, read]
    obtain ⟨progress, unread⟩ := Reader.absorb o.framing o.maxRequestBytes h.reader chunk
    cases progress with
    | more r => exact ih { h with reader := r }
    | frame payload => exact ⟨unread, rfl⟩
    | failed e => exact ⟨unread, rfl⟩

end Handler

end OneShot
