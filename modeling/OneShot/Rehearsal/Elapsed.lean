import OneShot.Exchange.Connection

/-! # How long an operation takes

An operation that met a course of events ended with the last of them that came to pass, or with its
deadline.
-/

namespace OneShot

/-- The time from the start of an operation to its end. -/
def Performed.elapsed {α : Type} (p : Performed α) (limit : Option Nat) (course : Course) : Nat :=
  match p.outcome with
  | .error (.read ⟨.timedOut, _⟩) => limit.getD 0
  | _ => (((course.take p.passed).getLast?).map (·.1)).getD 0

end OneShot
