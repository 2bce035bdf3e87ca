import OneShot.Duration
import OneShot.Failure

/-! # Waiting under a deadline

An operation waits while things happen around it, each at its instant in milliseconds from the start
of the operation. The first of completion, cancellation and deadline decides; what happens at the
instant of the deadline still counts.

* `bounded`                       an operation under a deadline
* `runUntilCancelled`             an operation that may be cancelled
* `guarded_nil`, `guarded_cons`   both together, one happening at a time
-/

namespace OneShot

/-- What one happening means for an operation that waits. -/
inductive Signal (α : Type) where
  /-- The operation completes. -/
  | done (value : α)
  /-- The operation is cancelled. -/
  | cancel
  /-- The operation goes on waiting. -/
  | quiet
  deriving Repr, DecidableEq

/-- Why an operation was given up. -/
inductive Interruption where
  | cancelled
  | timedOut (limit : Nat)
  deriving Repr, DecidableEq

/-- The failure of an operation that was given up while it did what `activity` says. -/
def Interruption.failure (activity : String) : Interruption → Failure
  | .cancelled => ⟨.interrupted, "cancelled while " ++ activity⟩
  | .timedOut limit =>
    ⟨.timedOut, "timed out after " ++ Duration.text limit ++ " while " ++ activity⟩

/-- What waiting comes to. -/
inductive Verdict (α : Type) where
  | finished (value : α)
  | interrupted (cause : Interruption)
  /-- Nothing more happens and no deadline is set. -/
  | waiting
  deriving Repr, DecidableEq

/-- Whether an instant lies after the deadline. -/
def isLate (limit : Option Nat) (instant : Nat) : Bool :=
  match limit with
  | some limit => limit < instant
  | none => false

/-- What waiting comes to when nothing more happens before the deadline. -/
def Verdict.ofDeadline {α : Type} : Option Nat → Verdict α
  | some limit => .interrupted (.timedOut limit)
  | none => .waiting

section Combinators

variable {α : Type}

/-- The deadline as the last thing that happens to an operation. -/
def expiry : Option Nat → List (Nat × Signal (Except Nat α))
  | some limit => [(limit, .done (.error limit))]
  | none => []

/-- An operation under a deadline: at its deadline it is done, with the limit in place of a value. -/
def bounded (limit : Option Nat) : List (Nat × Signal α) → List (Nat × Signal (Except Nat α))
  | [] => expiry limit
  | (instant, signal) :: rest =>
    if isLate limit instant then expiry limit
    else
      match signal with
      | .done value => [(instant, .done (.ok value))]
      | .cancel => (instant, .cancel) :: bounded limit rest
      | .quiet => (instant, .quiet) :: bounded limit rest

/-- Waits until an operation is done or cancelled; says also how many happenings came to pass
before. -/
def runUntilCancelled : List (Nat × Signal α) → Verdict α × Nat
  | [] => (.waiting, 0)
  | (_, .done value) :: _ => (.finished value, 0)
  | (_, .cancel) :: _ => (.interrupted .cancelled, 0)
  | (_, .quiet) :: rest =>
    let later := runUntilCancelled rest
    (later.1, later.2 + 1)

/-- Waits for an operation under a deadline until it is cancelled; says also how many of the
happenings came to pass, of which the deadline is none. -/
def guarded (limit : Option Nat) (course : List (Nat × Signal α)) : Verdict α × Nat :=
  match runUntilCancelled (bounded limit course) with
  | (.finished (.ok value), passed) => (.finished value, passed + 1)
  | (.finished (.error limit), passed) => (.interrupted (.timedOut limit), passed)
  | (.interrupted cause, passed) => (.interrupted cause, passed + 1)
  | (.waiting, passed) => (.waiting, passed)

variable (limit : Option Nat)

@[simp] theorem guarded_nil : guarded limit ([] : List (Nat × Signal α)) = (.ofDeadline limit, 0) := by
  cases limit <;> rfl

variable (instant : Nat) (signal : Signal α) (rest : List (Nat × Signal α))

/-- What comes after the deadline does not come to pass. -/
theorem guarded_cons_of_isLate (h : isLate limit instant = true) :
    guarded limit ((instant, signal) :: rest) = (.ofDeadline limit, 0) := by
  rw [← guarded_nil (α := α)]
  simp only [guarded, bounded, h, if_true]

/-- What comes in time decides, or leaves the rest to decide. -/
theorem guarded_cons (h : isLate limit instant = false) :
    guarded limit ((instant, signal) :: rest) =
      match signal with
      | .done value => (.finished value, 1)
      | .cancel => (.interrupted .cancelled, 1)
      | .quiet => ((guarded limit rest).1, (guarded limit rest).2 + 1) := by
  cases signal with
  | done value => simp [guarded, bounded, runUntilCancelled, h]
  | cancel => simp [guarded, bounded, runUntilCancelled, h]
  | quiet =>
    simp only [guarded, bounded, runUntilCancelled, h, Bool.false_eq_true, if_false]
    -- one happening more, whatever the rest comes to
    obtain ⟨verdict, passed⟩ := runUntilCancelled (bounded limit rest)
    cases verdict with
    | finished result => cases result <;> rfl
    | interrupted cause => rfl
    | waiting => rfl

end Combinators

end OneShot
