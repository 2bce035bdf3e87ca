import OneShot.Exchange.Guard

/-!
# What decides an operation that waits

An operation that waits is over with its completion, its deadline or its cancellation, whichever
comes first. A `Race` has the instants of the three, each of which may be missing, and knows nothing
of what happens in between. `Race.Settles` says which verdict they make, and `Race.Decides` that the
verdict tells them apart.

## Key results

- `Race.Apart.cases`: of events that are apart one is the first
- `Race.Settles.decides`: if the events are apart, the verdict says which of them was the first
- `guarded_settles`: the first of the three events settles a guarded operation
- `guarded_none_ne_timedOut`: without a deadline nothing times out
- `guarded_cancelled_before`: after an earlier cancellation nothing comes to pass but that
-/

namespace OneShot

/-- Happenings in the order of their instants. -/
def InOrder {α : Type} (course : List (Nat × α)) : Prop := (course.map (·.1)).Pairwise (· ≤ ·)

instance {α : Type} (course : List (Nat × α)) : Decidable (InOrder course) :=
  inferInstanceAs (Decidable (List.Pairwise _ _))

/-- Happenings are in order if the first is not later than any other and the others are in order. -/
theorem inOrder_cons_iff {α : Type} (instant : Nat) (happening : α) (rest : List (Nat × α)) :
    InOrder ((instant, happening) :: rest) ↔ (∀ e ∈ rest, instant ≤ e.1) ∧ InOrder rest := by
  simp only [InOrder, List.map_cons, List.pairwise_cons, List.forall_mem_map]

/-- What is found in happenings that are in order is not earlier than the first of them. -/
theorem InOrder.le_of_findSome? {α β : Type} {first : Nat × α} {rest : List (Nat × α)}
    (h : InOrder (first :: rest)) {pick : Nat × α → Option β} {found : β}
    (hfound : (first :: rest).findSome? pick = some found) (instant : Nat)
    (hinstant : ∀ e, pick e = some found → e.1 = instant) : first.1 ≤ instant := by
  obtain ⟨e, hmem, hpick⟩ := List.exists_of_findSome?_eq_some hfound
  rw [← hinstant e hpick]
  rcases List.mem_cons.mp hmem with rfl | hmem
  · exact Nat.le_refl _
  · exact ((inOrder_cons_iff first.1 first.2 rest).mp h).1 e hmem

/-! ### Races -/

/-- The events that can end an operation that waits, each at its instant if it comes at all. -/
structure Race (α : Type) where
  deadline : Option Nat
  cancellation : Option Nat
  completion : Option (Nat × α)

namespace Race

variable {α : Type}

/-- No two of the events fall on one instant. -/
structure Apart (r : Race α) : Prop where
  deadline_cancellation : ∀ limit ∈ r.deadline, ∀ instant ∈ r.cancellation, limit ≠ instant
  deadline_completion : ∀ limit ∈ r.deadline, ∀ done ∈ r.completion, limit ≠ done.1
  cancellation_completion : ∀ instant ∈ r.cancellation, ∀ done ∈ r.completion, instant ≠ done.1

/-- The completion comes first. -/
def Completes (r : Race α) (value : α) : Prop :=
  ∃ done ∈ r.completion, done.2 = value ∧ (∀ limit ∈ r.deadline, done.1 < limit) ∧
    ∀ cancelled ∈ r.cancellation, done.1 < cancelled

/-- The cancellation comes first. -/
def IsCancelled (r : Race α) : Prop :=
  ∃ cancelled ∈ r.cancellation, (∀ limit ∈ r.deadline, cancelled < limit) ∧
    ∀ done ∈ r.completion, cancelled < done.1

/-- The deadline comes first. -/
def TimesOut (r : Race α) (limit : Nat) : Prop :=
  limit ∈ r.deadline ∧ (∀ cancelled ∈ r.cancellation, limit < cancelled) ∧
    ∀ done ∈ r.completion, limit < done.1

/-- The event that gives the operation up comes first. -/
def GivesUp (r : Race α) : Interruption → Prop
  | .cancelled => r.IsCancelled
  | .timedOut limit => r.TimesOut limit

instance (r : Race α) : Decidable r.IsCancelled :=
  inferInstanceAs (Decidable (∃ cancelled ∈ r.cancellation, _))

instance (r : Race α) (limit : Nat) : Decidable (r.TimesOut limit) :=
  inferInstanceAs (Decidable (_ ∧ _))

instance (r : Race α) : (cause : Interruption) → Decidable (r.GivesUp cause)
  | .cancelled => inferInstanceAs (Decidable r.IsCancelled)
  | .timedOut limit => inferInstanceAs (Decidable (r.TimesOut limit))

/-- None of the events ever comes. -/
def Never (r : Race α) : Prop :=
  r.deadline = none ∧ r.cancellation = none ∧ r.completion = none

/-- Of events that are apart one is the first, unless none comes. -/
theorem Apart.cases {r : Race α} (h : r.Apart) :
    (∃ value, r.Completes value) ∨ (∃ cause, r.GivesUp cause) ∨ r.Never := by
  have hall : (∃ value, r.Completes value) ∨ r.IsCancelled ∨ (∃ limit, r.TimesOut limit) ∨
      r.Never := by
    obtain ⟨deadline, cancellation, completion⟩ := r
    obtain ⟨hdc, hdo, hco⟩ := h
    -- each event comes or does not, and the instants of those that come are compared
    rcases deadline with _ | limit <;> rcases cancellation with _ | cancelled <;>
      rcases completion with _ | ⟨instant, value⟩ <;>
      simp [Completes, IsCancelled, TimesOut, Never] at hdc hdo hco ⊢ <;> omega
  rcases hall with hcompletes | hcancelled | ⟨limit, htimesOut⟩ | hnever
  · exact .inl hcompletes
  · exact .inr (.inl ⟨.cancelled, hcancelled⟩)
  · exact .inr (.inl ⟨.timedOut limit, htimesOut⟩)
  · exact .inr (.inr hnever)

/-- A verdict that is right for whichever of the events is the first. -/
structure Settles (r : Race α) (verdict : Verdict α) : Prop where
  completes : ∀ value, r.Completes value → verdict = .finished value
  givesUp : ∀ cause, r.GivesUp cause → verdict = .interrupted cause
  never : r.Never → verdict = .waiting

/-- The verdict says which of the events is the first. -/
structure Decides (r : Race α) (verdict : Verdict α) : Prop where
  finished_iff : ∀ value, verdict = .finished value ↔ r.Completes value
  interrupted_iff : ∀ cause, verdict = .interrupted cause ↔ r.GivesUp cause
  waiting_iff : verdict = .waiting ↔ r.Never

/-- As one of the events is the first, a verdict that is right for it says which. -/
theorem Settles.decides {r : Race α} {verdict : Verdict α} (h : r.Settles verdict)
    (hapart : r.Apart) : r.Decides verdict := by
  -- one of the events is the first, and the verdicts that they make are not the same
  have hall : (∃ value, r.Completes value ∧ verdict = .finished value) ∨
      (∃ cause, r.GivesUp cause ∧ verdict = .interrupted cause) ∨
      (r.Never ∧ verdict = .waiting) := by
    rcases hapart.cases with ⟨value, hfirst⟩ | ⟨cause, hfirst⟩ | hfirst
    · exact .inl ⟨value, hfirst, h.completes value hfirst⟩
    · exact .inr (.inl ⟨cause, hfirst, h.givesUp cause hfirst⟩)
    · exact .inr (.inr ⟨hfirst, h.never hfirst⟩)
  -- a verdict is made by the event that comes first, and by no other
  refine ⟨fun value => ⟨fun hverdict => ?_, h.completes value⟩,
    fun cause => ⟨fun hverdict => ?_, h.givesUp cause⟩, ⟨fun hverdict => ?_, h.never⟩⟩ <;>
    rw [hverdict] at hall <;> simpa using hall

end Race

/-! ### What a course holds -/

section Courses

variable {α : Type}

/-- The first completion in a course. -/
def completion? (course : List (Nat × Signal α)) : Option (Nat × α) :=
  course.findSome? fun
    | (instant, .done value) => some (instant, value)
    | _ => none

/-- The first cancellation in a course. -/
def cancellation? (course : List (Nat × Signal α)) : Option Nat :=
  course.findSome? fun
    | (instant, .cancel) => some instant
    | _ => none

/-- The race that a course makes with a deadline. -/
def Race.ofCourse (limit : Option Nat) (course : List (Nat × Signal α)) : Race α :=
  ⟨limit, cancellation? course, completion? course⟩

/-- A completion is not earlier than the first happening. -/
theorem InOrder.le_completion {e : Nat × Signal α} {rest : List (Nat × Signal α)}
    (h : InOrder (e :: rest)) (instant : Nat) (value : α)
    (hdone : completion? (e :: rest) = some (instant, value)) : e.1 ≤ instant := by
  refine h.le_of_findSome? hdone instant ?_
  rintro ⟨instant', _ | _ | _⟩ hpick <;> cases hpick
  rfl

/-- A cancellation is not earlier than the first happening. -/
theorem InOrder.le_cancellation {e : Nat × Signal α} {rest : List (Nat × Signal α)}
    (h : InOrder (e :: rest)) (instant : Nat)
    (hcancelled : cancellation? (e :: rest) = some instant) : e.1 ≤ instant := by
  refine h.le_of_findSome? hcancelled instant ?_
  rintro ⟨instant', _ | _ | _⟩ hpick <;> cases hpick
  rfl

/-- An instant is not late exactly if no deadline was before it. -/
theorem isLate_eq_false_iff (limit : Option Nat) (instant : Nat) :
    isLate limit instant = false ↔ ∀ deadline ∈ limit, instant ≤ deadline := by
  cases limit <;> simp [isLate]

/-! ### Guarded operations -/

variable (limit : Option Nat) (course : List (Nat × Signal α))

/-- An operation that completes first has its own result. -/
theorem guarded_of_completes (horder : InOrder course) (value : α)
    (h : (Race.ofCourse limit course).Completes value) :
    (guarded limit course).1 = .finished value := by
  obtain ⟨⟨instant, value⟩, hdone, rfl, hlimit, hcancelled⟩ := h
  -- induction on the happenings, none of which is later than the completion
  induction course with
  | nil => cases hdone
  | cons e rest ih =>
    obtain ⟨first, signal⟩ := e
    have hfirst : first ≤ instant := horder.le_completion instant value hdone
    have hlate : isLate limit first = false := (isLate_eq_false_iff limit first).mpr
      fun deadline hdeadline => Nat.le_trans hfirst (Nat.le_of_lt (hlimit deadline hdeadline))
    rw [guarded_cons limit first signal rest hlate]
    -- what comes first is the completion itself or means nothing
    cases signal with
    | done value' =>
      obtain ⟨-, rfl⟩ := Prod.mk.inj (Option.some.inj hdone)
      rfl
    | cancel => exact absurd (hcancelled first rfl) (Nat.not_lt.mpr hfirst)
    | quiet => exact ih ((inOrder_cons_iff _ _ _).mp horder).2 hdone hlimit hcancelled

/-- An operation that is cancelled first is interrupted. -/
theorem guarded_of_isCancelled (horder : InOrder course)
    (h : (Race.ofCourse limit course).IsCancelled) :
    (guarded limit course).1 = .interrupted .cancelled := by
  obtain ⟨instant, hcancelled, hlimit, hdone⟩ := h
  -- induction on the happenings, none of which is later than the cancellation
  induction course with
  | nil => cases hcancelled
  | cons e rest ih =>
    obtain ⟨first, signal⟩ := e
    have hfirst : first ≤ instant := horder.le_cancellation instant hcancelled
    have hlate : isLate limit first = false := (isLate_eq_false_iff limit first).mpr
      fun deadline hdeadline => Nat.le_trans hfirst (Nat.le_of_lt (hlimit deadline hdeadline))
    rw [guarded_cons limit first signal rest hlate]
    -- what comes first is the cancellation itself or means nothing
    cases signal with
    | done value => exact absurd (hdone (first, value) rfl) (Nat.not_lt.mpr hfirst)
    | cancel => rfl
    | quiet => exact ih ((inOrder_cons_iff _ _ _).mp horder).2 hcancelled hlimit hdone

/-- An operation whose deadline comes first times out. -/
theorem guarded_of_timesOut (deadline : Nat) (h : (Race.ofCourse limit course).TimesOut deadline) :
    (guarded limit course).1 = .interrupted (.timedOut deadline) := by
  obtain ⟨hlimit, hcancelled, hdone⟩ := h
  obtain rfl : limit = some deadline := hlimit
  -- induction on the happenings up to the first that is late
  induction course with
  | nil => rfl
  | cons e rest ih =>
    obtain ⟨first, signal⟩ := e
    cases hlate : isLate (some deadline) first with
    | true =>
      rw [guarded_cons_of_isLate _ first signal rest hlate]
      rfl
    | false =>
      have hfirst := (isLate_eq_false_iff _ first).mp hlate deadline rfl
      rw [guarded_cons _ first signal rest hlate]
      cases signal with
      -- what is in time and would decide earlier has not come
      | done value => exact absurd (hdone (first, value) rfl) (Nat.not_lt.mpr hfirst)
      | cancel => exact absurd (hcancelled first rfl) (Nat.not_lt.mpr hfirst)
      | quiet => exact ih hcancelled hdone

/-- An operation that none of the events ends waits for ever. -/
theorem guarded_of_never (h : (Race.ofCourse limit course).Never) :
    (guarded limit course).1 = .waiting := by
  obtain ⟨hlimit, hcancelled, hdone⟩ := h
  obtain rfl : limit = none := hlimit
  -- induction on the happenings, none of which can be late, cancel or complete
  induction course with
  | nil => rfl
  | cons e rest ih =>
    obtain ⟨first, signal⟩ := e
    rw [guarded_cons none first signal rest rfl]
    cases signal with
    | done value => cases hdone
    | cancel => cases hcancelled
    | quiet => exact ih hcancelled hdone

/-- The first of the three events settles a guarded operation. -/
theorem guarded_settles (horder : InOrder course) :
    (Race.ofCourse limit course).Settles (guarded limit course).1 where
  completes := guarded_of_completes limit course horder
  givesUp
    | .cancelled => guarded_of_isCancelled limit course horder
    | .timedOut deadline => guarded_of_timesOut limit course deadline
  never := guarded_of_never limit course

/-- Without a deadline nothing times out. -/
theorem guarded_none_ne_timedOut (deadline : Nat) :
    (guarded none course).1 ≠ .interrupted (.timedOut deadline) := by
  induction course with
  | nil => nofun
  | cons e rest ih =>
    obtain ⟨first, signal⟩ := e
    rw [guarded_cons none first signal rest rfl]
    cases signal with
    | done value => nofun
    | cancel => nofun
    | quiet => exact ih

/-- After an earlier cancellation nothing comes to pass but that. -/
theorem guarded_cancelled_before :
    guarded limit ((0, .cancel) :: course) = (.interrupted .cancelled, 1) := by
  have hlate : isLate limit 0 = false :=
    (isLate_eq_false_iff limit 0).mpr fun deadline _ => Nat.zero_le deadline
  rw [guarded_cons limit 0 .cancel course hlate]

end Courses

end OneShot
