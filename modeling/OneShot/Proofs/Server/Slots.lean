import Mathlib.Data.List.Basic
import OneShot.Server

/-!
# One connection among those of a server

The stages of a server are looked at here for one connection at a time: its slot among them, and
what is done on it among the effects of a step. What a step does to the slot of a connection follows
from that slot alone.

## Key results

- `filterMap_eq_slot`: what is taken from the stage of one connection is taken from its slot
- `settle_cases`: a server settles, or stays as it is
- `slot_onConnection`, `onMissed_fst`, `slot_onShutdown`, `slot_onInstant`, `onStream_of_ne`: the
  slot of a connection after each step
-/

namespace OneShot.Server

open Stage (Act)

/-! ### What belongs to one connection -/

/-- What an effect does on a connection. -/
def Effect.act? (number : Nat) : Effect → Option Act
  | .does k act => if k = number then some act else none
  | _ => none

/-- What effects do on a connection. -/
def acts (number : Nat) (effects : List Effect) : List Act :=
  effects.filterMap (Effect.act? number)

@[simp] theorem acts_nil (number : Nat) : acts number [] = [] := rfl

@[simp] theorem acts_cons (number : Nat) (effect : Effect) (effects : List Effect) :
    acts number (effect :: effects) = (effect.act? number).toList ++ acts number effects := by
  simp only [acts, List.filterMap_cons]
  cases effect.act? number <;> rfl

@[simp] theorem acts_append (number : Nat) (first second : List Effect) :
    acts number (first ++ second) = acts number first ++ acts number second :=
  List.filterMap_append

/-- What is done on one connection is nothing to the others. -/
theorem acts_map_does (number k : Nat) (done : List Act) :
    acts number (done.map (.does k)) = if k = number then done else [] := by
  rw [acts, List.filterMap_map]
  by_cases hk : k = number
  · rw [if_pos hk]
    refine (List.filterMap_congr fun act _ => ?_).trans List.filterMap_some
    simp [Effect.act?, hk]
  · rw [if_neg hk]
    refine List.filterMap_eq_nil_iff.mpr fun act _ => ?_
    simp [Effect.act?, hk]

/-- The stages of a connection among all. -/
def slot (number : Nat) (stages : List (Nat × Stage)) : List Stage :=
  stages.filterMap fun (k, stage) => if k = number then some stage else none

section Slots

variable (number : Nat) (stages : List (Nat × Stage))

/-- The stage of a connection is the first that belongs to it. -/
theorem lookup_eq_head?_slot : stages.lookup number = (slot number stages).head? := by
  induction stages with
  | nil => rfl
  | cons entry stages ih =>
    obtain ⟨k, stage⟩ := entry
    by_cases hk : k = number
    · simp [slot, hk]
    · have hne : (number == k) = false := by simp [Ne.symm hk]
      rw [List.lookup_cons, hne, ih]
      simp [slot, hk]

/-- What is taken from the stages of one connection only is taken from its slot. -/
theorem filterMap_eq_slot {α : Type} (f : Nat × Stage → Option α)
    (hother : ∀ k stage, k ≠ number → f (k, stage) = none) :
    stages.filterMap f = (slot number stages).filterMap fun stage => f (number, stage) := by
  rw [slot, List.filterMap_filterMap]
  apply List.filterMap_congr
  rintro ⟨k, stage⟩ -
  by_cases hk : k = number
  · simp [hk]
  · simp [hk, hother k stage hk]

/-- A stage that is replaced is replaced for its own connection. -/
theorem slot_replace (k : Nat) (next : Stage) :
    slot number (stages.map fun (j, stage) => (j, if j = k then next else stage)) =
      if k = number then (slot number stages).map fun _ => next else slot number stages := by
  have hslot := filterMap_eq_slot number stages
    (fun (j, stage) => if j = number then some (if j = k then next else stage) else none)
    (fun j stage hj => if_neg hj)
  rw [slot, List.filterMap_map]
  refine Eq.trans hslot ?_
  by_cases hk : k = number
  · simp [hk]
  · simp [hk, Ne.symm hk]

/-- Of a connection stay the stages that are kept. -/
theorem slot_filter (keep : Nat → Stage → Bool) :
    slot number (stages.filter fun (k, stage) => keep k stage) =
      (slot number stages).filter (keep number) := by
  have hslot := filterMap_eq_slot number stages
    (fun (k, stage) => if keep k stage then if k = number then some stage else none else none)
    (fun k stage hk => by simp [hk])
  rw [slot, List.filterMap_filter, ← List.filterMap_eq_filter]
  refine Eq.trans hslot ?_
  simp [Option.guard]

/-- A connection that is taken away has no stage. -/
theorem slot_without (s : Server) (k : Nat) : slot number (s.without k).stages =
    if k = number then [] else slot number s.stages := by
  have hkept := slot_filter number s.stages fun j _ => decide (j ≠ k)
  rw [show (s.without k).stages = s.stages.filter fun (j, _) => decide (j ≠ k) from rfl, hkept]
  by_cases hk : k = number
  · simp [hk]
  · simp [hk, Ne.symm hk]

/-- The connections that are closed, for one of them. -/
theorem acts_closes (end? : Stage → Option Closing) :
    acts number ((stages.filterMap fun (k, stage) => (end? stage).map fun c => (k, c)).map
        fun (k, c) => Effect.does k (.closes c)) =
      (slot number stages).filterMap fun stage => (end? stage).map .closes := by
  have hslot := filterMap_eq_slot number stages
    (fun (k, stage) => if k = number then (end? stage).map Act.closes else none)
    (fun k stage hk => if_neg hk)
  -- both are one pass over the stages
  rw [acts, List.filterMap_map, List.filterMap_filterMap]
  refine Eq.trans (List.filterMap_congr ?_) (hslot.trans (by simp))
  rintro ⟨k, stage⟩ -
  -- each stage is looked at once, whether its number is asked for first or last
  cases hend : end? stage with
  | none => simp [hend]
  | some c => simp [hend, Effect.act?]

/-- The connections that are cut short, for one of them. -/
theorem acts_aborts :
    acts number (stages.map fun (k, stage) => Effect.does k (.aborts stage.unread)) =
      (slot number stages).map fun stage => .aborts stage.unread := by
  have hslot := filterMap_eq_slot number stages
    (fun (k, stage) => if k = number then some (Act.aborts stage.unread) else none)
    (fun k stage hk => if_neg hk)
  rw [acts, List.filterMap_map]
  refine Eq.trans hslot ?_
  simp

end Slots

/-- A server settles, or stays as it is. -/
theorem settle_cases (s : Server) :
    s.settle = (s, []) ∨ (∃ stopAt, s.phase = .draining stopAt) ∧ s.stages = [] ∧
      s.settle = ({ s with phase := .stopped }, [.stops]) := by
  unfold settle
  split
  · rename_i stopAt hphase
    by_cases hempty : s.stages.isEmpty = true
    · rw [if_pos hempty]
      exact .inr ⟨⟨stopAt, hphase⟩, List.isEmpty_iff.mp hempty, rfl⟩
    · rw [if_neg hempty]
      exact .inl rfl
  · exact .inl rfl

@[simp] theorem settle_stages (s : Server) : s.settle.1.stages = s.stages := by
  rcases s.settle_cases with h | ⟨-, -, h⟩ <;> rw [h]

/-- Nothing is done on a connection as a server settles. -/
@[simp] theorem acts_settle (number : Nat) (s : Server) : acts number s.settle.2 = [] := by
  rcases s.settle_cases with h | ⟨-, -, h⟩ <;> rw [h] <;> rfl

/-! ### What a step does to one connection -/

section Steps

variable (number : Nat) (s : Server)

/-- Whether an instant is the end of the server. -/
def endsAt (now : Nat) : Bool :=
  match s.phase with
  | .draining stopAt => stopAt ≤ now
  | _ => false

theorem slot_onConnection : slot number s.onConnection.1.stages =
    slot number s.stages ++
      if s.phase = .accepting ∧ s.accepted = number then [.reading { since := s.now }] else [] := by
  unfold onConnection
  cases hphase : s.phase with
  | accepting => by_cases hnumber : s.accepted = number <;> simp [slot, hnumber]
  | draining stopAt => simp
  | stopped => simp

theorem acts_onConnection : acts number s.onConnection.2 = [] := by
  unfold onConnection
  cases s.phase <;> rfl

/-- A connection that could not be taken changes nothing. -/
@[simp] theorem onMissed_fst (failure : Failure) : (s.onMissed failure).1 = s := by
  unfold onMissed
  cases s.phase <;> rfl

theorem acts_onMissed (failure : Failure) : acts number (s.onMissed failure).2 = [] := by
  unfold onMissed
  cases s.phase <;> rfl

theorem slot_onShutdown : slot number s.onShutdown.1.stages = slot number s.stages := by
  unfold onShutdown
  cases s.phase <;> simp

theorem acts_onShutdown : acts number s.onShutdown.2 = [] := by
  unfold onShutdown
  cases s.phase with
  | accepting => exact acts_settle number _
  | draining stopAt => rfl
  | stopped => rfl

/-- What the stream of another connection brings about leaves a connection as it is. -/
theorem onStream_of_ne (k : Nat) (e : Stage.Event) (h : k ≠ number) :
    slot number (s.onStream k e).1.stages = slot number s.stages ∧
      acts number (s.onStream k e).2 = [] := by
  unfold onStream
  cases s.stages.lookup k with
  | none => exact ⟨rfl, rfl⟩
  | some stage =>
    cases hstep : stage.step s.options e with
    | mk next? done =>
      cases next? with
      | none => simp [hstep, acts_map_does, slot_without, h]
      | some next => simp [hstep, withStage, acts_map_does, slot_replace, h]

/-- An instant ends the connections that are overdue, and all at the end of the server. -/
theorem slot_onInstant (now : Nat) : slot number (s.onInstant now).1.stages =
    if s.endsAt now then []
    else (slot number s.stages).filter fun stage => (stage.expiry? s.options now).isNone := by
  have hkept := slot_filter number s.stages fun _ stage => (stage.expiry? s.options now).isNone
  -- only a server that takes no more connections has an end
  unfold onInstant endsAt
  cases s.phase with
  | accepting => exact hkept
  | stopped => exact hkept
  | draining stopAt =>
    -- when the grace is over, no slot is left; until then those that are late go
    by_cases hstop : stopAt ≤ now
    · simp [hstop, slot]
    · simpa [hstop] using hkept

theorem acts_onInstant (now : Nat) : acts number (s.onInstant now).2 =
    (slot number s.stages).filterMap (fun stage => (stage.expiry? s.options now).map .closes) ++
      if s.endsAt now then
        ((slot number s.stages).filter fun stage => (stage.expiry? s.options now).isNone).map
          fun stage => .aborts stage.unread
      else [] := by
  have hdropped := acts_closes number s.stages (Stage.expiry? s.options now)
  -- what is cut is what is left when those that are late are gone
  have hcut := acts_aborts number
    (s.stages.filter fun (_, stage) => (stage.expiry? s.options now).isNone)
  rw [slot_filter number s.stages fun _ stage => (stage.expiry? s.options now).isNone] at hcut
  unfold onInstant endsAt
  cases s.phase with
  | accepting => simpa [overdue] using hdropped
  | stopped => simpa [overdue] using hdropped
  | draining stopAt =>
    -- the rest is cut only by a server whose grace is over
    by_cases hstop : stopAt ≤ now
    · simp only [hstop, if_true, decide_true, acts_append, overdue, hdropped, hcut, acts_cons]
      exact List.append_nil _
    · simpa [hstop, overdue] using hdropped

end Steps

end OneShot.Server
