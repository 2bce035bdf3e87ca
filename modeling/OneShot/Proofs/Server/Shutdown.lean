import OneShot.Proofs.Server.Handlers

/-!
# How a server ends

A server that is told to stop takes no more connections. Its handlers may go on until the grace
period is over, and as soon as none is left the server is at its end. Only the end of the grace
period cuts handlers short, and only those that are still there. The clock and the instant at which
the server was told to stop can be seen from the events alone.

## Key results

- `phase_run`: how far a server is on its way to its end
- `returning_run`: a server returns once, as the last thing that it does
- `aborts_mem_run_iff`: which handlers are cut short, and when
- `exists_toldAt?_of_aborts`: no handler is cut short before the grace period is over
- `graceful_run`: how a server ends, whatever happens
-/

namespace OneShot.Server

open Stage (Act)

/-! ### The clock and the signal -/

/-- The instant that an event brings. -/
def Event.instant? : Event → Option Nat
  | .instant now => some now
  | _ => none

/-- The clock after a course of events. -/
def clock (events : List Event) : Nat := (events.filterMap Event.instant?).foldl max 0

/-- The instant at which a server is first told to stop. -/
def toldAt? (events : List Event) : Option Nat :=
  if events.any Event.isShutdown then some (clock (events.takeWhile (!·.isShutdown))) else none

theorem clock_concat (events : List Event) (e : Event) :
    clock (events ++ [e]) = max (clock events) (e.instant?.getD 0) := by
  cases e <;> simp [clock, Event.instant?, List.filterMap_cons]

/-- Only the first signal counts. -/
theorem toldAt?_concat (events : List Event) (e : Event) :
    toldAt? (events ++ [e]) =
      (toldAt? events).or (if e.isShutdown then some (clock events) else none) := by
  unfold toldAt?
  by_cases htold : events.any Event.isShutdown = true
  · -- the signal came before, and what follows it does not count
    obtain ⟨e', hmem, he'⟩ := List.any_eq_true.mp htold
    have hlength : (events.takeWhile (!·.isShutdown)).length ≠ events.length := by
      intro hall
      have hself := (List.takeWhile_prefix fun e : Event => !e.isShutdown).eq_of_length hall
      have hkept := List.mem_takeWhile_imp (hself ▸ hmem)
      simp [he'] at hkept
    simp [htold, List.takeWhile_append, hlength]
  · -- no signal so far, so it is the last event or none
    have hnone : ∀ e' ∈ events, e'.isShutdown = false := by simpa using htold
    have hall : events.takeWhile (!·.isShutdown) = events :=
      List.takeWhile_eq_self_iff.mpr (by simpa using hnone)
    cases he : e.isShutdown <;> simp [htold, he, List.takeWhile_append, hall]

/-- The clock never goes back. -/
theorem le_clock_append (before after : List Event) : clock before ≤ clock (before ++ after) := by
  induction after using List.reverseRecOn with
  | nil => simp
  | append_singleton after e ih =>
    rw [← List.append_assoc, clock_concat]
    exact ih.trans (Nat.le_max_left _ _)

/-- A server that was told to stop was told so once and for all. -/
theorem toldAt?_append {before : List Event} {told : Nat} (h : toldAt? before = some told)
    (after : List Event) : toldAt? (before ++ after) = some told := by
  induction after using List.reverseRecOn with
  | nil => simpa using h
  | append_singleton after e ih =>
    rw [← List.append_assoc, toldAt?_concat, ih]
    rfl

/-- The watch of a connection shows the clock and the end of the grace period. -/
theorem Watch.after_eq (number : Nat) (events : List Event) :
    (Watch.after number {} events).now = clock events ∧
      (Watch.after number {} events).stopAt? = (toldAt? events).map (· + grace) := by
  -- induction on the events from behind: the last one moves the clock or is the signal
  induction events using List.reverseRecOn with
  | nil => exact ⟨rfl, rfl⟩
  | append_singleton events e ih =>
    obtain ⟨hnow, hstop⟩ := ih
    rw [Watch.after_concat, clock_concat, toldAt?_concat]
    cases e with
    | connection =>
      simp only [Watch.step]
      split <;> simp [hnow, hstop, Event.instant?, Event.isShutdown]
    | missed failure => simp [Watch.step, hnow, hstop, Event.instant?, Event.isShutdown]
    | stream k e => simp [Watch.step, hnow, hstop, Event.instant?, Event.isShutdown]
    | shutdown =>
      simp only [Watch.step, hnow, hstop]
      -- a second signal is not heard
      cases toldAt? events <;> simp [Event.instant?, Event.isShutdown]
    | instant now => simp [Watch.step, hnow, hstop, Event.instant?, Event.isShutdown]

/-! ### On the way to the end -/

/-- A server that takes no more connections has some in flight, and time left for them. -/
def IsBusy (s : Server) : Prop :=
  ∀ stopAt, s.phase = .draining stopAt → s.stages ≠ [] ∧ s.now < stopAt

/-- A server that settles is busy if there is time left. -/
private theorem isBusy_settle (s : Server)
    (h : ∀ stopAt, s.phase = .draining stopAt → s.now < stopAt) : s.settle.1.IsBusy := by
  intro stopAt hphase
  unfold settle at hphase ⊢
  split at hphase
  · rename_i stopAt' hdraining
    -- it stops if nothing is left; otherwise the phase and the time are those of before
    by_cases hempty : s.stages.isEmpty = true
    · simp [hempty] at hphase
    · simp only [hempty, if_false, Bool.false_eq_true] at hphase ⊢
      exact ⟨by simpa using hempty, h stopAt hphase⟩
  · -- in the other phases nothing is settled
    rename_i hother
    exact absurd hphase (hother stopAt)

/-- A server stays busy until its end. -/
theorem IsBusy.step {s : Server} (h : s.IsBusy) (e : Event) : (s.step e).1.IsBusy := by
  cases e with
  | connection =>
    simp only [Server.step, onConnection]
    cases hphase : s.phase with
    -- nothing is asked of a server that has not been told
    | accepting => simp [IsBusy]
    | draining stopAt => exact h
    | stopped => exact h
  | missed failure =>
    rw [Server.step, onMissed_fst]
    exact h
  | shutdown =>
    simp only [Server.step, onShutdown]
    cases hphase : s.phase with
    | accepting =>
      -- the server is told now, and the grace is not zero
      refine isBusy_settle _ fun stopAt hstop => ?_
      cases hstop
      exact Nat.lt_add_of_pos_right (by decide)
    | draining stopAt => exact h
    | stopped => exact h
  | stream k e =>
    simp only [Server.step, onStream]
    cases s.stages.lookup k with
    | none => exact h
    | some stage =>
      cases hstep : stage.step s.options e with
      | mk next? done =>
        -- only a connection that is over leaves room for settling
        cases next? with
        | some next =>
          simp only [hstep]
          intro stopAt hphase
          obtain ⟨hflight, htime⟩ := h stopAt hphase
          exact ⟨by simpa [withStage] using hflight, htime⟩
        | none =>
          simp only [hstep]
          exact isBusy_settle (s.without k) fun stopAt hphase => (h stopAt hphase).2
  | instant now =>
    simp only [Server.step, onInstant]
    cases hphase : s.phase with
    | accepting => simp [IsBusy]
    | stopped => simp [IsBusy]
    | draining stopAt =>
      -- either the grace is over and nothing is left, or there is still time
      by_cases hends : stopAt ≤ now
      · simp only [hends, if_true]
        simp [IsBusy]
      · simp only [hends, if_false]
        refine isBusy_settle _ fun stopAt' hstop => ?_
        cases hstop
        exact Nat.max_lt.mpr ⟨(h stopAt hphase).2, Nat.not_le.mp hends⟩

section Run

variable (o : ServerOptions) (events : List Event)

private theorem isBusy_run : (run { options := o } events).1.IsBusy := by
  induction events using List.reverseRecOn with
  | nil => nofun
  | append_singleton events e ih =>
    rw [run_concat]
    exact ih.step e

/-- How far a server is on its way to its end. -/
theorem phase_run : (run { options := o } events).1.phase =
    match toldAt? events with
    | none => .accepting
    | some told =>
      if (run { options := o } events).1.stages = [] then .stopped
      else .draining (told + grace) := by
  have hagrees := agrees_run o events 0
  have hbusy := isBusy_run o events
  have hstop := (Watch.after_eq 0 events).2
  cases htold : toldAt? events with
  | none =>
    rw [htold] at hstop
    exact hagrees.open_iff.mpr hstop
  | some told =>
    rw [htold] at hstop
    simp only
    cases hphase : (run { options := o } events).1.phase with
    | accepting =>
      -- a door that is open has not been told to close
      rw [hagrees.open_iff.mp hphase] at hstop
      cases hstop
    | draining stopAt =>
      -- both know the same instant, and a server that drains has a connection left
      have heq := (hagrees.stopAt_eq stopAt hphase).symm.trans hstop
      rw [if_neg (hbusy stopAt hphase).1, Option.some.inj heq]
    | stopped => rw [if_pos (hagrees.at_rest hphase)]

/-- While connections are in flight, the grace period is not over. -/
theorem clock_lt_of_stages (told : Nat) (htold : toldAt? events = some told)
    (hflight : (run { options := o } events).1.stages ≠ []) : clock events < told + grace := by
  have hphase := phase_run o events
  simp only [htold, if_neg hflight] at hphase
  have htime := (isBusy_run o events _ hphase).2
  rwa [(agrees_run o events 0).now_eq, (Watch.after_eq 0 events).1] at htime

end Run

/-! ### The end of a server -/

/-- Whether a server returns. -/
def Effect.isStop : Effect → Bool
  | .stops => true
  | _ => false

theorem Effect.isStop_iff {effect : Effect} : effect.isStop = true ↔ effect = .stops := by
  cases effect <;> simp [Effect.isStop]

/-- What is done on connections is not the end of the server. -/
private theorem isStop_map {α : Type} (number : α → Nat) (act : α → Act) (xs : List α) :
    ∀ effect ∈ xs.map (fun x => Effect.does (number x) (act x)), effect.isStop = false := by
  simp [Effect.isStop]

/-- A server that is not at its end says so, or goes on. -/
def Returning (s : Server) (effects : List Effect) : Prop :=
  Concludes Effect.isStop (decide (s.phase = .stopped)) effects

private theorem returning_of_ne {s : Server} (h : s.phase ≠ .stopped) {effects : List Effect}
    (heffects : ∀ effect ∈ effects, effect.isStop = false) : Returning s effects := by
  rw [Returning, decide_eq_false h]
  exact .still heffects

private theorem returning_of_eq {s : Server} (h : s.phase = .stopped) {effects : List Effect}
    (heffects : ∀ effect ∈ effects, effect.isStop = false) :
    Returning s (effects ++ [.stops]) := by
  rw [Returning, decide_eq_true h]
  exact .ends heffects rfl

/-- A server that settles returns as its last effect, if it is at its end then. -/
private theorem returning_settle (s : Server) (h : s.phase ≠ .stopped) {effects : List Effect}
    (heffects : ∀ effect ∈ effects, effect.isStop = false) :
    Returning s.settle.1 (effects ++ s.settle.2) := by
  rcases s.settle_cases with hsame | ⟨-, -, hstops⟩
  · rw [hsame, List.append_nil]
    exact returning_of_ne h heffects
  · rw [hstops]
    exact returning_of_eq rfl heffects

/-- A step that brings a server to its end has the return as its last effect, and no other step
returns. -/
theorem returning_step (s : Server) (h : s.phase ≠ .stopped) (e : Event) :
    Returning (s.step e).1 (s.step e).2 := by
  cases e with
  | connection =>
    simp only [Server.step, onConnection]
    cases hphase : s.phase with
    -- a connection is taken
    | accepting => exact returning_of_ne (by simp) (by simp [Effect.isStop])
    | draining stopAt => exact returning_of_ne h (List.forall_mem_nil _)
    | stopped => exact absurd hphase h
  | missed failure =>
    simp only [Server.step, onMissed]
    cases hphase : s.phase with
    | accepting => exact returning_of_ne h (by simp [Effect.isStop])
    | draining stopAt => exact returning_of_ne h (List.forall_mem_nil _)
    | stopped => exact absurd hphase h
  | stream k e =>
    simp only [Server.step, onStream]
    cases s.stages.lookup k with
    | none => exact returning_of_ne h (List.forall_mem_nil _)
    | some stage =>
      cases hstep : stage.step s.options e with
      | mk next? done =>
        -- what is done for a connection never stops the server, only the settling behind it can
        have hdone := isStop_map (fun _ => k) (fun act : Act => act) done
        cases next? with
        | some next =>
          simp only [hstep]
          exact returning_of_ne h hdone
        | none =>
          simp only [hstep]
          exact returning_settle (s.without k) h hdone
  | shutdown =>
    simp only [Server.step, onShutdown]
    cases hphase : s.phase with
    | accepting =>
      -- it stops listening, which is not its stop
      have hlistens : ∀ effect ∈ [Effect.stopsListening], effect.isStop = false := by
        simp [Effect.isStop]
      exact returning_settle _ (by simp) hlistens
    | draining stopAt => exact returning_of_ne h (List.forall_mem_nil _)
    | stopped => exact absurd hphase h
  | instant now =>
    -- neither the connections that are late nor those that are cut stop it
    have hdropped := isStop_map (fun x : Nat × Closing => x.1) (fun x => .closes x.2)
      (s.overdue now)
    have hcut := isStop_map (fun x : Nat × Stage => x.1) (fun x => .aborts x.2.unread)
      (s.stages.filter fun x => (x.2.expiry? s.options now).isNone)
    simp only [Server.step, onInstant]
    cases hphase : s.phase with
    | accepting => exact returning_of_ne (by simp) hdropped
    | stopped => exact absurd hphase h
    | draining stopAt =>
      by_cases hends : stopAt ≤ now
      · simp only [hends, if_true]
        exact returning_of_eq rfl (List.forall_mem_append.mpr ⟨hdropped, hcut⟩)
      · simp only [hends, if_false]
        exact returning_settle _ (by simp) hdropped

/-- A server at its end does nothing more. -/
theorem step_of_stopped {s : Server} (h : s.phase = .stopped) (hstages : s.stages = [])
    (e : Event) :
    (s.step e).1.phase = .stopped ∧ (s.step e).1.stages = [] ∧ (s.step e).2 = [] := by
  cases e with
  | connection => simp [Server.step, onConnection, h, hstages]
  | missed failure => simp [Server.step, onMissed, h, hstages]
  | stream k e => simp [Server.step, onStream, h, hstages]
  | shutdown => simp [Server.step, onShutdown, h, hstages]
  | instant now => simp [Server.step, onInstant, h, hstages, overdue]

/-- Whatever happens to a server at its end, it does nothing more. -/
theorem run_of_stopped {s : Server} (h : s.phase = .stopped) (hstages : s.stages = [])
    (events : List Event) : (s.run events).2 = [] := by
  induction events generalizing s with
  | nil => rfl
  | cons e rest ih =>
    obtain ⟨hphase, hnone, hnothing⟩ := step_of_stopped h hstages e
    rw [run, hnothing, ih hphase hnone]
    rfl

section Ends

variable (o : ServerOptions) (events : List Event)

/-- A server returns once, as the last thing that it does. -/
theorem returning_run : Returning (run { options := o } events).1 (run { options := o } events).2 := by
  -- induction on the events from behind: the server stops at most once, and last
  induction events using List.reverseRecOn with
  | nil => exact returning_of_ne (by simp) (List.forall_mem_nil _)
  | append_singleton events e ih =>
    rw [run_concat]
    -- a server that has stopped does nothing at the event that is added
    by_cases hphase : (run { options := o } events).1.phase = .stopped
    · obtain ⟨hafter, -, hnothing⟩ :=
        step_of_stopped hphase ((agrees_run o events 0).at_rest hphase) e
      rw [Returning, decide_eq_true hphase] at ih
      rw [hnothing, List.append_nil, Returning, decide_eq_true hafter]
      exact ih
    · -- until then nothing that was done has stopped it
      rw [Returning, decide_eq_false hphase] at ih
      exact ih.append (returning_step _ hphase e)

/-- A server is at its end once it was told to stop and has no connection in flight. -/
theorem phase_eq_stopped_iff : (run { options := o } events).1.phase = .stopped ↔
    (toldAt? events).isSome = true ∧ (run { options := o } events).1.stages = [] := by
  rw [phase_run]
  cases toldAt? events with
  | none => simp
  | some told => by_cases hstages : (run { options := o } events).1.stages = [] <;> simp [hstages]

end Ends

/-! ### What is cut short -/

section Cuts

variable (o : ServerOptions) (number : Nat)

/-- What is done on a connection in a run is done in one of its steps. -/
theorem mem_acts_run (s : Server) (events : List Event) (act : Act) :
    act ∈ acts number (s.run events).2 ↔ ∃ before e after, events = before ++ e :: after ∧
      act ∈ acts number ((s.run before).1.step e).2 := by
  constructor
  · intro hmem
    induction events using List.reverseRecOn with
    | nil => exact absurd hmem List.not_mem_nil
    | append_singleton events e ih =>
      rw [run_concat, acts_append] at hmem
      rcases List.mem_append.mp hmem with hearlier | hnow
      · -- an earlier event did it; the new one comes behind
        obtain ⟨before, e', after, rfl, hact⟩ := ih hearlier
        exact ⟨before, e', after ++ [e], by simp, hact⟩
      · exact ⟨events, e, [], rfl, hnow⟩
  · -- the act of one event is an act of the run
    rintro ⟨before, e, after, rfl, hact⟩
    simp only [run_append, run, acts_append, List.mem_append]
    exact .inr (.inl hact)

/-- Whether the handler of a connection is cut short at an instant behind a course of events, with
bytes that were not read. -/
structure IsCut (unread : Bytes) (before : List Event) (now : Nat) : Prop where
  /-- The grace period is over now, and was not before. -/
  due : ∃ told, toldAt? before = some told ∧ clock before < told + grace ∧ told + grace ≤ now
  /-- The handler is still running, and its request is not overdue. -/
  running : ∃ stage ∈ slot number (run { options := o } before).1.stages,
    stage.expiry? o now = none ∧ stage.unread = unread

/-- What the stream of a connection brings about cuts none short. -/
private theorem not_aborts_mem_onStream (s : Server) (k : Nat) (e : Stage.Event)
    (unread : Bytes) : .aborts unread ∉ acts number (s.onStream k e).2 := by
  -- an event of another connection does nothing for this one
  by_cases hk : k = number
  · unfold onStream
    cases s.stages.lookup k with
    | none => exact List.not_mem_nil
    | some stage =>
      -- a step of the handler cuts nothing
      have hproceeds := (stage.proceeds_step s.options e).not_aborts_mem unread
      cases hstep : stage.step s.options e with
      | mk next? done =>
        rw [hstep] at hproceeds
        cases next? <;> simpa [hstep, acts_map_does, hk] using hproceeds
  · rw [(onStream_of_ne number s k e hk).2]
    exact List.not_mem_nil

/-- Only the end of the grace period cuts a handler short. -/
theorem aborts_mem_step_iff (before : List Event) (e : Event) (unread : Bytes) :
    .aborts unread ∈ acts number ((run { options := o } before).1.step e).2 ↔
      ∃ now, e = .instant now ∧ IsCut o number unread before now := by
  -- nothing is cut before its time: only the clock can do it
  cases e with
  | connection => simp [Server.step, acts_onConnection]
  | missed failure => simp [Server.step, acts_onMissed]
  | shutdown => simp [Server.step, acts_onShutdown]
  | stream k e =>
    simp only [reduceCtorEq, false_and, exists_false, iff_false]
    exact not_aborts_mem_onStream number _ k e unread
  | instant now =>
    -- whether the grace is over is read off the events, not off the state
    have hagrees := agrees_run o before number
    have hends (hflight : (run { options := o } before).1.stages ≠ []) :=
      hagrees.endsAt_eq hflight now
    rw [(Watch.after_eq number before).2] at hends
    simp only [Server.step, acts_onInstant, List.mem_append, List.mem_filterMap,
      Option.map_eq_some_iff, reduceCtorEq, and_false, exists_false, false_or,
      hagrees.options_eq, Event.instant.injEq, exists_eq_left']
    constructor
    · intro hmem
      -- where nothing is in flight there is nothing to cut
      by_cases hflight : (run { options := o } before).1.stages = []
      · simp [hflight, slot] at hmem
      · rw [hends hflight] at hmem
        cases htold : toldAt? before with
        | none => simp [htold] at hmem
        | some told =>
          -- a connection is left, so the clock was not at the end of the grace before
          have hclock := clock_lt_of_stages o before told htold hflight
          by_cases hdue : told + grace ≤ now
          · simp only [htold, Option.map_some, Option.any_some, hdue, decide_true, if_true,
              List.mem_map, List.mem_filter, Option.isNone_iff_eq_none, Act.aborts.injEq] at hmem
            -- what is cut is in flight and not dropped for being late itself
            obtain ⟨stage, ⟨hstage, hexpiry⟩, hunread⟩ := hmem
            exact ⟨⟨told, htold, hclock, hdue⟩, stage, hstage, hexpiry, hunread⟩
          · simp [htold, hdue] at hmem
    · rintro ⟨⟨told, htold, -, hdue⟩, stage, hstage, hexpiry, rfl⟩
      have hflight : (run { options := o } before).1.stages ≠ [] := by
        intro hnone
        simp [hnone, slot] at hstage
      -- the grace is over, so all that is left and not late is cut
      rw [hends hflight, htold]
      simp only [Option.map_some, Option.any_some, hdue, decide_true, if_true]
      exact List.mem_map_of_mem (List.mem_filter.mpr ⟨hstage, by simp [hexpiry]⟩)

/-- A handler is cut short if and only if it is running at the end of the grace period. -/
theorem aborts_mem_run_iff (events : List Event) (unread : Bytes) :
    .aborts unread ∈ acts number (run { options := o } events).2 ↔
      ∃ before now after, events = before ++ .instant now :: after ∧
        IsCut o number unread before now := by
  simp only [mem_acts_run, aborts_mem_step_iff]
  constructor
  · rintro ⟨before, _, after, hevents, now, rfl, hcut⟩
    exact ⟨before, now, after, hevents, hcut⟩
  · rintro ⟨before, now, after, hevents, hcut⟩
    exact ⟨before, _, after, hevents, now, rfl, hcut⟩

/-- No handler is cut short before the grace period is over. -/
theorem exists_toldAt?_of_aborts (events : List Event) (unread : Bytes)
    (h : .aborts unread ∈ acts number (run { options := o } events).2) :
    ∃ told, toldAt? events = some told ∧ told + grace ≤ clock events := by
  obtain ⟨before, now, after, rfl, ⟨⟨told, htold, -, hdue⟩, -⟩⟩ :=
    (aborts_mem_run_iff o number events unread).mp h
  refine ⟨told, toldAt?_append htold _, hdue.trans ?_⟩
  have hinstant : now ≤ clock (before ++ [.instant now]) := by
    rw [clock_concat]
    exact Nat.le_max_right _ _
  rw [List.append_cons]
  exact hinstant.trans (le_clock_append _ after)

end Cuts

/-! ### All of it -/

/-- How a server ends in a course of events. -/
structure Graceful (o : ServerOptions) (events : List Event) : Prop where
  /-- No connection is taken twice. -/
  once : (taken (run { options := o } events).2).Nodup
  /-- A connection that was taken has one handler, which is running or has ended; any other has
  none. -/
  handled : ∀ number, if number ∈ taken (run { options := o } events).2 then
      Handled (slot number (run { options := o } events).1.stages)
        (acts number (run { options := o } events).2)
    else slot number (run { options := o } events).1.stages = [] ∧
      acts number (run { options := o } events).2 = []
  /-- No connection is taken once the server was told to stop. -/
  closed : ∀ before after, events = before ++ .shutdown :: after →
    taken (run { options := o } events).2 = taken (run { options := o } before).2
  /-- The server returns once it was told to stop and no handler is running. -/
  returns : .stops ∈ (run { options := o } events).2 ↔
    (toldAt? events).isSome = true ∧ (run { options := o } events).1.stages = []
  /-- It returns once, and does nothing afterwards. -/
  last : .stops ∈ (run { options := o } events).2 →
    ∃ done, (run { options := o } events).2 = done ++ [.stops] ∧ .stops ∉ done
  /-- A handler is cut short if and only if it is running when the grace period is over. -/
  cut : ∀ number unread, .aborts unread ∈ acts number (run { options := o } events).2 ↔
    ∃ before now after, events = before ++ .instant now :: after ∧
      IsCut o number unread before now
  /-- If all handlers have ended before, the server returns at once, and none is cut short. -/
  spared : ∀ before after told, events = before ++ after → toldAt? before = some told →
    clock before < told + grace → (run { options := o } before).1.stages = [] →
      .stops ∈ (run { options := o } before).2 ∧
      ∀ number unread, .aborts unread ∉ acts number (run { options := o } events).2
  /-- No handler is running when the grace period is over. -/
  limited : ∀ told, toldAt? events = some told → told + grace ≤ clock events →
    (run { options := o } events).1.stages = []

section Graceful

variable (o : ServerOptions) (events : List Event)

/-- A server returns if and only if it is at its end. -/
theorem stops_mem_run_iff : .stops ∈ (run { options := o } events).2 ↔
    (run { options := o } events).1.phase = .stopped := by
  have hreturning := returning_run o events
  rw [Returning] at hreturning
  generalize (run { options := o } events).2 = effects at hreturning ⊢
  by_cases hphase : (run { options := o } events).1.phase = .stopped
  · rw [decide_eq_true hphase] at hreturning
    -- the last thing that was done is the stop
    refine iff_of_true ?_ hphase
    cases hreturning with
    | ends h hlast =>
      rw [Effect.isStop_iff.mp hlast]
      exact List.mem_append_right _ List.mem_cons_self
  · rw [decide_eq_false hphase] at hreturning
    -- nothing that was done is a stop
    refine iff_of_false (fun hmem => ?_) hphase
    cases hreturning with
    | still h => exact nomatch h _ hmem

/-- A server takes the connections that come before it is told to stop, and no others. -/
theorem taken_run_shutdown (before after : List Event) :
    taken (run { options := o } (before ++ .shutdown :: after)).2 =
      taken (run { options := o } before).2 := by
  rw [taken_run (agrees_start o) rfl, taken_run (agrees_start o) rfl, List.takeWhile_append]
  split
  · rename_i hall
    have hself := (List.takeWhile_prefix fun e : Event => !e.isShutdown).eq_of_length hall
    rw [hself, List.takeWhile_cons_of_neg (by simp [Event.isShutdown]), List.append_nil]
  · rfl

/-- When all handlers end before the grace period is over, none is cut short. -/
theorem spared_run (before after : List Event) (told : Nat) (htold : toldAt? before = some told)
    (hearly : clock before < told + grace)
    (hnone : (run { options := o } before).1.stages = []) :
    .stops ∈ (run { options := o } before).2 ∧
      ∀ number unread, .aborts unread ∉ acts number (run { options := o } (before ++ after)).2 := by
  have hphase : (run { options := o } before).1.phase = .stopped :=
    (phase_eq_stopped_iff o before).mpr ⟨by rw [htold]; rfl, hnone⟩
  refine ⟨(stops_mem_run_iff o before).mpr hphase, fun number unread hmem => ?_⟩
  -- nothing is done afterwards, so it was done before
  rw [run_append, run_of_stopped hphase hnone, List.append_nil] at hmem
  obtain ⟨told', htold', hlate⟩ := exists_toldAt?_of_aborts o number before unread hmem
  rw [htold] at htold'
  cases htold'
  exact absurd hlate (Nat.not_le.mpr hearly)

/-- Whatever happens at a server, it ends gracefully. -/
theorem graceful_run : Graceful o events where
  once := by
    -- the numbers are given out in order
    rw [taken_eq_range]
    exact List.nodup_range
  handled := handled_run o events
  closed before after hevents := by rw [hevents, taken_run_shutdown]
  returns := (stops_mem_run_iff o events).trans (phase_eq_stopped_iff o events)
  last hstops := by
    -- the effects end with the stop, and there is none before it
    have hreturning := returning_run o events
    rw [Returning, decide_eq_true ((stops_mem_run_iff o events).mp hstops)] at hreturning
    generalize (run { options := o } events).2 = effects at hreturning ⊢
    cases hreturning with
    | @ends done last h hlast =>
      rw [Effect.isStop_iff.mp hlast]
      exact ⟨done, rfl, fun hmem => nomatch h _ hmem⟩
  cut number unread := aborts_mem_run_iff o number events unread
  spared before after told hevents htold hearly hnone := by
    rw [hevents]
    exact spared_run o before after told htold hearly hnone
  limited told htold hlate := by
    -- a connection that is left keeps the clock short of the end of the grace
    by_contra hflight
    exact absurd hlate (Nat.not_le.mpr (clock_lt_of_stages o events told htold hflight))

end Graceful

/-- Of two connections one is over within the grace period, and the other one is cut short. -/
example :
    let effects := (run { options := { framing := .newline, readTimeout := none } }
      [.connection, .connection, .shutdown, .connection, .stream 0 (.arrives .closed),
        .instant 4999, .instant 5000]).2
    taken effects = [0, 1] ∧ (acts 0 effects).length = 1 ∧ acts 1 effects = [.aborts []] :=
  ⟨by decide, by decide, rfl⟩

end OneShot.Server
