import OneShot.Proofs.Server.Isolation

/-!
# The handlers of a server

A connection that was taken has one handler. It is running as long as the connection has a stage;
then the connection is closed or cut short, and nothing is done on it any more.

## Key results

- `Stage.proceeds_step`: what comes on a connection leaves it open, or closes it
- `ServerOptions.conclusive_serve`: a connection has one end, with which it is over
- `Server.taken_eq_range`: the connections that were taken are numbered in their order
- `Server.handled_run`: a connection that was taken has one handler, and any other has none
-/

namespace OneShot

/-! ### What comes last -/

namespace Server

/-- A list in which nothing is an end, unless it is over: then its last element is one. -/
inductive Concludes {α : Type} (p : α → Bool) : Bool → List α → Prop where
  | still {xs : List α} (h : ∀ x ∈ xs, p x = false) : Concludes p false xs
  | ends {xs : List α} {last : α} (h : ∀ x ∈ xs, p x = false) (hlast : p last = true) :
      Concludes p true (xs ++ [last])

theorem Concludes.append {α : Type} {p : α → Bool} {ended : Bool} {xs ys : List α}
    (hxs : Concludes p false xs) (hys : Concludes p ended ys) : Concludes p ended (xs ++ ys) := by
  cases hxs with
  | still hfirst =>
    cases hys with
    | still hrest => exact .still (List.forall_mem_append.mpr ⟨hfirst, hrest⟩)
    | ends hrest hlast =>
      rw [← List.append_assoc]
      exact .ends (List.forall_mem_append.mpr ⟨hfirst, hrest⟩) hlast

theorem Concludes.single {α : Type} {p : α → Bool} {last : α} (h : p last = true) :
    Concludes p true [last] := @ends α p [] last (List.forall_mem_nil _) h

end Server

/-! ### Handlers and their ends -/

namespace Stage

/-- Whether a connection is over with what is done on it. -/
def Act.isEnd : Act → Bool
  | .closes _ => true
  | .aborts _ => true
  | _ => false

/-- What is done on a connection ends with its end, if it has one. -/
def Conclusive (result : Option Stage × List Act) : Prop :=
  Server.Concludes Act.isEnd result.1.isNone result.2

/-- What comes of a connection that goes on, or is closed. -/
inductive Proceeds : Option Stage × List Act → Prop where
  | on (next : Stage) {done : List Act} (h : ∀ act ∈ done, act.isEnd = false) :
      Proceeds (some next, done)
  | closed (c : Closing) {done : List Act} (h : ∀ act ∈ done, act.isEnd = false) :
      Proceeds (none, done ++ [.closes c])

namespace Proceeds

theorem still (next : Stage) : Proceeds (some next, []) := .on next (List.forall_mem_nil _)

theorem closes (c : Closing) : Proceeds (none, [.closes c]) :=
  @closed c [] (List.forall_mem_nil _)

theorem conclusive {result : Option Stage × List Act} (h : Proceeds result) :
    Conclusive result := by
  cases h with
  | on next h => exact .still h
  | closed c h => exact .ends h rfl

theorem not_aborts_mem {result : Option Stage × List Act} (h : Proceeds result)
    (unread : Bytes) : .aborts unread ∉ result.2 := by
  cases h with
  | on next h => exact fun hmem => nomatch h _ hmem
  | closed c h =>
    intro hmem
    rcases List.mem_append.mp hmem with hmem | hmem
    · exact nomatch h _ hmem
    · simp at hmem

end Proceeds

theorem proceeds_start (o : ServerOptions) (payload unread : Bytes) :
    Proceeds (start o payload unread) := by
  unfold start
  cases o.prepare payload unread with
  | ok p => exact .on _ (by simp [Act.isEnd])
  | error c => exact .closed c (by simp [Act.isEnd])

theorem proceeds_onTake (p : Sending) (answer : Writer.Answer) :
    Proceeds (onTake p answer) := by
  cases answer with
  | fails failure => exact .closes _
  | takes count =>
    simp only [onTake]
    split
    · exact .closes _
    · exact .on _ (by simp [Act.isEnd])

/-- What the stream of a connection brings about leaves it open, or closes it. -/
theorem proceeds_step (o : ServerOptions) (stage : Stage) (e : Event) :
    Proceeds (stage.step o e) := by
  -- a handler reads until it has a request or fails; a reply goes out until it is flushed or fails
  cases stage with
  | reading h =>
    cases e with
    | arrives a =>
      simp only [step]
      cases h.read o a with
      | waiting h => exact .still _
      | request payload unread => exact proceeds_start o payload unread
      -- reading failed
      | done c => exact .closes c
    | takes answer => exact .still _
    | flushes result => exact .still _
  | sending p =>
    cases e with
    | arrives a => cases a <;> exact .still _
    | takes answer =>
      simp only [step]
      split
      · exact .still _
      · -- bytes are left, and the writer answers for them
        exact proceeds_onTake p answer
    | flushes result =>
      simp only [step]
      split
      · exact .closes _
      · exact .still _

end Stage

namespace ServerOptions

open Stage (Conclusive)

theorem conclusive_meet (o : ServerOptions) (stage : Stage) (i : Incident) :
    Conclusive (o.meet stage i) := by
  have hnothing : Conclusive (some stage, []) := .still (List.forall_mem_nil _)
  cases i with
  | stream e => exact (stage.proceeds_step o e).conclusive
  | clock overdue ends =>
    cases stage with
    | reading h => cases overdue <;> cases ends <;> first | exact hnothing | exact .single rfl
    | sending p => cases overdue <;> cases ends <;> first | exact hnothing | exact .single rfl

/-- However long a connection goes on, it has one end, and nothing is done on it afterwards. -/
theorem conclusive_serve (o : ServerOptions) (stage : Stage) (seen : List Incident) :
    Conclusive (o.serve stage seen) := by
  -- induction on the incidents: a connection closes at most once, and last
  induction seen generalizing stage with
  | nil => exact .still (List.forall_mem_nil _)
  | cons i seen ih =>
    have hfirst := o.conclusive_meet stage i
    rw [serve]
    cases hmeet : o.meet stage i with
    | mk next? done =>
      rw [hmeet] at hfirst
      cases next? with
      -- the connection is over, and the later incidents are not looked at
      | none => exact hfirst
      | some next => exact hfirst.append (ih next)

end ServerOptions

namespace Server

open Stage (Act)

section Handlers

variable (o : ServerOptions) (events : List Event)

/-- One event more. -/
theorem run_concat (s : Server) (events : List Event) (e : Event) :
    s.run (events ++ [e]) =
      (((s.run events).1.step e).1, (s.run events).2 ++ ((s.run events).1.step e).2) := by
  simp [run_append, run]

theorem Watch.after_concat (number : Nat) (v : Watch) (events : List Event) (e : Event) :
    v.after number (events ++ [e]) = (v.after number events).step number e := by
  simp [Watch.after]

/-- Whatever happens, the watch of a connection shows the server. -/
theorem agrees_run (number : Nat) :
    Agrees o (run { options := o } events).1 (Watch.after number {} events) := by
  induction events using List.reverseRecOn with
  | nil => exact agrees_start o
  | append_singleton events e ih =>
    rw [run_concat, Watch.after_concat]
    exact ih.step number e

@[simp] theorem settle_accepted (s : Server) : s.settle.1.accepted = s.accepted := by
  rcases s.settle_cases with h | ⟨-, -, h⟩ <;> rw [h]

/-- A server counts the connections that it takes. -/
theorem accepted_step (s : Server) (e : Event) :
    (s.step e).1.accepted = s.accepted + (taken (s.step e).2).length := by
  rw [taken_step]
  -- only a connection at an open door is counted
  cases e with
  | connection =>
    simp only [Server.step, onConnection]
    cases s.phase <;> simp [Event.isConnection]
  | missed failure => simp [Server.step, Event.isConnection]
  | stream k e =>
    simp only [Server.step, onStream]
    cases s.stages.lookup k with
    | none => simp [Event.isConnection]
    | some stage =>
      cases hstep : stage.step s.options e with
      | mk next? done =>
        cases next? <;> simp [hstep, Event.isConnection, withStage, without]
  | shutdown =>
    simp only [Server.step, onShutdown]
    cases s.phase <;> simp [Event.isConnection]
  -- the clock drops connections and takes none
  | instant now =>
    simp only [Server.step, onInstant]
    cases s.phase with
    | accepting => simp [Event.isConnection]
    | stopped => simp [Event.isConnection]
    | draining stopAt => by_cases hends : stopAt ≤ now <;> simp [hends, Event.isConnection]

/-- The connections that were taken are numbered in their order. -/
theorem taken_eq_range :
    taken (run { options := o } events).2 = List.range (run { options := o } events).1.accepted := by
  induction events using List.reverseRecOn with
  | nil => rfl
  | append_singleton events e ih =>
    rw [run_concat, taken_append, ih, accepted_step, taken_step]
    split
    · exact List.range_succ.symm
    · exact List.append_nil _

/-- A connection that was not taken meets nothing. -/
theorem Watch.received_of_since?_none (number : Nat)
    (h : (Watch.after number {} events).since? = none) :
    Watch.received o number {} events = [] := by
  induction events using List.reverseRecOn with
  | nil => rfl
  | append_singleton events e ih =>
    rw [Watch.after_concat] at h
    -- a connection that was taken remains so
    have hbefore : (Watch.after number {} events).since? = none := by
      cases e with
      -- only a connection that comes now could take the number
      | connection =>
        simp only [Watch.step] at h
        split at h
        · simp only at h
          split at h
          · cases h
          · exact h
        · exact h
      | missed failure => exact h
      | stream k e => exact h
      | shutdown => exact h
      | instant now => exact h
    -- before it is taken no event is an incident of it
    rw [Watch.received_append, ih hbefore]
    cases e <;> simp [Watch.received, Watch.incident?, hbefore]

/-- The handler of a connection that was taken: its stage, and what it has done. -/
inductive Handled : List Stage → List Act → Prop where
  /-- It is running. -/
  | running (stage : Stage) {done : List Act} (h : ∀ act ∈ done, act.isEnd = false) :
      Handled [stage] done
  /-- It has ended, and nothing is done any more. -/
  | ended {last : Act} {done : List Act} (h : ∀ act ∈ done, act.isEnd = false)
      (hlast : last.isEnd = true) : Handled [] (done ++ [last])

/-- A connection that was taken has one handler, and any other connection has none. -/
theorem handled_run (number : Nat) :
    if number ∈ taken (run { options := o } events).2 then
      Handled (slot number (run { options := o } events).1.stages)
        (acts number (run { options := o } events).2)
    else slot number (run { options := o } events).1.stages = [] ∧
      acts number (run { options := o } events).2 = [] := by
  obtain ⟨hstands, hacts⟩ := (place_start o number).run (agrees_start o) events
  have hconclusive := o.conclusive_serve Stage.opened (Watch.received o number {} events)
  -- a number is taken if fewer connections than it were counted before
  have htaken : number ∈ taken (run { options := o } events).2 ↔
      number < (Watch.after number {} events).accepted := by
    rw [taken_eq_range, List.mem_range, (agrees_run o events number).accepted_eq]
  rw [Stage.Conclusive, ← hacts] at hconclusive
  -- the connection is over, is not taken yet, or is still in flight
  cases hnext : (o.serve Stage.opened (Watch.received o number {} events)).1 with
  | none =>
    rw [hnext] at hstands hconclusive
    rw [if_pos (htaken.mpr hstands.accepted), hstands.slot_eq]
    generalize acts number (run { options := o } events).2 = done at hconclusive
    cases hconclusive with
    | ends h hlast => exact .ended h hlast
  | some stage =>
    rw [hnext] at hstands hconclusive
    cases hstands with
    | ahead hsince haccepted hslot =>
      -- nobody came under this number, so it was served nothing
      rw [if_neg (fun h => absurd (htaken.mp h) (Nat.not_lt.mpr haccepted)), hacts,
        Watch.received_of_since?_none o events number hsince]
      exact ⟨hslot, rfl⟩
    | taken since stage hsince haccepted hslot =>
      rw [if_pos (htaken.mpr haccepted), hslot]
      cases hconclusive with
      | still h => exact .running _ h

end Handlers

end Server

end OneShot
