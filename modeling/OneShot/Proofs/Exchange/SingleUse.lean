import OneShot.Proofs.Exchange.Lifecycle

/-!
# One exchange on a connection

Over a whole run a connection lets `connect`, `send` and `receive` through at most once each, and in
this order. What is still ahead of a connection, `CallState.ahead`, only gets shorter: an operation
that is let through leaves it, and nothing ever puts one back. As only a send that was let through
writes and only a reception that was let through reads, all bytes that are written belong to one
request and all bytes that are read to one reply.

## Key results

- `admitted_run_prefix`: what a run lets through was ahead of the connection, in this order
- `flatMap_of_admitted`: what belongs to one operation happens in one turn
- `singleUse_run`: a connection carries at most one request and one reply
-/

namespace OneShot.Connection

/-! ### The order of a run -/

/-- What a run lets through was ahead of the connection, in this order. -/
theorem admitted_run_prefix (c : Connection) (steps : List Step) :
    (c.run steps).filterMap Turn.admitted <+: c.state.ahead := by
  -- induction on the steps: what the first one lets through is not ahead of the others any more
  induction steps generalizing c with
  | nil => exact List.nil_prefix
  | cons step rest ih =>
    -- what one turn lets through is one operation or none
    have hcons : ∀ turns, (⟨c, step⟩ :: turns).filterMap Turn.admitted =
        (step.admitted c.state).toList ++ turns.filterMap Turn.admitted := by
      intro turns
      cases hadmitted : step.admitted c.state with
      | none => exact List.filterMap_cons_none hadmitted
      | some operation => exact List.filterMap_cons_some hadmitted
    by_cases hstep : (c.perform step).outcome = .waiting
    · rw [run_cons_of_waiting c step rest hstep, hcons, List.filterMap_nil, List.append_nil]
      exact step.admitted_prefix c.state
    · rw [run_cons_of_returns c step rest hstep, hcons]
      exact ((List.prefix_append_right_inj _).mpr (ih _)).trans
        (Transition.ahead_prefix (Transition.of_perform c step) hstep)

/-- The turns of a run are steps of it, and the options are those of the connection. -/
theorem mem_run (c : Connection) (steps : List Step) :
    ∀ t ∈ c.run steps, t.step ∈ steps ∧ t.before.options = c.options := by
  -- induction on the steps: the run goes on only from a step that returns
  induction steps generalizing c with
  | nil => exact fun t ht => absurd ht List.not_mem_nil
  | cons step rest ih =>
    intro t ht
    by_cases hstep : (c.perform step).outcome = .waiting
    · -- the run ends with this step
      rw [run_cons_of_waiting c step rest hstep, List.mem_singleton] at ht
      rw [ht]
      exact ⟨List.mem_cons_self, rfl⟩
    · rw [run_cons_of_returns c step rest hstep] at ht
      rcases List.mem_cons.mp ht with rfl | ht
      · exact ⟨List.mem_cons_self, rfl⟩
      · obtain ⟨hmem, hoptions⟩ := ih _ t ht
        exact ⟨List.mem_cons_of_mem _ hmem,
          hoptions.trans (Transition.of_perform c step).options_eq⟩

/-- Once a call is over, a run lets nothing through. -/
theorem admitted_eq_none_of_terminal (c : Connection) (steps : List Step)
    (h : c.state.isTerminal = true) : ∀ t ∈ c.run steps, t.admitted = none := by
  have hpart := admitted_run_prefix c steps
  rw [c.state.ahead_of_isTerminal h, List.prefix_nil, List.filterMap_eq_nil_iff] at hpart
  exact hpart

/-! ### What belongs to one operation -/

section Parts

variable {α : Type} (part : Turn → List α) (operation : Operation)

/-- A turn whose operation was not let through has no part that belongs to an operation. -/
private theorem part_eq_nil (hpart : ∀ t, part t ≠ [] → t.admitted = some operation) (t : Turn)
    (h : t.admitted ≠ some operation) : part t = [] := by
  by_contra hne
  exact h (hpart t hne)

/-- What belongs to an operation that is let through at most once happens in one turn. -/
theorem flatMap_of_admitted (hpart : ∀ t, part t ≠ [] → t.admitted = some operation)
    (turns : List Turn) (honce : (turns.filterMap Turn.admitted).Nodup) :
    turns.flatMap part = [] ∨ ∃ t ∈ turns, turns.flatMap part = part t := by
  -- induction on the turns: at most one of them has the operation let through
  induction turns with
  | nil => exact .inl rfl
  | cons t turns ih =>
    rw [List.flatMap_cons]
    by_cases hadmitted : t.admitted = some operation
    · -- the operation was let through in the first turn, so it is not in the others
      rw [List.filterMap_cons_some hadmitted, List.nodup_cons] at honce
      have hothers : turns.flatMap part = [] := by
        rw [List.flatMap_eq_nil_iff]
        intro t' ht'
        refine part_eq_nil part operation hpart t' fun hadmitted' => honce.1 ?_
        exact List.mem_filterMap.mpr ⟨t', ht', hadmitted'⟩
      exact .inr ⟨t, List.mem_cons_self, by rw [hothers, List.append_nil]⟩
    · -- the operation was not let through in the first turn, so the part is in the others
      have hlater : (turns.filterMap Turn.admitted).Nodup := by
        refine honce.sublist ?_
        rw [List.filterMap_cons]
        split
        · exact List.Sublist.refl _
        · exact List.sublist_cons_self _ _
      rw [part_eq_nil part operation hpart t hadmitted, List.nil_append]
      rcases ih hlater with hnil | ⟨t', ht', heq⟩
      · exact .inl hnil
      · exact .inr ⟨t', List.mem_cons_of_mem _ ht', heq⟩

end Parts

/-- Once a call is over, nothing is written and nothing is read. -/
theorem pairwise_silent_run (c : Connection) (steps : List Step) :
    (c.run steps).Pairwise fun earlier later =>
      earlier.after.state.isTerminal = true → later.written = [] ∧ later.read = [] := by
  -- induction on the steps: if the first one ends the call, nothing is let through after it
  induction steps generalizing c with
  | nil => exact List.Pairwise.nil
  | cons step rest ih =>
    by_cases hstep : (c.perform step).outcome = .waiting
    · rw [run_cons_of_waiting c step rest hstep]
      exact List.pairwise_singleton _ _
    · rw [run_cons_of_returns c step rest hstep, List.pairwise_cons]
      refine ⟨fun later hlater hterminal => ?_, ih _⟩
      -- a later turn lets nothing through, so it writes and reads nothing
      have hnone := admitted_eq_none_of_terminal _ rest hterminal later hlater
      exact ⟨part_eq_nil Turn.written .send Turn.admitted_of_written later (by simp [hnone]),
        part_eq_nil Turn.read .receive Turn.admitted_of_read later (by simp [hnone])⟩

/-! ### All of it -/

/-- What a run does that carries at most one exchange. -/
structure SingleUse (f : Framing) (steps : List Step) (turns : List Turn) : Prop where
  /-- A call is refused exactly if it comes in another state than its operation requires, and it
  names both. -/
  refused_iff : ∀ t ∈ turns, ∀ operation state,
    t.outcome = .error (.invalidState operation state) ↔
      t.step.operation? = some operation ∧ t.before.state = state ∧ state ≠ operation.required
  /-- A call that is refused changes nothing. -/
  refused_unchanged : ∀ t ∈ turns, ∀ operation state,
    t.outcome = .error (.invalidState operation state) →
      t.after = t.before ∧ t.written = [] ∧ t.read = []
  /-- Each operation is let through at most once, in this order. -/
  in_order : turns.filterMap Turn.admitted <+: [.connect, .send, .receive]
  /-- All that is written is a beginning of one frame. -/
  one_request : turns.flatMap Turn.written = [] ∨
    ∃ writer request frame, .send writer request ∈ steps ∧ f.encode request.encode = .ok frame ∧
      turns.flatMap Turn.written <+: frame
  /-- All that is read is a beginning of what arrives in one reception, which returns at most one
  reply. -/
  one_reply : turns.flatMap Turn.read = [] ∨
    ∃ course, .receive course ∈ steps ∧ turns.flatMap Turn.read <+: Course.arrived course
  replies_le : (turns.filterMap Turn.reply?).length ≤ 1
  /-- Once the call is over, nothing is written and nothing is read. -/
  silent : turns.Pairwise fun earlier later =>
    earlier.after.state = .completed ∨ earlier.after.state = .failed →
      later.written = [] ∧ later.read = []

/-- Whatever is called on a fresh connection, and whatever comes of it: an operation out of order is
refused and changes nothing, and each of the others is let through at most once, in order. So at
most one request is written, at most one reply is read, and nothing of either once the call is
over. -/
theorem singleUse_run (client : Client) (steps : List Step) :
    SingleUse client.options.framing steps (client.connection.run steps) := by
  -- each operation is let through at most once, and in this order
  have horder : (client.connection.run steps).filterMap Turn.admitted <+:
      [.connect, .send, .receive] := admitted_run_prefix client.connection steps
  have honce : ((client.connection.run steps).filterMap Turn.admitted).Nodup :=
    List.Nodup.sublist horder.sublist (by decide)
  have hmem := mem_run client.connection steps
  refine ⟨?_, ?_, horder, ?_, ?_, ?_, ?_⟩
  · exact fun t _ operation state => t.transition.outcome_eq_invalidState_iff operation state
  · intro t _ operation state hrefused
    obtain ⟨hafter, hwritten, hpassed⟩ := t.transition.eq_of_invalidState operation state hrefused
    refine ⟨hafter, hwritten, ?_⟩
    rw [Turn.read, hpassed]
    rfl
  · -- all that was written was written by one send
    rw [or_iff_not_imp_left]
    intro hne
    obtain ⟨t, ht, hall⟩ :=
      (flatMap_of_admitted Turn.written .send Turn.admitted_of_written _ honce).resolve_left hne
    rw [hall] at hne ⊢
    obtain ⟨writer, request, frame, hstep, hencode, hpart⟩ := t.exists_of_written hne
    rw [(hmem t ht).2] at hencode
    exact ⟨writer, request, frame, hstep ▸ (hmem t ht).1, hencode, hpart⟩
  · -- all that was read was read by one reception
    rw [or_iff_not_imp_left]
    intro hne
    obtain ⟨t, ht, hall⟩ :=
      (flatMap_of_admitted Turn.read .receive Turn.admitted_of_read _ honce).resolve_left hne
    rw [hall] at hne ⊢
    obtain ⟨course, hstep, hpart⟩ := t.exists_of_read hne
    exact ⟨course, hstep ▸ (hmem t ht).1, hpart⟩
  · -- a reply comes from a reception, and there is one at most
    rw [List.filterMap_eq_flatMap_toList]
    have hreply : ∀ t : Turn, t.reply?.toList ≠ [] → t.admitted = some .receive := by
      intro t hne
      exact t.admitted_of_reply? fun hnone => hne (by rw [hnone]; rfl)
    rcases flatMap_of_admitted (·.reply?.toList) .receive hreply _ honce with hnil | ⟨t, -, hall⟩
    · rw [hnil]
      exact Nat.zero_le 1
    · rw [hall]
      exact Option.length_toList_le
  · refine (pairwise_silent_run client.connection steps).imp fun hsilent hterminal => hsilent ?_
    rcases hterminal with hstate | hstate <;> rw [hstate] <;> rfl

end OneShot.Connection
