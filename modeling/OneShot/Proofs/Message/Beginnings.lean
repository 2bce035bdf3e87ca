import OneShot.Proofs.Message.Language

/-!
# Beginnings of messages

The machine of `Json.Skip` takes a message as one value, and no beginning of it: from the opening
bracket on it is inside the value until the closing one. So a beginning of a payload either holds
the whole message or is no message at all, and in the latter case it counts as unfinished unless it
ends where a number needs a digit.

## Key results

- `reach_of_spells`: the machine takes a message as one value
- `beginning_cases`: what a beginning of a payload comes to
-/

namespace OneShot.Message

open Json
open Json.Skip
open Json.StringBody (Denotes)

/-! ### The machine over a message -/

/-- The machine takes a message as one value, which its first byte opens. -/
theorem reach_of_spells (a : Bytes) (m : Message) (h : Spells a m) :
    ∃ b tail c, a = b :: tail ∧ step start b = .next ⟨opened c, [c]⟩ ∧
      reach ⟨opened c, [c]⟩ tail = some ⟨.afterValue, []⟩ := by
  -- the machine passes over the row of members, or of the two values
  cases (spells_iff a m).mp h with
  | @object row members _ hrow h =>
    refine ⟨openBrace, _, .object, rfl, rfl, ?_⟩
    refine reach_row (Pair Denotes) .object [] _ true members row hrow ?_ (.inl ⟨rfl, rfl⟩)
    -- a member is a key and a value, and the machine takes both
    intro p hp item hitem start hstart
    have hvalue := exists_reach_wellFormed [.object] p.2 (h.wellFormed p hp)
    exact exists_reach_pair Denotes _ start p item hitem (fun _ => quotable_of_unescapes) hvalue hstart
  | @list row t i _ hrow ht hi =>
    refine ⟨openBracket, _, .list, rfl, rfl, ?_⟩
    refine reach_row Eq .list [] _ true [t, i] row hrow ?_ (.inl ⟨rfl, rfl⟩)
    -- the text and the identifier are values
    have hvalues : ∀ v ∈ [t, i], WellFormed v := by
      simp [wellFormed_of_stringLiteral ht, wellFormed_of_integerLiteral hi]
    rintro v hv _ rfl start hstart
    rw [reach_element start _ v (hvalues v hv) hstart]
    exact exists_reach_wellFormed [.list] v (hvalues v hv)

/-- The machine takes a message behind white space. -/
private theorem reach_spaces_spells (u a : Bytes) (m : Message) (hu : Spaces u) (ha : Spells a m) :
    reach start (u ++ a) = some ⟨.afterValue, []⟩ := by
  obtain ⟨b, tail, c, rfl, hstep, hreach⟩ := reach_of_spells a m ha
  rw [show start = ⟨.value, []⟩ from rfl, reach_space_append _ _ _ _ hu (by simp)]
  exact (reach_cons_of_step _ _ b tail hstep).trans hreach

/-! ### Beginnings -/

/-- What is read as a message is passed over as one value, up to the white space behind it. -/
theorem exists_skip_of_decode (payload : Bytes) (m : Message) (h : decode payload = .ok m) :
    ∃ v, Spaces v ∧ skip payload = .ok v := by
  obtain ⟨u, a, v, hu, ha, hv, rfl⟩ := (decode_eq_ok_iff payload m).mp h
  refine ⟨v, hv, ?_⟩
  rw [← List.append_assoc, skip, run_append_of_reach _ _ _ v (reach_spaces_spells u a m hu ha)]
  cases v <;> rfl

/-- What is read as a message counts as finished. -/
theorem isPrefix_of_decode (payload : Bytes) (m : Message) (h : decode payload = .ok m) :
    isPrefix payload = false := by
  obtain ⟨v, -, hskip⟩ := exists_skip_of_decode payload m h
  rw [isPrefix, hskip]

/-- A message leaves the machine after a value in no container, if it is not stopped by then. -/
theorem eq_of_reach_of_decode (payload : Bytes) (m : Message) (t : State)
    (h : decode payload = .ok m) (hreach : reach start payload = some t) :
    t = ⟨.afterValue, []⟩ := by
  obtain ⟨u, a, v, hu, ha, -, rfl⟩ := (decode_eq_ok_iff payload m).mp h
  rw [← List.append_assoc, reach_append, reach_spaces_spells u a m hu ha, Option.bind_some] at hreach
  cases v with
  | nil => exact (Option.some.inj hreach).symm
  | cons b v =>
    -- white space after the message makes the machine stop
    cases hreach

/-- A message that lacks bytes leaves the machine where the value is unfinished. -/
private theorem atEnd_of_append (u a p q : Bytes) (m : Message) (hu : Spaces u) (ha : Spells a m)
    (hq : q ≠ []) (h : u ++ a = p ++ q) : ∃ t, reach start p = some t ∧ atEnd t ≠ none := by
  -- the beginning ends behind the white space or inside it
  rcases List.append_eq_append_iff.mp h with ⟨p', rfl, rfl⟩ | ⟨u', rfl, -⟩
  · cases p' with
    -- nothing of the value has come
    | nil =>
      refine ⟨start, ?_, atEnd_start_ne_none⟩
      rw [List.append_nil]
      exact reach_spaces start u hu fun b hb => step_space .value [] b hb (by simp)
    | cons b p' =>
      obtain ⟨b', tail, c, hcons, hstep, hreach⟩ := reach_of_spells _ m ha
      obtain ⟨rfl, rfl⟩ := List.cons.inj hcons
      obtain ⟨t, hp, hq'⟩ := exists_reach_of_append _ _ p' q hreach
      refine ⟨t, ?_, ?_⟩
      · rw [show start = ⟨.value, []⟩ from rfl, reach_space_append _ _ _ _ hu (by simp)]
        exact (reach_cons_of_step _ _ b p' hstep).trans hp
      · -- inside the value only its end is whole, and there the machine takes no more bytes
        intro hend
        have hinside : t.Inside := (inside_opened c []).reach hp
        obtain ⟨mode, around⟩ := t
        obtain ⟨-, rfl⟩ := (atEnd_eq_none_iff _).mp hend
        obtain rfl : mode = .afterValue := hinside rfl
        cases q with
        | nil => exact hq rfl
        | cons d q => cases hq'
  · -- the beginning is white space alone
    refine ⟨start, ?_, atEnd_start_ne_none⟩
    exact reach_spaces start p ((spaces_append p u').mp hu).1 fun b hb =>
      step_space .value [] b hb (by simp)

/-- A beginning of a payload holds the whole message or is no message at all. Then it counts as
unfinished, unless a number needs a digit where it ends. -/
theorem beginning_cases (payload p : Bytes) (m : Message) (h : decode payload = .ok m)
    (hp : p <+: payload) :
    decode p = .ok m ∨
      ((∀ m', decode p ≠ .ok m') ∧ p.length < payload.length ∧ isPrefix p = !owesDigit p) := by
  obtain ⟨u, a, v, hu, ha, hv, rfl⟩ := (decode_eq_ok_iff payload m).mp h
  have hua : u ++ a <+: u ++ (a ++ v) := ⟨v, List.append_assoc u a v⟩
  -- it ends inside the message or in the white space behind it
  rcases Nat.lt_or_ge p.length (u ++ a).length with hlt | hge
  · obtain ⟨q, hq⟩ := List.prefix_of_prefix_length_le hp hua (by omega)
    have hne : q ≠ [] := by
      rintro rfl
      rw [← hq, List.append_nil] at hlt
      omega
    -- inside the message the machine is on its way, and no message is over there
    obtain ⟨t, hreach, hend⟩ := atEnd_of_append u a p q m hu ha hne hq.symm
    refine .inr ⟨fun m' hm' => hend (by rw [eq_of_reach_of_decode p m' t hm' hreach]; rfl), ?_, ?_⟩
    · have := hua.length_le
      omega
    · have hiff := isPrefix_iff_of_reach p t hreach
      simp only [owesDigit, hreach]
      cases howes : t.mode.owesDigit <;> simp_all
  · obtain ⟨w, rfl⟩ := List.prefix_of_prefix_length_le hua hp hge
    rw [List.append_assoc, List.prefix_append_right_inj, List.prefix_append_right_inj] at hp
    -- what is left of the white space behind it is white space
    refine .inl ((decode_eq_ok_iff _ m).mpr ⟨u, a, w, hu, ha, ?_, List.append_assoc u a w⟩)
    exact fun b hb => hv b (hp.subset hb)

/-- After a message no number needs a digit, whatever comes. -/
theorem owesDigit_append_of_decode (payload rest : Bytes) (m : Message)
    (h : decode payload = .ok m) : owesDigit (payload ++ rest) = false := by
  simp only [owesDigit]
  split
  · rename_i t hreach
    obtain ⟨s, hpayload, hrest⟩ := exists_reach_of_append start t payload rest hreach
    -- behind an accepted payload the value is over, and no byte is taken
    obtain rfl := eq_of_reach_of_decode payload m s h hpayload
    cases rest with
    | nil =>
      rw [← Option.some.inj hrest]
      rfl
    | cons b rest => cases hrest
  · rfl

end OneShot.Message
