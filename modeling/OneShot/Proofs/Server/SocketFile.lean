import Mathlib.Data.List.Induction
import OneShot.Config
import OneShot.Proofs.Socket.Files
import OneShot.Server.SharedPath

/-!
# Who is reached at a shared path

A server that listens can be reached at its path until another one removes its socket, and never
again afterwards. The one that removes it may well be an earlier one that is on its way out.

## Key results

- `advance_cases`: what a step of a server does to the files
- `holds_step`, `Lost.step`: what a step does to the socket of another server
- `reaches_iff_undisturbed`: when a server that listens can be reached at its path
- `not_reaches_after_exit`: an earlier server takes the socket of a later one away
-/

namespace OneShot

namespace Tenure

/-- What a step of a server can do. -/
inductive Advance (listener : Nat) (path : Bytes) (t : Tenure) (fs : FileSystem) :
    Tenure × FileSystem → Prop where
  /-- It leaves the files as they are; if it should remove something, that has failed. -/
  | still (t' : Tenure) (hlisten : t' = .listening ↔ t = .listening)
      (hfails : t.isRemoving = true → ∀ fs', fs.unlink path ≠ .ok fs') :
      Advance listener path t fs (t', fs)
  | removes (t' : Tenure) (fs' : FileSystem) (hremoving : t.isRemoving = true)
      (hlisten : t' ≠ .listening) (hunlink : fs.unlink path = .ok fs') :
      Advance listener path t fs (t', fs')
  | prepares (ht : t = .preparing) :
      Advance listener path t fs (.binding, fs.makeDirectories path)
  | binds (fs' : FileSystem) (ht : t = .binding) (hlisten : fs.listen listener path = .ok fs') :
      Advance listener path t fs (.listening, fs')

theorem advance_cases (listener : Nat) (path : Bytes) (t : Tenure) (fs : FileSystem) :
    Advance listener path t fs (advance listener path (t, fs)) := by
  -- one step of each: two of them remove, one prepares, one binds, and the others leave the files
  cases t with
  | looking =>
    simp only [advance]
    cases look fs path with
    | error failure => exact .still _ (by simp) nofun
    -- something is there, or nothing: neither changes a file
    | ok there => cases there <;> exact .still _ (by simp) nofun
  | clearing =>
    simp only [advance]
    cases hunlink : fs.unlink path with
    | error e => exact .still _ (by simp) (by simp [hunlink])
    | ok fs' => exact .removes _ fs' rfl nofun hunlink
  | preparing => exact .prepares rfl
  | binding =>
    simp only [advance]
    cases hlisten : fs.listen listener path with
    | error failure => exact .still _ (by simp) nofun
    | ok fs' => exact .binds fs' rfl hlisten
  | leaving =>
    simp only [advance]
    cases hunlink : fs.unlink path with
    | error e => exact .still _ (by simp) (by simp [hunlink])
    | ok fs' => exact .removes _ fs' rfl nofun hunlink
  | listening => exact .still _ Iff.rfl nofun
  | gone => exact .still _ Iff.rfl nofun
  | failed e => exact .still _ Iff.rfl nofun

end Tenure

namespace SharedPath

/-- Whether who connects to the path reaches a server. -/
def Reaches (w : SharedPath) (path : Bytes) (listener : Nat) : Prop :=
  w.files.connect path = .ok () ∧ w.files.find path = .ok (.socket (some listener))

/-- Whether a server has no socket anywhere. -/
def Lost (w : SharedPath) (listener : Nat) : Prop := ∀ names, ¬w.files.Has listener names

/-! ### One step -/

section Step

variable {path : Bytes} {w : SharedPath} {i : Nat}

/-- A server that listens goes on to do so until it is told to stop. -/
theorem listening_step {turn : Turn} (h : w.tenure i = .listening) (hturn : turn ≠ .withdraw i) :
    (w.step path turn).tenure i = .listening := by
  cases turn with
  | advance k =>
    by_cases hk : i = k
    · subst hk
      simp [step, h, Tenure.advance]
    · simp [step, hk, h]
  | withdraw k =>
    have hk : i ≠ k := fun hk => hturn (by rw [hk])
    simp [step, hk, h]

/-- A server begins to listen as it puts its socket at the path. -/
theorem of_listening_step {turn : Turn} (h : (w.step path turn).tenure i = .listening) :
    w.tenure i = .listening ∨ turn = .advance i ∧ w.tenure i = .binding ∧
      w.files.listen i path = .ok (w.step path turn).files := by
  cases turn with
  | advance k =>
    -- only a step of its own makes a server listen, and only binding does
    by_cases hk : i = k
    · subst hk
      have hcases := Tenure.advance_cases i path (w.tenure i) w.files
      simp only [step, bring_tenure_self] at h ⊢
      generalize Tenure.advance i path (w.tenure i, w.files) = next at hcases h ⊢
      cases hcases with
      | still t' hlisten hfails => exact .inl (hlisten.mp h)
      | removes t' fs' hremoving hlisten hunlink => exact absurd h hlisten
      | prepares ht => cases h
      | binds fs' ht hlisten => exact .inr ⟨trivial, ht, hlisten⟩
    · -- the step of another server
      exact .inl (by simpa [step, hk] using h)
  | withdraw k =>
    by_cases hk : i = k
    · -- a server that withdraws does not listen afterwards
      subst hk
      simp only [step, bring_tenure_self] at h
      cases ht : w.tenure i <;> simp [ht, Tenure.withdraw] at h
    · exact .inl (by simpa [step, hk] using h)

/-- Who is told to stop leaves its socket with nobody behind it, and nothing else changes. -/
theorem withdraw_cases (k : Nat) : (w.step path (.withdraw k)).files = w.files ∧
      w.tenure k ≠ .listening ∨
    (w.step path (.withdraw k)).files = w.files.abandon k ∧ w.tenure k = .listening := by
  cases ht : w.tenure k <;> simp [step, ht, Tenure.withdraw]

/-- A socket comes only with the server that puts it there, and does not outlive it. -/
theorem has_step {turn : Turn} {names : List Bytes} (h : (w.step path turn).files.Has i names) :
    w.files.Has i names ∧ (w.tenure i = .listening → turn ≠ .withdraw i) ∨
      (w.step path turn).tenure i = .listening ∧ w.tenure i = .binding := by
  cases turn with
  | advance k =>
    have hcases := Tenure.advance_cases k path (w.tenure k) w.files
    simp only [step] at h ⊢
    generalize Tenure.advance k path (w.tenure k, w.files) = next at hcases h ⊢
    -- a step keeps the entries of a server or takes them; only binding adds one
    cases hcases with
    | still t' hlisten hfails => exact .inl ⟨h, nofun⟩
    | removes t' fs' hremoving hlisten hunlink =>
      -- removing adds no entry
      exact .inl ⟨FileSystem.has_unlink hunlink h, nofun⟩
    | prepares ht => exact .inl ⟨FileSystem.has_makeDirectories i w.files h, nofun⟩
    | binds fs' ht hlisten =>
      by_cases hk : i = k
      · -- the new entry is one of the server that binds
        subst hk
        exact .inr ⟨bring_tenure_self .., ht⟩
      · exact .inl ⟨FileSystem.has_listen hlisten hk h, nofun⟩
  | withdraw k =>
    -- a server that listens gives up its entry when it withdraws
    rcases withdraw_cases k with ⟨hsame, ht⟩ | ⟨hgone, ht⟩
    · rw [hsame] at h
      refine .inl ⟨h, fun hlisten hturn => ?_⟩
      cases hturn
      exact ht hlisten
    · rw [hgone] at h
      obtain ⟨hhas, hother⟩ := FileSystem.has_abandon h
      refine .inl ⟨hhas, fun _ hturn => ?_⟩
      cases hturn
      exact hother rfl

/-- A socket that is lost does not come back. -/
theorem Lost.step (h : w.Lost i) (hlisten : w.tenure i = .listening) (turn : Turn) :
    (w.step path turn).Lost i := by
  intro names hhas
  rcases has_step hhas with ⟨hold, -⟩ | ⟨-, hbinding⟩
  · exact h names hold
  · rw [hlisten] at hbinding
    cases hbinding

/-- What a step does to the socket of a server that listens and goes on to do so. -/
theorem holds_step (h : w.files.Holds i path) (turn : Turn)
    (hlisten : w.tenure i = .listening) (hstill : (w.step path turn).tenure i = .listening) :
    (w.removes turn = true → (w.step path turn).Lost i) ∧
      (w.removes turn = false → (w.step path turn).files.Holds i path) := by
  cases turn with
  | advance k =>
    have hcases := Tenure.advance_cases k path (w.tenure k) w.files
    simp only [SharedPath.step, removes, Lost] at hstill ⊢
    generalize Tenure.advance k path (w.tenure k, w.files) = next at hcases ⊢
    -- the entry at the path is the one of this server, so it is what removing removes
    obtain ⟨fs, hremoved, hnone⟩ := h.unlink
    cases hcases with
    | still t' hlisten' hfails =>
      -- an entry is there, so removing cannot fail
      exact ⟨fun hremoving => absurd hremoved (hfails hremoving fs), fun _ => h⟩
    | removes t' fs' hremoving hlisten' hunlink =>
      rw [hremoved] at hunlink
      cases hunlink
      exact ⟨fun _ => hnone, fun hkept => absurd hremoving (by simp [hkept])⟩
    | prepares ht =>
      refine ⟨fun hremoving => by simp [ht, Tenure.isRemoving] at hremoving, fun _ => ?_⟩
      exact h.of_keeps (FileSystem.keeps_makeDirectories i w.files path)
        fun _ => FileSystem.has_makeDirectories i w.files
    | binds fs' ht hlisten' =>
      -- it listens, so the one that binds is another
      have hother : i ≠ k := by
        rintro rfl
        rw [hlisten] at ht
        cases ht
      refine ⟨fun hremoving => by simp [ht, Tenure.isRemoving] at hremoving, fun _ => ?_⟩
      exact h.of_keeps (FileSystem.keeps_listen i hlisten')
        fun _ => FileSystem.has_listen hlisten' hother
  | withdraw k =>
    refine ⟨nofun, fun _ => ?_⟩
    -- another server that withdraws gives up its own entry
    rcases withdraw_cases k with ⟨hsame, -⟩ | ⟨hgone, ht⟩
    · rw [hsame]
      exact h
    · have hother : i ≠ k := by
        rintro rfl
        simp [SharedPath.step, ht, Tenure.withdraw] at hstill
      rw [hgone]
      exact h.of_keeps (FileSystem.keeps_abandon i w.files hother)
        fun _ hhas => (FileSystem.has_abandon hhas).1

end Step

/-! ### All steps -/

section Run

variable (files : FileSystem) (path : Bytes) (turns : List Turn) (i : Nat)

/-- Only a server that listens has a socket. -/
theorem listening_of_has (hfresh : (start files).Lost i) {names : List Bytes}
    (h : ((start files).run path turns).files.Has i names) :
    ((start files).run path turns).tenure i = .listening := by
  induction turns using List.reverseRecOn generalizing names with
  | nil => exact absurd h (hfresh names)
  | append_singleton turns turn ih =>
    rw [run_concat] at h ⊢
    rcases has_step h with ⟨hhas, hturn⟩ | ⟨hlisten, -⟩
    · exact listening_step (ih hhas) (hturn (ih hhas))
    · exact hlisten

/-- From when it begins to listen, the path leads to a server until something is removed there. -/
theorem holds_run (hpath : path ≠ []) (hfresh : (start files).Lost i)
    (hlisten : ((start files).run path turns).tenure i = .listening) :
    addressFailure? path = none ∧ ∃ before after, turns = before ++ .advance i :: after ∧
      ((start files).run path before).tenure i = .binding ∧
      if ((start files).run path (before ++ [.advance i])).undisturbed path after then
        ((start files).run path turns).files.Holds i path
      else ((start files).run path turns).Lost i := by
  -- induction on the steps from behind: the last one begins to listen, or comes later
  induction turns using List.reverseRecOn with
  | nil => cases hlisten
  | append_singleton turns turn ih =>
    rw [run_concat] at hlisten ⊢
    rcases of_listening_step hlisten with hbefore | ⟨rfl, hbinding, hlistens⟩
    · obtain ⟨haddress, before, after, rfl, hbinding, hstatus⟩ := ih hbefore
      refine ⟨haddress, before, after ++ [turn], by simp, hbinding, ?_⟩
      rw [undisturbed_concat, ← run_append, List.append_assoc, List.singleton_append]
      -- until now the path was left alone, so this step decides; or it was not, and the entry is
      -- lost
      by_cases hquiet : ((start files).run path (before ++ [.advance i])).undisturbed path after
      · rw [if_pos hquiet] at hstatus
        obtain ⟨hlost, hkept⟩ := holds_step hstatus turn hbefore hlisten
        cases hremoves : ((start files).run path (before ++ .advance i :: after)).removes turn with
        | true => simpa [hquiet] using hlost hremoves
        | false => simpa [hquiet] using hkept hremoves
      · rw [if_neg hquiet] at hstatus
        simpa [hquiet] using hstatus.step hbefore turn
    -- before it binds, a server has no entry anywhere
    · have hnone : ((start files).run path turns).Lost i := by
        intro names hhas
        have hlistening := listening_of_has files path turns i hfresh hhas
        rw [hbinding] at hlistening
        cases hlistening
      refine ⟨(FileSystem.listen_cases hlistens).1, turns, [], rfl, hbinding, ?_⟩
      -- nothing came after, so the path is undisturbed
      rw [undisturbed, if_pos rfl]
      exact FileSystem.holds_listen hpath hnone hlistens

/-- A server that listens at a path can be reached there as long as no server removes what is at the
path, be it at its start or on its way out. -/
theorem reaches_iff_undisturbed (hpath : path ≠ []) (hfresh : (start files).Lost i)
    (hlisten : ((start files).run path turns).tenure i = .listening) :
    ∃ before after, turns = before ++ .advance i :: after ∧
      ((start files).run path before).tenure i = .binding ∧
      (((start files).run path turns).Reaches path i ↔
        ((start files).run path (before ++ [.advance i])).undisturbed path after = true) := by
  obtain ⟨haddress, before, after, hturns, hbinding, hstatus⟩ :=
    holds_run files path turns i hpath hfresh hlisten
  -- an entry that is held is found, and one that is lost is found nowhere
  refine ⟨before, after, hturns, hbinding, ?_⟩
  by_cases hquiet :
      ((start files).run path (before ++ [.advance i])).undisturbed path after = true
  · -- held
    rw [if_pos hquiet] at hstatus
    exact iff_of_true ⟨hstatus.connect_eq hpath haddress, hstatus.find_eq⟩ hquiet
  · -- lost
    rw [if_neg hquiet] at hstatus
    refine iff_of_false (fun hreaches => ?_) hquiet
    obtain ⟨names, hhas⟩ := FileSystem.has_of_find hreaches.2
    exact hstatus names hhas

end Run

/-- A directory `tmp` below the root, with nothing in it. -/
def emptyTmp : FileSystem := { entries := [([Utf8.encodeString "tmp"], .directory)] }

/-- The socket path used where none is given. -/
def standardPath : Bytes := Utf8.encodeString standardSocketPath

/-- The steps of two servers at one path: the second one starts while the first one is on its way
out, and listens as the first one goes. -/
def restart : List Turn :=
  [.advance 0, .advance 0, .advance 0, .withdraw 0,
    .advance 1, .advance 1, .advance 1, .advance 1, .advance 0]

/-- A server on its way out takes away the socket of one that has started since. Two servers take
the standard path, which is clear at first. -/
theorem reaches_iff_undisturbed_restart :
    standardPath ≠ [] ∧ (start emptyTmp).Lost 1 ∧
      ((start emptyTmp).run standardPath restart).tenure 1 = .listening ∧
      ∃ before after, restart = before ++ .advance 1 :: after ∧
        ((start emptyTmp).run standardPath before).tenure 1 = .binding ∧
        (((start emptyTmp).run standardPath restart).Reaches standardPath 1 ↔
          ((start emptyTmp).run standardPath (before ++ [.advance 1])).undisturbed standardPath
            after = true) := by
  have hfresh : (start emptyTmp).Lost 1 := by simp [Lost, start, emptyTmp, FileSystem.Has]
  exact ⟨by decide, hfresh, by decide,
    reaches_iff_undisturbed emptyTmp standardPath restart 1 (by decide) hfresh (by decide)⟩

/-- A server that listens, was not told to stop and is not followed by another one cannot be reached
at its path: not after an earlier one has gone, nor at the empty path. -/
theorem not_reaches_after_exit :
    ((start emptyTmp).run standardPath restart.dropLast).tenure 1 = .listening ∧
      ((start emptyTmp).run standardPath restart.dropLast).Reaches standardPath 1 ∧
      ((start emptyTmp).run standardPath restart).tenure 1 = .listening ∧
      ¬((start emptyTmp).run standardPath restart).Reaches standardPath 1 ∧
      ((start emptyTmp).run [] [.advance 0, .advance 0, .advance 0]).tenure 0 = .listening ∧
      ¬((start emptyTmp).run [] [.advance 0, .advance 0, .advance 0]).Reaches [] 0 := by
  have hgone : ((start emptyTmp).run standardPath restart).files.connect standardPath =
      .error SystemError.noSuchFile.failure := by rfl
  have hnowhere : ((start emptyTmp).run [] [.advance 0, .advance 0, .advance 0]).files.connect [] =
      .error SystemError.invalidArgument.failure := by rfl
  refine ⟨by decide, ⟨by rfl, by rfl⟩, by decide, fun h => ?_, by decide, fun h => ?_⟩
  · cases hgone.symm.trans h.1
  · cases hnowhere.symm.trans h.1

end SharedPath

end OneShot
