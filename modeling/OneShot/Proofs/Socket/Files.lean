import Mathlib.Data.List.Basic
import OneShot.Socket.Address

/-!
# What changes leave of a file system

Directories are made, sockets are put at places where nothing is, listeners go away, and sockets are
removed. All of these but the last leave every way through the files as it was, and the sockets of
all other listeners (`Keeps`). Only a removal takes a socket away whose listener is still there.

## Key results

- `Keeps.walk`: a path that can be followed leads to the same place afterwards
- `keeps_makeDirectories`, `keeps_bind`, `keeps_abandon`: the changes that keep a socket
- `Holds.unlink`: a removal takes away the socket at its path
- `holds_bind`: a path leads to the socket that was put there
-/

namespace OneShot.FileSystem

/-! ### What is at a place -/

section Places

variable (fs : FileSystem) (place : Place)

/-- The root and the way to the working directory are directories; all else is in the entries. -/
theorem at?_eq_lookup (h : ¬place <+: fs.working) : fs.at? place = fs.entries.lookup place := by
  rw [at?, if_neg (by simpa using h)]

theorem at?_of_isPrefix (h : place <+: fs.working) : fs.at? place = some .directory := by
  rw [at?, if_pos (by simpa using h)]

/-- Entries at other places are of no account. -/
private theorem lookup_filter_ne (entries : List (Place × Entry)) (names other : Place) :
    (entries.filter (·.1 != other)).lookup names =
      if names = other then none else entries.lookup names := by
  -- induction on the entries: only the one at the other place is dropped
  induction entries with
  | nil => simp
  | cons entry entries ih =>
    obtain ⟨first, what⟩ := entry
    by_cases hfirst : first = other
    · -- the entry is dropped
      rw [List.filter_cons_of_neg (by simp [hfirst]), ih]
      by_cases hnames : names = other
      · rw [if_pos hnames, if_pos hnames]
      · have hne : (names == first) = false := by simpa [hfirst] using hnames
        rw [if_neg hnames, if_neg hnames, List.lookup_cons, hne]
    · -- the entry stays, and hides those behind it
      rw [List.filter_cons_of_pos (by simp [hfirst]), List.lookup_cons, List.lookup_cons, ih]
      by_cases hnames : names = first
      · simp [hnames, hfirst]
      · have hne : (names == first) = false := by simpa using hnames
        rw [hne]

/-- What is put at a place that is not on the way to the working directory lies there. -/
theorem at?_put {other : Place} (h : ¬other <+: fs.working) (entry : Entry) :
    (fs.put other entry).at? place = if place = other then some entry else fs.at? place := by
  -- the directories on the way to the working one are there without an entry
  by_cases hway : place <+: fs.working
  · have hne : place ≠ other := by
      intro heq
      rw [heq] at hway
      exact h hway
    rw [if_neg hne, at?_of_isPrefix fs place hway]
    exact at?_of_isPrefix (fs.put other entry) place hway
  · rw [at?_eq_lookup fs place hway, at?_eq_lookup (fs.put other entry) place hway]
    -- elsewhere the new entry stands in front of the others
    show List.lookup place ((other, entry) :: fs.entries.filter (·.1 != other)) = _
    by_cases hplace : place = other
    · simp [hplace]
    · have hne : (place == other) = false := by simpa using hplace
      rw [List.lookup_cons, hne, if_neg hplace, lookup_filter_ne, if_neg hplace]

/-- Where nothing is, something can be put. -/
theorem at?_put_of_free {other : Place} (hfree : fs.at? other = none) (entry : Entry) :
    (fs.put other entry).at? place = if place = other then some entry else fs.at? place := by
  apply at?_put
  intro hway
  rw [at?_of_isPrefix fs other hway] at hfree
  cases hfree

theorem at?_abandon (listener : Nat) :
    (fs.abandon listener).at? place = (fs.at? place).map (Entry.without listener) := by
  have hlookup : (fs.abandon listener).entries.lookup place =
      (fs.entries.lookup place).map (Entry.without listener) := by
    simp only [abandon]
    -- induction on the entries: the places stay as they are
    induction fs.entries with
    | nil => rfl
    | cons entry entries ih =>
      obtain ⟨first, what⟩ := entry
      rw [List.map_cons, List.lookup_cons, List.lookup_cons, ih]
      cases place == first <;> rfl
  by_cases hway : place <+: fs.working
  · rw [at?_of_isPrefix fs place hway]
    exact at?_of_isPrefix (fs.abandon listener) place hway
  · rw [at?_eq_lookup fs place hway, at?_eq_lookup (fs.abandon listener) place hway, hlookup]

end Places

/-! ### The sockets of a listener -/

/-- Whether a socket with a listener behind it lies at a place. -/
def Has (fs : FileSystem) (listener : Nat) (place : Place) : Prop :=
  (place, Entry.socket (some listener)) ∈ fs.entries

section Has

variable {fs : FileSystem} {listener : Nat} {place : Place}

theorem has_of_at? (h : fs.at? place = some (.socket (some listener))) :
    fs.Has listener place := by
  by_cases hway : place <+: fs.working
  · rw [at?_of_isPrefix fs place hway] at h
    cases h
  · rw [at?_eq_lookup fs place hway] at h
    obtain ⟨before, after, hentries, -⟩ := List.lookup_eq_some_iff.mp h
    rw [Has, hentries]
    exact List.mem_append_right _ List.mem_cons_self

theorem has_put {other : Place} {entry : Entry} (h : (fs.put other entry).Has listener place) :
    place = other ∧ entry = .socket (some listener) ∨ fs.Has listener place := by
  rcases List.mem_cons.mp h with heq | hmem
  · cases heq
    exact .inl ⟨rfl, rfl⟩
  · exact .inr (List.mem_of_mem_filter hmem)

theorem has_erase {other : Place} :
    (fs.erase other).Has listener place ↔ fs.Has listener place ∧ place ≠ other := by
  simp [Has, erase]

theorem has_abandon {other : Nat} (h : (fs.abandon other).Has listener place) :
    fs.Has listener place ∧ listener ≠ other := by
  obtain ⟨⟨place', entry⟩, hmem, heq⟩ := List.mem_map.mp h
  -- only the socket of a server that did not leave still has it
  cases entry with
  | directory => simp [Entry.without] at heq
  | file content => simp [Entry.without] at heq
  | socket l =>
    simp only [Entry.without, Prod.mk.injEq, Entry.socket.injEq] at heq
    obtain ⟨rfl, hl⟩ := heq
    split at hl
    · cases hl
    -- the socket is that of another server
    · rename_i hother
      cases hl
      exact ⟨hmem, fun h => hother (congrArg some h)⟩

end Has

/-! ### Changes that keep a socket -/

/-- A change after which all places are still there, and the directories, the working one among
them, and the sockets of a listener are what they were. -/
structure Keeps (listener : Nat) (fs fs' : FileSystem) : Prop where
  working : fs'.working = fs.working
  isSome : ∀ place, (fs.at? place).isSome = true → (fs'.at? place).isSome = true
  directory : ∀ place, fs.at? place = some .directory → fs'.at? place = some .directory
  socket : ∀ place, fs.at? place = some (.socket (some listener)) →
    fs'.at? place = some (.socket (some listener))

namespace Keeps

variable {listener : Nat} {fs fs' fs'' : FileSystem}

theorem refl (listener : Nat) (fs : FileSystem) : Keeps listener fs fs :=
  ⟨rfl, fun _ h => h, fun _ h => h, fun _ h => h⟩

theorem trans (h : Keeps listener fs fs') (h' : Keeps listener fs' fs'') :
    Keeps listener fs fs'' :=
  ⟨h'.working.trans h.working,
    fun place hp => h'.isSome place (h.isSome place hp),
    fun place hp => h'.directory place (h.directory place hp),
    fun place hp => h'.socket place (h.socket place hp)⟩

/-- One name leads to the same place. -/
theorem step (h : Keeps listener fs fs') {place next : Place} {name : Bytes}
    (hstep : fs.step place name = .ok next) : fs'.step place name = .ok next := by
  unfold FileSystem.step at hstep ⊢
  -- the place is still a directory
  by_cases hdirectory : fs.at? place = some .directory
  · rw [if_neg (not_not_intro hdirectory)] at hstep
    rw [if_neg (not_not_intro (h.directory place hdirectory))]
    -- only the last name is looked up
    split_ifs at hstep with hstay hup hlong hthere
    · rw [if_pos hstay]
      exact hstep
    · rw [if_neg hstay, if_pos hup]
      exact hstep
    · rw [if_neg hstay, if_neg hup, if_neg hlong, if_pos (h.isSome _ hthere)]
      exact hstep
  · rw [if_pos hdirectory] at hstep
    cases hstep

/-- A path that can be followed leads to the same place. -/
theorem walk (h : Keeps listener fs fs') {names : List Bytes} {place last : Place}
    (hwalk : fs.walk names place = .ok last) : fs'.walk names place = .ok last := by
  -- induction on the names: each step leads to the same place
  induction names generalizing place with
  | nil => exact hwalk
  | cons name names ih =>
    rw [FileSystem.walk] at hwalk ⊢
    cases hstep : fs.step place name with
    | error e => simp [hstep] at hwalk
    | ok next =>
      rw [hstep] at hwalk
      rw [h.step hstep]
      exact ih hwalk

theorem locate (h : Keeps listener fs fs') {path : Bytes} {place : Place}
    (hlocate : fs.locate path = .ok place) : fs'.locate path = .ok place := by
  unfold FileSystem.locate at hlocate ⊢
  -- both ways start at the same place, as the working directory is kept
  have hstart : fs'.startOf path = fs.startOf path := by rw [startOf, startOf, h.working]
  rw [hstart]
  split_ifs at hlocate ⊢
  exact h.walk hlocate

end Keeps

section Changes

variable (listener : Nat) (fs : FileSystem)

/-- What is put where nothing is disturbs nothing. -/
theorem keeps_put {other : Place} (hfree : fs.at? other = none) (entry : Entry) :
    Keeps listener fs (fs.put other entry) := by
  -- the place was free, so every other one has what it had
  have hsame (place : Place) (h : (fs.at? place).isSome = true) :
      (fs.put other entry).at? place = fs.at? place := by
    have hne : place ≠ other := by
      intro heq
      rw [heq, hfree] at h
      cases h
    rw [at?_put_of_free fs place hfree, if_neg hne]
  refine ⟨rfl, fun place h => ?_, fun place h => ?_, fun place h => ?_⟩
  · rw [hsame place h]
    exact h
  · rw [hsame place (by rw [h]; rfl)]
    exact h
  · rw [hsame place (by rw [h]; rfl)]
    exact h

theorem keeps_abandon {other : Nat} (hother : listener ≠ other) :
    Keeps listener fs (fs.abandon other) := by
  refine ⟨rfl, fun place h => ?_, fun place h => ?_, fun place h => ?_⟩
  · rw [at?_abandon, Option.isSome_map]
    exact h
  · rw [at?_abandon, h]
    rfl
  · rw [at?_abandon, h]
    simp [Entry.without, hother]

/-- A name that is missing leads to a place where nothing is. -/
theorem at?_of_step_noSuchFile {place : Place} {name : Bytes}
    (h : fs.step place name = .error .noSuchFile) : fs.at? (place ++ [name]) = none := by
  unfold step at h
  split_ifs at h with hdirectory hstay hup hlong hthere
  · cases h
  · cases h
  · simpa using hthere

/-- The directories that are made disturb nothing, and no socket comes with them. -/
theorem makeAlong_spec (names : List Bytes) (place : Place) :
    Keeps listener fs (fs.makeAlong names place) ∧
      ∀ other, (fs.makeAlong names place).Has listener other → fs.Has listener other := by
  -- induction on the names: each leads on, is made, or ends the way
  induction names generalizing fs place with
  | nil => exact ⟨.refl listener fs, fun _ h => h⟩
  | cons name names ih =>
    unfold makeAlong
    split
    · exact ih fs _
    · -- a directory that is missing is made, and the way goes on below it
      rename_i hmissing
      have hfree := fs.at?_of_step_noSuchFile hmissing
      obtain ⟨hkeeps, hhas⟩ := ih (fs.put (place ++ [name]) .directory) (place ++ [name])
      refine ⟨(keeps_put listener fs hfree _).trans hkeeps, fun other h => ?_⟩
      rcases has_put (hhas other h) with ⟨-, hentry⟩ | h
      · cases hentry
      · exact h
    · exact ⟨.refl listener fs, fun _ h => h⟩

theorem keeps_makeDirectories (path : Bytes) : Keeps listener fs (fs.makeDirectories path) :=
  (makeAlong_spec listener fs _ _).1

theorem has_makeDirectories {path : Bytes} {place : Place}
    (h : (fs.makeDirectories path).Has listener place) : fs.Has listener place :=
  (makeAlong_spec listener fs _ _).2 place h

/-- A socket of a listener that was put at a path, under a name in a directory. -/
structure Bound (path : Bytes) (fs' : FileSystem) (above : Place) (name : Bytes) : Prop where
  walk_eq : fs.walk (namesOf path).dropLast (fs.startOf path) = .ok above
  last_eq : (namesOf path).getLast? = some name
  directory : fs.at? above = some .directory
  ne_nil : name ≠ []
  ne_dot : name ≠ dot
  ne_dotDot : name ≠ dotDot
  length_le : name.length ≤ longestName
  free : fs.at? (above ++ [name]) = none
  eq_put : fs' = fs.put (above ++ [name]) (.socket (some listener))

theorem bound_of_bind {fs fs' : FileSystem} {path : Bytes} (h : fs.bind listener path = .ok fs') :
    ∃ above name, Bound listener fs path fs' above name := by
  simp only [bind] at h
  split at h
  · cases h
  · rename_i above name hwalk hlast
    split_ifs at h with hdirectory hlong hused
    cases h
    -- the name is an ordinary one, and nothing has it yet
    obtain ⟨hempty, hdot, hdotDot, hfree⟩ := by simpa only [not_or] using hused
    exact ⟨above, name, hwalk, hlast, not_not.mp hdirectory, hempty, hdot, hdotDot,
      Nat.not_lt.mp hlong, by simpa using hfree, rfl⟩
  · cases h

theorem keeps_bind {fs fs' : FileSystem} {other : Nat} {path : Bytes}
    (h : fs.bind other path = .ok fs') : Keeps listener fs fs' := by
  obtain ⟨above, name, hbound⟩ := bound_of_bind other h
  rw [hbound.eq_put]
  exact keeps_put listener fs hbound.free _

theorem has_bind {fs fs' : FileSystem} {other : Nat} {path : Bytes} {place : Place}
    (h : fs.bind other path = .ok fs') (hother : listener ≠ other)
    (hhas : fs'.Has listener place) : fs.Has listener place := by
  obtain ⟨above, name, hbound⟩ := bound_of_bind other h
  rw [hbound.eq_put] at hhas
  rcases has_put hhas with ⟨-, hentry⟩ | hhas
  · cases hentry
    exact absurd rfl hother
  · exact hhas

end Changes

/-! ### The socket at a path -/

/-- Whether a path leads to a socket of a listener that has no other one. -/
def Holds (fs : FileSystem) (listener : Nat) (path : Bytes) : Prop :=
  ∃ place, fs.locate path = .ok place ∧ fs.at? place = some (.socket (some listener)) ∧
    ∀ other, fs.Has listener other → other = place

section Holds

variable {fs fs' : FileSystem} {listener : Nat} {path : Bytes}

theorem walk_concat {names : List Bytes} {name : Bytes} {place last : Place}
    (h : fs.walk names place = .ok last) :
    fs.walk (names ++ [name]) place = fs.step last name := by
  -- induction on the names in front, which lead to the same place
  induction names generalizing place with
  -- the last name is the only one, and its step decides
  | nil =>
    cases h
    rw [List.nil_append, walk]
    cases hstep : fs.step last name <;> simp [walk]
  | cons first names ih =>
    rw [List.cons_append, walk]
    rw [walk] at h
    cases hstep : fs.step place first with
    | error e => simp [hstep] at h
    | ok next =>
      rw [hstep] at h
      exact ih h

/-- A path leads to the socket that was put there. -/
theorem holds_bind (hpath : path ≠ []) (hshort : path.length < pathLimit)
    (hnone : ∀ place, ¬fs.Has listener place) (h : fs.bind listener path = .ok fs') :
    fs'.Holds listener path := by
  have hkeeps := keeps_bind listener h
  obtain ⟨above, name, hbound⟩ := bound_of_bind listener h
  have hthere : fs'.at? (above ++ [name]) = some (.socket (some listener)) := by
    rw [hbound.eq_put, at?_put_of_free fs _ hbound.free, if_pos rfl]
  -- the last name leads to the new socket, for it is an ordinary name and not too long
  have hstep : fs'.step above name = .ok (above ++ [name]) := by
    unfold step
    rw [if_neg (not_not_intro (hkeeps.directory _ hbound.directory)),
      if_neg (by simp [hbound.ne_nil, hbound.ne_dot]), if_neg hbound.ne_dotDot,
      if_neg (Nat.not_lt.mpr hbound.length_le), if_pos (by rw [hthere]; rfl)]
  have hstart : fs'.startOf path = fs.startOf path := by rw [startOf, startOf, hkeeps.working]
  refine ⟨above ++ [name], ?_, hthere, fun other hother => ?_⟩
  · -- the way to the directory is what it was, and the last name leads to the socket
    rw [locate, if_neg hpath, if_neg (Nat.not_le.mpr hshort), hstart,
      ← List.dropLast_append_getLast? name hbound.last_eq, walk_concat (hkeeps.walk hbound.walk_eq),
      hstep]
  · rw [hbound.eq_put] at hother
    rcases has_put hother with ⟨heq, -⟩ | hold
    · exact heq
    · exact absurd hold (hnone other)

namespace Holds

/-- A path goes on to lead to a socket that is kept. -/
theorem of_keeps (h : fs.Holds listener path) (hkeeps : Keeps listener fs fs')
    (hhas : ∀ place, fs'.Has listener place → fs.Has listener place) :
    fs'.Holds listener path := by
  obtain ⟨place, hlocate, hthere, hsole⟩ := h
  exact ⟨place, hkeeps.locate hlocate, hkeeps.socket _ hthere,
    fun other hother => hsole other (hhas other hother)⟩

theorem find_eq (h : fs.Holds listener path) :
    fs.find path = .ok (.socket (some listener)) := by
  obtain ⟨place, hlocate, hthere, -⟩ := h
  simp [find, hlocate, hthere]

/-- A removal at the path takes away the only socket of the listener. -/
theorem unlink (h : fs.Holds listener path) :
    ∃ fs', fs.unlink path = .ok fs' ∧ ∀ place, ¬fs'.Has listener place := by
  obtain ⟨place, hlocate, hthere, hsole⟩ := h
  refine ⟨fs.erase place, by simp [FileSystem.unlink, hlocate, hthere], fun other hother => ?_⟩
  obtain ⟨hhas, hne⟩ := has_erase.mp hother
  exact hne (hsole other hhas)

end Holds

/-- A path leads to a socket of a listener only if there is one. -/
theorem has_of_find (h : fs.find path = .ok (.socket (some listener))) :
    ∃ place, fs.Has listener place := by
  unfold find at h
  -- the path leads somewhere, and the socket is there
  cases hlocate : fs.locate path with
  | error e => simp [hlocate] at h
  | ok place =>
    rw [hlocate] at h
    simp only at h
    cases hat : fs.at? place with
    | none => simp [hat] at h
    | some entry =>
      rw [hat] at h
      cases h
      exact ⟨place, has_of_at? hat⟩

/-- A removal brings no socket. -/
theorem has_unlink (h : fs.unlink path = .ok fs') {place : Place}
    (hhas : fs'.Has listener place) : fs.Has listener place := by
  unfold unlink at h
  split at h
  · cases h
  · split at h
    · cases h
    · cases h
    · cases h
      exact (has_erase.mp hhas).1

end Holds

/-! ### Listening at a path -/

section Listen

variable {fs fs' : FileSystem} {other : Nat} {path : Bytes}

/-- A listener is put at a path that is an address. -/
theorem listen_cases (h : fs.listen other path = .ok fs') :
    addressFailure? path = none ∧
      (path = [] ∧ fs' = fs ∨ path ≠ [] ∧ fs.bind other path = .ok fs') := by
  unfold listen at h
  cases haddress : addressFailure? path with
  -- the path is too long, or has a zero byte
  | some failure => simp [haddress] at h
  | none =>
    simp only [haddress] at h
    refine ⟨rfl, ?_⟩
    -- the empty path binds to nothing in the file system
    by_cases hpath : path = []
    · rw [if_pos hpath] at h
      cases h
      exact .inl ⟨hpath, rfl⟩
    · rw [if_neg hpath] at h
      cases hbind : fs.bind other path with
      | error e => simp [hbind, Except.mapError] at h
      | ok fs'' =>
        rw [hbind] at h
        cases h
        exact .inr ⟨hpath, rfl⟩

theorem keeps_listen (listener : Nat) (h : fs.listen other path = .ok fs') :
    Keeps listener fs fs' := by
  obtain ⟨-, ⟨-, rfl⟩ | ⟨-, hbind⟩⟩ := listen_cases h
  · exact .refl listener _
  · exact keeps_bind listener hbind

theorem has_listen {listener : Nat} (h : fs.listen other path = .ok fs')
    (hother : listener ≠ other) {place : Place} (hhas : fs'.Has listener place) :
    fs.Has listener place := by
  obtain ⟨-, ⟨-, rfl⟩ | ⟨-, hbind⟩⟩ := listen_cases h
  · exact hhas
  · exact has_bind listener hbind hother hhas

/-- A path that is an address is neither too long nor holds a zero byte. -/
theorem of_addressFailure?_none (h : addressFailure? path = none) :
    0 ∉ path ∧ path.length < addressLimit := by
  unfold addressFailure? at h
  split_ifs at h with hzero hlong
  exact ⟨by simpa using hzero, Nat.not_le.mp hlong⟩

/-- A path leads to the listener that was put there. -/
theorem holds_listen (hpath : path ≠ []) (hnone : ∀ place, ¬fs.Has other place)
    (h : fs.listen other path = .ok fs') : fs'.Holds other path := by
  obtain ⟨haddress, ⟨hempty, -⟩ | ⟨-, hbind⟩⟩ := listen_cases h
  · exact absurd hempty hpath
  · have hshort : path.length < pathLimit :=
      Nat.lt_trans (of_addressFailure?_none haddress).2 (by decide)
    exact holds_bind hpath hshort hnone hbind

/-- Who connects to a path that leads to a listener reaches it. -/
theorem Holds.connect_eq {listener : Nat} (h : fs.Holds listener path) (hpath : path ≠ [])
    (haddress : addressFailure? path = none) : fs.connect path = .ok () := by
  have hzero := (of_addressFailure?_none haddress).1
  have hhead : path.head? ≠ some 0 := fun hhead => hzero (List.mem_of_mem_head? hhead)
  simp [connect, hhead, haddress, hpath, h.find_eq]

end Listen

end OneShot.FileSystem
