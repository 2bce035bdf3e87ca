import OneShot.Cli.Arguments

/-!
# What a command line can give

A scan of the words of a command line takes a value only if the rule of its option accepts it,
wherever the value stands: behind an equals sign, in the rest of the word, or in the next word. So
whatever a command reads from the options that are given keeps to the rules, and no command is ever
given an empty socket path.

## Key results

- `keeps_scan`: the options that a scan comes to have rules that accept their values
- `Request.socket?_ne_empty`: no command line gives an empty socket path
-/

namespace OneShot.Cli

/-- Every option that is given has a rule, which accepts its value unless it only counts. -/
def Keeps (rules : List OptionRule) (given : List Given) : Prop :=
  ∀ g ∈ given, ∃ rule ∈ rules, rule.long = g.1 ∧ (rule.kind ≠ .counter → rule.accepts g.2 = true)

theorem keeps_nil (rules : List OptionRule) : Keeps rules [] := List.forall_mem_nil _

theorem Keeps.concat {rules : List OptionRule} {given : List Given} (h : Keeps rules given)
    {rule : OptionRule} (hrule : rule ∈ rules) (value : Bytes)
    (haccepts : rule.kind ≠ .counter → rule.accepts value = true) :
    Keeps rules (given ++ [(rule.long, value)]) := by
  intro g hg
  rw [List.mem_append, List.mem_singleton] at hg
  cases hg with
  | inl hbefore => exact h g hbefore
  | inr hlast =>
    rw [hlast]
    exact ⟨rule, hrule, rfl, haccepts⟩

/-- The options that a scan comes to keep to the rules. -/
def Scanned.Keeps (rules : List OptionRule) : Scanned → Prop
  | .options given => Cli.Keeps rules given
  | .command given _ _ => Cli.Keeps rules given
  | _ => True

/-- The options so far keep to the rules, and the one that awaits its value has one. -/
def Progress.Keeps (rules : List OptionRule) : Progress → Prop
  | .more given awaiting => Cli.Keeps rules given ∧ ∀ rule ∈ awaiting, rule ∈ rules
  | .stop s => s.Keeps rules

/-- What a word says is said of an option that has a rule. -/
def Token.Keeps (rules : List OptionRule) : Token → Prop
  | .given rule _ => rule ∈ rules
  | .awaits rule => rule ∈ rules
  | .unknown => True

section Steps

variable (rules : List OptionRule)

/-- An option is added only if its rule accepts the value. -/
theorem keeps_add {rule : OptionRule} (hrule : rule ∈ rules) (value : Bytes) {given : List Given}
    (h : Keeps rules given) : (add rule value given).Keeps rules := by
  unfold add
  -- help and the version end the scan, and a counter may come any number of times
  split
  · exact trivial
  · exact trivial
  · rename_i hkind
    exact ⟨h.concat hrule value fun hne => absurd hkind hne, nofun⟩
  · split
    · exact trivial
    · -- neither given before nor refused by its rule
      rename_i hrefused
      have haccepts : rule.accepts value = true := by
        simp only [Bool.or_eq_true, Bool.not_eq_true', not_or, Bool.not_eq_false] at hrefused
        exact hrefused.2
      exact ⟨h.concat hrule value fun _ => haccepts, nofun⟩

theorem keeps_longToken (body : Bytes) : (longToken rules body).Keeps rules := by
  unfold longToken
  simp only
  split
  · exact trivial
  · -- an option of that name: it awaits a value, or needs none
    rename_i rule hfound _
    have hrule := List.mem_of_find?_eq_some hfound
    split <;> exact hrule
  · -- the value stands in the same word
    rename_i rule _ value hfound _
    have hrule := List.mem_of_find?_eq_some hfound
    split
    · exact hrule
    · exact trivial

theorem keeps_shortTokens (bs : Bytes) : ∀ t ∈ shortTokens rules bs, t.Keeps rules := by
  -- induction on the letters of the word, each an option of its own
  induction bs with
  | nil => exact List.forall_mem_nil _
  | cons b bs ih =>
    unfold shortTokens
    split
    · exact List.forall_mem_singleton.mpr trivial
    · rename_i rule hfound
      have hrule := List.mem_of_find?_eq_some hfound
      split
      · -- the option takes a value, so that the word ends with it
        split
        · exact List.forall_mem_singleton.mpr hrule
        · exact List.forall_mem_singleton.mpr hrule
      · exact List.forall_mem_cons.mpr ⟨hrule, ih⟩

theorem keeps_tokens (word : Bytes) : ∀ t ∈ tokens rules word, t.Keeps rules := by
  unfold tokens
  split
  · exact List.forall_mem_singleton.mpr (keeps_longToken rules _)
  · exact keeps_shortTokens rules _

theorem keeps_addAll {given : List Given} (h : Keeps rules given) (ts : List Token)
    (hts : ∀ t ∈ ts, t.Keeps rules) : (addAll given ts).Keeps rules := by
  -- induction on the tokens: each keeps what was given before
  induction ts generalizing given with
  | nil => exact ⟨h, nofun⟩
  | cons t ts ih =>
    obtain ⟨ht, hrest⟩ := List.forall_mem_cons.mp hts
    cases t with
    | unknown => exact trivial
    | awaits rule =>
      refine ⟨h, fun r hr => ?_⟩
      obtain rfl := Option.some.inj hr
      exact ht
    -- what is given is kept, and the rest of the tokens with it
    | given rule value =>
      have hadd := keeps_add rules ht value h
      unfold addAll
      split
      · rename_i given' awaiting hmore
        rw [hmore] at hadd
        exact ih hadd.1 hrest
      · exact hadd

/-- The options that a scan comes to have rules that accept their values. -/
theorem keeps_scan (awaiting : Option OptionRule) (given : List Given) (words : List Bytes)
    (hawaiting : ∀ rule ∈ awaiting, rule ∈ rules) (h : Keeps rules given) :
    (scan rules awaiting given words).Keeps rules := by
  -- induction on the words: each is a value, or adds what it says, or ends the scan
  fun_induction scan rules awaiting given words with
  | case1 => exact h
  | case2 => exact trivial
  | case3 rule given word rest htakes given' awaiting hmore ih =>
    -- the word is the value of the option that awaits one
    have hadd := keeps_add rules (hawaiting rule rfl) word h
    rw [hmore] at hadd
    exact ih hadd.2 hadd.1
  | case4 rule given word rest htakes s hstop =>
    have hadd := keeps_add rules (hawaiting rule rfl) word h
    rwa [hstop] at hadd
  | case5 => exact trivial
  | case6 => exact h
  | case7 => exact trivial
  | case8 given word rest hend hoption given' awaiting hmore ih =>
    -- the word is an option, or several letters of them
    have hadd := keeps_addAll rules h (tokens rules word) (keeps_tokens rules word)
    rw [hmore] at hadd
    exact ih hadd.2 hadd.1
  | case9 given word rest hend hoption s hstop =>
    have hadd := keeps_addAll rules h (tokens rules word) (keeps_tokens rules word)
    rwa [hstop] at hadd
  | case10 => exact h

end Steps

/-! ### Commands -/

/-- A value that is looked up was accepted by a rule of that name. -/
theorem Keeps.exists_of_lookup {rules : List OptionRule} {given : List Given}
    (h : Keeps rules given) {name : String} {value : Bytes} (hvalue : given.lookup name = some value) :
    ∃ rule ∈ rules, rule.long = name ∧ (rule.kind ≠ .counter → rule.accepts value = true) := by
  obtain ⟨before, after, hgiven, -⟩ := List.lookup_eq_some_iff.mp hvalue
  exact h (name, value) (hgiven ▸ List.mem_append_right before List.mem_cons_self)

/-- An empty path is not accepted where the rule for sockets is the only one of its name. -/
theorem Keeps.lookup_socket_ne {rules : List OptionRule} {given : List Given}
    (h : Keeps rules given) (honly : ∀ rule ∈ rules, rule.long = "socket" → rule = socketRule) :
    given.lookup "socket" ≠ some [] := by
  intro hempty
  obtain ⟨rule, hrule, hname, haccepts⟩ := h.exists_of_lookup hempty
  rw [honly rule hrule hname] at haccepts
  exact absurd (haccepts (by decide)) (by decide)

/-- The socket path that a command is given. -/
def Command.socket? : Command → Option Bytes
  | .call socket _ _ _ => socket
  | .serve socket _ _ => socket
  | .config _ => none

namespace Request

/-- What a command comes to depends on the options that its words give. -/
private theorem exists_of_ofCommand {program : List Given} {topic : Topic}
    {rules : List OptionRule} {command : List Given → Command} {words : List Bytes} {i : Invocation}
    (h : ofCommand program topic rules command words = .run i) :
    ∃ given, Keeps rules given ∧ i.command = command given := by
  have hkeeps := keeps_scan rules none [] words nofun (keeps_nil rules)
  unfold ofCommand at h
  split at h
  · rename_i given hscan
    rw [hscan] at hkeeps
    exact ⟨given, hkeeps, (congrArg Invocation.command (Request.run.inj h)).symm⟩
  · cases h
  · cases h

/-- Who asks for help runs no command. -/
private theorem ofHelp_ne_run (words : List Bytes) (i : Invocation) : ofHelp words ≠ .run i := by
  unfold ofHelp
  split
  · exact nofun
  · split <;> exact nofun
  · exact nofun

/-- No command line gives an empty socket path. -/
theorem socket?_ne_empty (words : List Bytes) (i : Invocation) (h : ofWords words = .run i) :
    i.command.socket? ≠ some [] := by
  unfold ofWords at h
  split at h
  -- the two commands with a socket, then those that take none or do not run
  · split at h
    · obtain ⟨given, hkeeps, hcommand⟩ := exists_of_ofCommand h
      rw [hcommand]
      exact hkeeps.lookup_socket_ne (by simp [callRules, socketRule, framingRule, helpRule])
    · obtain ⟨given, hkeeps, hcommand⟩ := exists_of_ofCommand h
      rw [hcommand]
      exact hkeeps.lookup_socket_ne (by simp [serveRules, socketRule, framingRule, helpRule])
    · obtain ⟨given, hkeeps, hcommand⟩ := exists_of_ofCommand h
      rw [hcommand]
      -- this command takes no socket
      exact nofun
    · exact absurd h (ofHelp_ne_run _ i)
    · cases h
  · cases h
  · cases h
  · cases h

end Request

end OneShot.Cli
