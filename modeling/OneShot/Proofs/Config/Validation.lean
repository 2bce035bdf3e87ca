import OneShot.Options
import OneShot.Proofs.Config.RoundTrip
import OneShot.Proofs.Framing.RoundTrip

/-!
# A valid configuration can be put to use

A configuration is checked by nine rules, the options of clients and of the server are made from it
with rules of their own, and a reader of frames behind their length has a greatest length besides.
Here the three are shown to agree: what is valid can be turned into options, what cannot be turned
into them is not valid, and the limits that are configured are those that readers keep to. Of several
broken rules the first one is reported.

## Key results

- `exists_parse_iff`: the names that a configuration may hold are those of framings
- `validate_eq_error_iff`: of the broken rules the first one is reported
- `validate_eq_ok_iff_isUsable`: a configuration is valid exactly if it can be put to use
- `readsUpTo_of_le`: a reader keeps to a limit that four bytes can hold
-/

namespace OneShot

/-! ### The names of framings -/

/-- The names that a configuration may hold are those of framings. -/
theorem Framing.exists_parse_iff (name : String) :
    (∃ f, Framing.parse name = .ok f) ↔ name ∈ framingNames := by
  -- the names are those of the framings
  have hnames : framingNames = Framing.all.map Framing.name := by decide
  constructor
  · rintro ⟨f, hf⟩
    -- a framing was found by its name, and every name has one
    unfold Framing.parse at hf
    split at hf
    · rename_i g hfound
      have hname : g.name = name := by simpa using List.find?_some hfound
      rw [hnames, ← hname]
      exact List.mem_map_of_mem (List.mem_of_find?_eq_some hfound)
    · cases hf
  · intro hmem
    rw [hnames] at hmem
    obtain ⟨f, -, rfl⟩ := List.mem_map.mp hmem
    exact ⟨f, Framing.parse_name f⟩

/-- A section of clients makes options exactly if it names a framing. -/
theorem ClientConfig.exists_options_iff (c : ClientConfig) :
    (∃ o, c.options = .ok o) ↔ c.framing ∈ framingNames := by
  rw [← Framing.exists_parse_iff, ClientConfig.options]
  cases Framing.parse c.framing <;> simp

/-- A section of the server makes options exactly if it names a framing. -/
theorem ServerConfig.exists_options_iff (c : ServerConfig) :
    (∃ o, c.options = .ok o) ↔ c.framing ∈ framingNames := by
  rw [← Framing.exists_parse_iff, ServerConfig.options]
  cases Framing.parse c.framing <;> simp

/-- The options of clients hold the limit that is configured. -/
theorem ClientConfig.maxReplyBytes_options (c : ClientConfig) (o : ClientOptions)
    (h : c.options = .ok o) : o.maxReplyBytes = c.maxReplyBytes.toNat := by
  unfold ClientConfig.options at h
  split at h
  · cases h
  · cases h
    rfl

/-- The options of the server hold the limit that is configured. -/
theorem ServerConfig.maxRequestBytes_options (c : ServerConfig) (o : ServerOptions)
    (h : c.options = .ok o) : o.maxRequestBytes = c.maxRequestBytes.toNat := by
  unfold ServerConfig.options at h
  split at h
  · cases h
  · cases h
    rfl

/-! ### The rules -/

namespace Config

/-- The socket path of an endpoint. -/
def socketPath (c : Config) : Endpoint → String
  | .client => c.client.socketPath
  | .server => c.server.socketPath

/-- The name of the framing of an endpoint. -/
def framing (c : Config) : Endpoint → String
  | .client => c.client.framing
  | .server => c.server.framing

/-- The limit on the payloads that an endpoint reads. -/
def limit (c : Config) : Endpoint → Nat
  | .client => c.client.maxReplyBytes.toNat
  | .server => c.server.maxRequestBytes.toNat

end Config

namespace Violation

/-- The key whose value breaks the rule. -/
def key : Violation → String
  | .emptyPath e => e.name ++ ".socket_path"
  | .unknownFraming e _ => e.name ++ ".framing"
  | .zeroLimit e => e.limitKey
  | .limitTooLarge e => e.limitKey
  | .blankLevel => "logging.level"

/-- The place of a rule among all. -/
def place : Violation → Nat
  | .emptyPath .client => 0
  | .emptyPath .server => 1
  | .unknownFraming .client _ => 2
  | .unknownFraming .server _ => 3
  | .zeroLimit .client => 4
  | .zeroLimit .server => 5
  | .limitTooLarge .client => 6
  | .limitTooLarge .server => 7
  | .blankLevel => 8

/-- Whether a configuration breaks the rule. -/
def IsBroken (c : Config) : Violation → Prop
  | .emptyPath e => c.socketPath e = ""
  | .unknownFraming e name => c.framing e = name ∧ ∀ f, Framing.parse name ≠ .ok f
  | .zeroLimit e => c.limit e = 0
  | .limitTooLarge e => 0xFFFFFFFF < c.limit e
  | .blankLevel => ∀ ch ∈ c.logging.level.toList, Text.isBlank ch = true

/-- The wording starts with the key. -/
theorem exists_message (v : Violation) : ∃ rule, v.message = v.key ++ " must " ++ rule := by
  -- each message names the setting first, then the rule
  cases v with
  | emptyPath e => exact ⟨"not be empty", by cases e <;> decide⟩
  | zeroLimit e => exact ⟨"be non-zero", by cases e <;> decide⟩
  | limitTooLarge e =>
    refine ⟨"not exceed " ++ toString Framing.greatestLength, ?_⟩
    have hwords : " must " ++ "not exceed " = " must not exceed " := by decide
    rw [message, key, ← hwords]
    simp only [String.append_assoc]
  | blankLevel => exact ⟨"not be empty", by decide⟩
  | unknownFraming e name =>
    refine ⟨"be one of [" ++ ", ".intercalate (framingNames.map Text.quote) ++ "], got " ++
      Text.quote name, ?_⟩
    have hwords : ".framing" ++ " must " ++ "be one of [" = ".framing must be one of [" := by decide
    rw [message, key, ← hwords]
    simp only [String.append_assoc]

/-- A name breaks its rule if it is not among those that a configuration may hold. -/
private theorem isBroken_unknownFraming_iff (c : Config) (e : Endpoint) (name : String) :
    (unknownFraming e name).IsBroken c ↔ c.framing e = name ∧ name ∉ framingNames := by
  rw [IsBroken, ← Framing.exists_parse_iff, not_exists]

end Violation

namespace Config

/-- What is checked is whether the rule is broken. -/
private theorem isBroken_of_mem_checks (c : Config) :
    ∀ x ∈ c.checks, x.1 = true ↔ x.2.IsBroken c := by
  simp only [checks, List.forall_mem_cons, List.not_mem_nil, false_imp_iff, implies_true, and_true,
    Violation.isBroken_unknownFraming_iff]
  have hgreatest : Framing.greatestLength = 0xFFFFFFFF := rfl
  simp [Violation.IsBroken, socketPath, framing, limit, isBlankText, hgreatest, ← UInt64.toNat_inj]

/-- Every rule that is broken is among those that are checked. -/
private theorem mem_checks_of_isBroken (c : Config) (v : Violation) (h : v.IsBroken c) :
    (true, v) ∈ c.checks := by
  -- every rule that can be broken is among the checks
  obtain ⟨b, hb⟩ : ∃ b, (b, v) ∈ c.checks := by
    cases v with
    | emptyPath e => cases e <;> simp [checks]
    | unknownFraming e name =>
      obtain rfl := h.1
      cases e <;> simp [checks, framing]
    | zeroLimit e => cases e <;> simp [checks]
    | limitTooLarge e => cases e <;> simp [checks]
    | blankLevel => simp [checks]
  rwa [← (c.isBroken_of_mem_checks _ hb).mpr h]

/-- Rules are checked in the order of their places. -/
private theorem pairwise_checks (c : Config) :
    c.checks.Pairwise fun x y => x.2.place < y.2.place := by
  simp [checks, Violation.place]

/-- A configuration is accepted if it breaks no rule at all. -/
theorem validate_eq_ok_iff_forall (c : Config) :
    c.validate = .ok () ↔ ∀ v : Violation, ¬v.IsBroken c := by
  have hnone : c.validate = .ok () ↔ ∀ x ∈ c.checks, x.1 ≠ true := by
    rw [validate, violation?, ← List.find?_eq_none]
    cases c.checks.find? (·.1) <;> simp
  rw [hnone]
  constructor
  · exact fun h v hv => h _ (c.mem_checks_of_isBroken v hv) rfl
  · exact fun h x hx hbroken => h x.2 ((c.isBroken_of_mem_checks x hx).mp hbroken)

/-- Of the broken rules the first one is reported. -/
theorem validate_eq_error_iff (c : Config) (v : Violation) :
    c.validate = .error v ↔ v.IsBroken c ∧ ∀ w : Violation, w.IsBroken c → v.place ≤ w.place := by
  -- the first check that fails is what is told
  have hfound : c.validate = .error v ↔ c.checks.find? (·.1) = some (true, v) := by
    rw [validate, violation?]
    cases hfind : c.checks.find? (·.1) with
    | none => simp
    | some x =>
      have htrue : x.1 = true := List.find?_some hfind
      obtain ⟨b, w⟩ := x
      simp_all
  rw [hfound, List.find?_eq_some_iff_append]
  constructor
  · rintro ⟨-, before, after, hchecks, hbefore⟩
    have hmem : (true, v) ∈ c.checks := by simp [hchecks]
    refine ⟨(c.isBroken_of_mem_checks _ hmem).mp rfl, fun w hw => ?_⟩
    -- what is broken stands behind all that was checked before
    have hw' := c.mem_checks_of_isBroken w hw
    have horder := c.pairwise_checks
    rw [hchecks] at hw' horder
    -- it is the one that was found or comes behind it
    rcases List.mem_append.mp hw' with hearly | hlate
    · exact absurd (hbefore _ hearly) (by simp)
    · rcases List.mem_cons.mp hlate with heq | hafter
      · rw [(Prod.mk.inj heq).2]
      · have hrest := (List.pairwise_append.mp horder).2.1
        exact Nat.le_of_lt ((List.pairwise_cons.mp hrest).1 _ hafter)
  · rintro ⟨hbroken, hfirst⟩
    obtain ⟨before, after, hchecks⟩ :=
      List.append_of_mem (c.mem_checks_of_isBroken v hbroken)
    refine ⟨rfl, before, after, hchecks, fun x hx => ?_⟩
    -- what stands before is not broken, as its place comes first
    have horder := c.pairwise_checks
    have hmem : x ∈ c.checks := by simp [hchecks, hx]
    rw [hchecks] at horder
    have hlt := (List.pairwise_append.mp horder).2.2 x hx _ List.mem_cons_self
    cases htrue : x.1 with
    | false => rfl
    | true =>
      have hle := hfirst x.2 ((c.isBroken_of_mem_checks x hmem).mp htrue)
      exact absurd hlt (Nat.not_lt.mpr hle)

/-! ### Use -/

/-- Whether clients and the server can be made of a configuration, and its log be written. -/
structure IsUsable (c : Config) : Prop where
  clientPath : c.client.socketPath ≠ ""
  serverPath : c.server.socketPath ≠ ""
  clientOptions : ∃ o, c.client.options = .ok o
  serverOptions : ∃ o, c.server.options = .ok o
  clientLimit : 1 ≤ c.client.maxReplyBytes.toNat ∧ c.client.maxReplyBytes.toNat ≤ 0xFFFFFFFF
  serverLimit : 1 ≤ c.server.maxRequestBytes.toNat ∧ c.server.maxRequestBytes.toNat ≤ 0xFFFFFFFF
  level : ∃ ch ∈ c.logging.level.toList, Text.isBlank ch = false

/-- A configuration is valid exactly if it can be put to use. -/
theorem validate_eq_ok_iff_isUsable (c : Config) : c.validate = .ok () ↔ c.IsUsable := by
  have hclient := c.client.exists_options_iff
  have hserver := c.server.exists_options_iff
  rw [validate_eq_ok_iff_forall]
  constructor
  · intro h
    -- nothing is broken, so each rule holds for both ends
    have hnames : ∀ e, c.framing e ∈ framingNames := fun e => by
      have hknown := h (.unknownFraming e (c.framing e))
      rw [Violation.isBroken_unknownFraming_iff] at hknown
      exact Decidable.not_not.mp fun hnone => hknown ⟨rfl, hnone⟩
    have hlimits : ∀ e, 1 ≤ c.limit e ∧ c.limit e ≤ 0xFFFFFFFF := fun e =>
      ⟨Nat.pos_of_ne_zero (h (.zeroLimit e)), Nat.not_lt.mp (h (.limitTooLarge e))⟩
    -- some character of the level is not blank
    have hlevel := h .blankLevel
    simp only [Violation.IsBroken, not_forall, Bool.not_eq_true, exists_prop] at hlevel
    exact ⟨h (.emptyPath .client), h (.emptyPath .server), hclient.mpr (hnames .client),
      hserver.mpr (hnames .server), hlimits .client, hlimits .server, hlevel⟩
  · rintro ⟨hpath, hpath', hoptions, hoptions', hlimit, hlimit', ch, hch, hblank⟩ v
    rw [hclient] at hoptions
    rw [hserver] at hoptions'
    -- each rule is one of the conditions
    cases v with
    | emptyPath e => cases e <;> assumption
    | unknownFraming e name =>
      rw [Violation.isBroken_unknownFraming_iff]
      rintro ⟨rfl, hnone⟩
      cases e
      · exact hnone hoptions
      · exact hnone hoptions'
    | zeroLimit e =>
      intro hzero
      cases e
      · exact Nat.ne_of_gt hlimit.1 hzero
      · exact Nat.ne_of_gt hlimit'.1 hzero
    | limitTooLarge e =>
      intro hlarge
      cases e
      · exact absurd hlimit.2 (Nat.not_le.mpr hlarge)
      · exact absurd hlimit'.2 (Nat.not_le.mpr hlarge)
    | blankLevel =>
      intro hall
      rw [hall ch hch] at hblank
      cases hblank

end Config

/-! ### Limits -/

namespace Framing

/-- Whether a reader of frames behind their length that is given the limit `enforced` takes just the
payloads of up to `configured` bytes. -/
structure ReadsUpTo (enforced configured : Nat) : Prop where
  accepts : ∀ (payload rest : Bytes) (chunks : List Bytes) (ending : Reader.Ending),
    chunks.flatten = bigEndian payload.length ++ payload ++ rest →
    payload ≠ [] → payload.length ≤ configured →
    lengthPrefixed.readFrame enforced chunks ending = .payload payload
  /-- More is refused as soon as it is announced. -/
  refuses : ∀ (chunks : List Bytes) (ending : Reader.Ending), 4 ≤ chunks.flatten.length →
    (lengthPrefixed.readFrame enforced chunks ending = .failed .announcedTooLarge ↔
      configured < ofBigEndian (chunks.flatten.take 4))

/-- A stream that ends is not told in the words for a length beyond the limit. -/
private theorem atEnd_ne_announcedTooLarge (limit : Nat) (r : Reader) (ending : Reader.Ending) :
    Reader.atEnd lengthPrefixed limit r ending ≠ .failed .announcedTooLarge := by
  cases ending with
  | closed => by_cases hheld : r.held = [] <;> simp [Reader.atEnd, Reader.finish, hheld]
  | silent => simp [Reader.atEnd]
  | failed failure =>
    simp only [Reader.atEnd, Reader.interrupted]
    split <;> simp

/-- A length beyond the limit is refused, and nothing else is refused in the words for that. -/
private theorem readFrame_eq_announcedTooLarge_iff (limit : Nat) (chunks : List Bytes)
    (ending : Reader.Ending) (h : 4 ≤ chunks.flatten.length) :
    lengthPrefixed.readFrame limit chunks ending = .failed .announcedTooLarge ↔
      limit < ofBigEndian (chunks.flatten.take 4) := by
  have hheader := Reader.attempt_header limit chunks.flatten [] h
  rw [List.append_nil, List.append_nil] at hheader
  rw [Reader.readFrame_eq_attempt .lengthPrefixed (by decide), hheader]
  by_cases hlimit : limit < ofBigEndian (chunks.flatten.take 4)
  · -- the length is refused as it is announced
    simp only [hlimit, if_true]
  · simp only [hlimit, if_false, iff_false, Reader.body]
    -- the length is accepted, so it is the body that decides
    by_cases hshort : (chunks.flatten.drop 4).length < ofBigEndian (chunks.flatten.take 4)
    · simp only [if_pos hshort]
      exact atEnd_ne_announcedTooLarge limit _ ending
    · by_cases hzero : ofBigEndian (chunks.flatten.take 4) = 0
      · simp [hzero]
      · simp only [if_neg hshort, if_neg hzero]
        simp

/-- A reader keeps to a limit that four bytes can hold. -/
theorem readsUpTo_of_le (limit : Nat) (h : limit ≤ greatestLength) : ReadsUpTo limit limit where
  accepts payload rest chunks ending hstream hne hle := by
    have hframe : lengthPrefixed.encode payload = .ok (bigEndian payload.length ++ payload) :=
      (encode_lengthPrefixed_eq_ok_iff payload _).mpr ⟨hle.trans h, rfl⟩
    exact (readFrame_eq_payload_iff lengthPrefixed (by decide) limit payload _ rest chunks ending
      hframe hstream).mpr ⟨hne, hle⟩
  refuses chunks ending hheader := readFrame_eq_announcedTooLarge_iff limit chunks ending hheader

end Framing

/-! ### All of it -/

namespace Config

/-- A configuration that was read from a text is valid. -/
private theorem isUsable_of_parse (c : Config) (text : String) (h : parse text = .ok c) :
    c.IsUsable := by
  rw [← validate_eq_ok_iff_isUsable, validate_eq_ok_iff]
  exact violation?_of_parse text c h

/-- How the check of a configuration goes together with its use. -/
structure Checked (c : Config) : Prop where
  /-- What is accepted can be put to use, and nothing else can. -/
  accepted : c.validate = .ok () ↔ c.IsUsable
  /-- The first rule that is broken is reported. -/
  refused : ∀ v, c.validate = .error v ↔
    v.IsBroken c ∧ ∀ w : Violation, w.IsBroken c → v.place ≤ w.place
  /-- The message names the key whose value breaks the rule. -/
  named : ∀ v, c.validate = .error v →
    ∃ rule, (ConfigError.invalid v).message = "validation error: " ++ (v.key ++ " must " ++ rule)
  /-- What was read makes options, and their limits are kept as they are configured. -/
  used : ∀ text, parse text = .ok c → ∃ client server,
    c.client.options = .ok client ∧ c.server.options = .ok server ∧
    Framing.ReadsUpTo client.maxReplyBytes c.client.maxReplyBytes.toNat ∧
    Framing.ReadsUpTo server.maxRequestBytes c.server.maxRequestBytes.toNat

/-- A configuration is accepted exactly if clients and the server can be made of it, and their
readers keep to the limits that it holds. Otherwise the first rule that it breaks is reported. -/
theorem checked (c : Config) : c.Checked where
  accepted := c.validate_eq_ok_iff_isUsable
  refused := c.validate_eq_error_iff
  named := by
    intro v _
    -- the message names the setting, and the words in front of it are the same for all
    obtain ⟨rule, hrule⟩ := v.exists_message
    exact ⟨rule, congrArg ("validation error: " ++ ·) hrule⟩
  used := by
    intro text hread
    -- what was parsed is usable, so both ends have options with the limits configured
    have husable := c.isUsable_of_parse text hread
    obtain ⟨client, hclient⟩ := husable.clientOptions
    obtain ⟨server, hserver⟩ := husable.serverOptions
    refine ⟨client, server, hclient, hserver, ?_, ?_⟩
    · rw [c.client.maxReplyBytes_options client hclient]
      exact Framing.readsUpTo_of_le _ husable.clientLimit.2
    · rw [c.server.maxRequestBytes_options server hserver]
      exact Framing.readsUpTo_of_le _ husable.serverLimit.2

/-- Of four broken rules the one that concerns a framing comes first. -/
example :
    validate {
      client := { maxReplyBytes := 0 }
      server := { framing := "Newline", maxRequestBytes := 0x100000000 }
      logging := { level := "\u2003\u0085" } } = .error (.unknownFraming .server "Newline") := by
  decide

end Config

end OneShot
