import OneShot.Json.Byte

/-! # Passing over a value

A machine reads one JSON value byte by byte and keeps nothing of it but the containers it is in. It
checks the grammar, the escapes of strings and the four digits of a numeric escape; it does not look
at the encoding of strings or at the size of numbers, and knows no limit of depth.

* `run`                the machine over bytes, up to the end of the value
* `skip`               passes over the value at the front
* `isPrefix`           whether bytes are a value that is still unfinished
* `run_cons_of_step`   one step of the machine
* `run_length_le`      the machine only takes bytes away
-/

namespace OneShot.Json

/-- The two kinds of value that hold others. -/
inductive Container where
  | list
  | object
  deriving Repr, DecidableEq

namespace Skip

/-- Where the machine stands inside the innermost container. -/
inductive Mode where
  /-- A value has to start. -/
  | value
  /-- Just after an opening bracket. -/
  | firstElement
  /-- Just after an opening brace. -/
  | firstKey
  /-- After a comma in an object. -/
  | nextKey
  /-- After a key. -/
  | colon
  /-- After a value. -/
  | afterValue
  /-- Inside a word, with the bytes that it still lacks. -/
  | literal (tail : Bytes)
  /-- Inside a string. -/
  | string (key : Bool)
  /-- After a backslash. -/
  | escape (key : Bool)
  /-- Inside a numeric escape that lacks `owed` digits; `good` says that all so far were digits. -/
  | hex (key : Bool) (owed : Nat) (good : Bool)
  /-- After a minus sign. -/
  | sign
  /-- After a leading zero. -/
  | zero
  /-- Inside the integer part. -/
  | integer
  /-- After the point. -/
  | point
  /-- Inside the fraction. -/
  | fraction
  /-- After the exponent mark. -/
  | exponentMark
  /-- After the sign of an exponent. -/
  | exponentSign
  /-- Inside the exponent. -/
  | exponent
  deriving Repr, DecidableEq

/-- The mode, and the containers around the current place, innermost first. -/
structure State where
  mode : Mode
  around : List Container
  deriving Repr, DecidableEq

/-- What a byte means in a mode, before the containers around are looked at. -/
inductive Move where
  | go (mode : Mode)
  /-- A container starts. -/
  | enter (c : Container)
  /-- The innermost container ends without a value in it. -/
  | leave
  /-- The value is over, and the containers decide. -/
  | after
  /-- The byte is refused. It counts as read unless it is a raw control character. -/
  | refuse (cause : Cause) (read : Bool)
  deriving Repr, DecidableEq

/-- What one byte does to the machine. -/
inductive Reaction where
  | next (s : State)
  /-- The value ended before this byte. -/
  | stop
  /-- The byte is refused, see `Move.refuse`. -/
  | refuse (cause : Cause) (read : Bool)
  deriving Repr, DecidableEq

/-- The start of the machine. -/
def start : State := ⟨.value, []⟩

/-- The byte that starts a value. -/
def beginValue (b : UInt8) : Move :=
  match literalTail? b with
  | some tail => .go (.literal tail)
  | none =>
    if b == quoteByte then .go (.string false)
    else if b == openBracket then .enter .list
    else if b == openBrace then .enter .object
    else if b == minus then .go .sign
    else if b == zeroDigit then .go .zero
    else if isLeadingDigit b then .go .integer
    else .refuse .expectedValue true

/-- The mode after the closing quote of a string. -/
def afterString (key : Bool) : Mode := if key then .colon else .afterValue

/-- Whether a byte may follow a backslash, `u` apart. -/
def isSimpleEscape (b : UInt8) : Bool :=
  b == quoteByte || b == backslash || b == 0x2F || b == 0x62 || b == 0x66 || b == 0x6E ||
    b == 0x72 || b == 0x74

/-- What a byte means in a mode. -/
def Mode.move (mode : Mode) (b : UInt8) : Move :=
  match mode with
  | .value => if isSpace b then .go mode else beginValue b
  | .firstElement =>
    if isSpace b then .go mode else if b == closeBracket then .leave else beginValue b
  | .firstKey =>
    if isSpace b then .go mode
    else if b == closeBrace then .leave
    else if b == quoteByte then .go (.string true)
    else .refuse .keyNotString true
  | .nextKey =>
    if isSpace b then .go mode
    else if b == quoteByte then .go (.string true)
    else .refuse .keyNotString true
  | .colon =>
    if isSpace b then .go mode
    else if b == Json.colon then .go .value
    else .refuse .expectedColon true
  | .afterValue => .after
  | .literal [] => .after
  | .literal (c :: tail) =>
    if b == c then .go (if tail.isEmpty then .afterValue else .literal tail)
    else .refuse .expectedLiteral true
  | .string key =>
    if b == quoteByte then .go (afterString key)
    else if b == backslash then .go (.escape key)
    else if isControl b then .refuse .controlCharacter false
    else .go mode
  | .escape key =>
    if b == 0x75 then .go (.hex key 4 true)
    else if isSimpleEscape b then .go (.string key)
    else .refuse .invalidEscape true
  | .hex key owed good =>
    let good := good && (hexValue? b).isSome
    if 1 < owed then .go (.hex key (owed - 1) good)
    else if good then .go (.string key)
    else .refuse .invalidEscape true
  | .sign =>
    if b == zeroDigit then .go .zero
    else if isLeadingDigit b then .go .integer
    else .refuse .invalidNumber true
  | .zero =>
    if isDigit b then .refuse .invalidNumber true
    else if b == Json.point then .go .point
    else if isExponentMark b then .go .exponentMark
    else .after
  | .integer =>
    if isDigit b then .go mode
    else if b == Json.point then .go .point
    else if isExponentMark b then .go .exponentMark
    else .after
  | .point => if isDigit b then .go .fraction else .refuse .invalidNumber true
  | .fraction =>
    if isDigit b then .go mode else if isExponentMark b then .go .exponentMark else .after
  | .exponentMark =>
    if isSign b then .go .exponentSign
    else if isDigit b then .go .exponent
    else .refuse .invalidNumber true
  | .exponentSign => if isDigit b then .go .exponent else .refuse .invalidNumber true
  | .exponent => if isDigit b then .go mode else .after

/-- The mode in which a container starts. -/
def opened : Container → Mode
  | .list => .firstElement
  | .object => .firstKey

/-- A byte after a value. -/
def afterValue (around : List Container) (b : UInt8) : Reaction :=
  match around with
  | [] => .stop
  | .list :: outer =>
    if isSpace b then .next ⟨.afterValue, around⟩
    else if b == comma then .next ⟨.value, around⟩
    else if b == closeBracket then .next ⟨.afterValue, outer⟩
    else .refuse .expectedListCommaOrEnd true
  | .object :: outer =>
    if isSpace b then .next ⟨.afterValue, around⟩
    else if b == comma then .next ⟨.nextKey, around⟩
    else if b == closeBrace then .next ⟨.afterValue, outer⟩
    else .refuse .expectedObjectCommaOrEnd true

/-- What a move comes to inside the containers around. -/
def Move.apply (around : List Container) (b : UInt8) : Move → Reaction
  | .go mode => .next ⟨mode, around⟩
  | .enter c => .next ⟨opened c, c :: around⟩
  | .leave => .next ⟨.afterValue, around.tail⟩
  | .after => afterValue around b
  | .refuse cause read => .refuse cause read

/-- One step of the machine. -/
def step (s : State) (b : UInt8) : Reaction := (s.mode.move b).apply s.around b

/-- The cause for which the end of the bytes is wrong after a value. -/
def endAfterValue : List Container → Option Cause
  | [] => none
  | .list :: _ => some .endInList
  | .object :: _ => some .endInObject

/-- What is wrong if the bytes end here, `none` if the value is whole. -/
def atEnd (s : State) : Option Cause :=
  match s.mode with
  | .value | .literal (_ :: _) => some .endInValue
  | .firstElement => some .endInList
  | .firstKey | .nextKey | .colon => some .endInObject
  | .string _ | .escape _ | .hex .. => some .endInString
  | .sign | .point | .exponentMark | .exponentSign => some .invalidNumber
  | .afterValue | .literal [] | .zero | .integer | .fraction | .exponent => endAfterValue s.around

/-- The machine over bytes: the bytes after the value. -/
def run (s : State) : Bytes → Except Fault Bytes
  | [] =>
    match atEnd s with
    | none => .ok []
    | some cause => .error ⟨cause, [], 0⟩
  | b :: bs =>
    match step s b with
    | .next s' => run s' bs
    | .stop => .ok (b :: bs)
    | .refuse cause read => .error ⟨cause, if read then bs else b :: bs, 0⟩

theorem run_cons_of_step {s s' : State} {b : UInt8} {bs : Bytes} (h : step s b = .next s') :
    run s (b :: bs) = run s' bs := by simp [run, h]

theorem run_length_le {s : State} {bs rest : Bytes} (h : run s bs = .ok rest) :
    rest.length ≤ bs.length := by
  induction bs generalizing s with
  | nil =>
    simp only [run] at h
    split at h <;> cases h
    exact Nat.le_refl _
  | cons b bs ih =>
    simp only [run] at h
    split at h
    · exact Nat.le_succ_of_le (ih h)
    · cases h; exact Nat.le_refl _
    · cases h

end Skip

/-- Passes over the value at the front. -/
def skip (bs : Bytes) : Except Fault Bytes := Skip.run Skip.start bs

/-- Whether the bytes hold a value that is still unfinished, as far as one can tell without the
bytes to come. -/
def isPrefix (bs : Bytes) : Bool :=
  match skip bs with
  | .ok _ => false
  | .error f => f.cause.category == .unfinished

end OneShot.Json
