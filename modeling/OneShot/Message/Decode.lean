import OneShot.Json.Skip
import OneShot.Message

/-! # Reading a message

A message is read from a JSON object, whose other members are passed over, or from a list of two
elements. White space may surround it, nothing else.

A misfit that concerns the whole container (a member that is missing or comes twice, a list that is
too short) is placed where the reader stands after it has tried to close the container.
-/

namespace OneShot.Message

open Json

/-- The rest of a word of the grammar. -/
def literal : (tail : Bytes) → Bytes → Except Fault Bytes
  | [], rest => .ok rest
  | _ :: _, [] => .error ⟨.endInValue, [], 0⟩
  | c :: tail, b :: rest => if b == c then literal tail rest else .error ⟨.expectedLiteral, rest, 0⟩

/-- What the word with the given first letter stands for. -/
def literalFound (b : UInt8) : Found :=
  if b == 0x6E then .null else .boolean (b == 0x74)

/-- The fault of a value that starts with `b` where something else was expected. A scalar is read to
its end first, and may turn out to be malformed. -/
def mismatch (expected : String) (b : UInt8) (rest : Bytes) : Fault :=
  let misfit (found : Found) (rest : Bytes) : Fault :=
    ⟨.misfit (.wrongType found expected), rest, 0⟩
  match literalTail? b with
  | some tail =>
    match literal tail rest with
    | .ok rest => misfit (literalFound b) rest
    | .error f => f
  | none =>
    if b == quoteByte then
      match StringBody.read rest with
      | .ok (s, rest) => misfit (.string s) rest
      | .error f => f
    else if b == minus then
      match Numeral.read true rest with
      | .ok (x, rest) => misfit x.found rest
      | .error f => f
    else if isDigit b then
      match Numeral.read false (b :: rest) with
      | .ok (x, rest) => misfit x.found rest
      | .error f => f
    else if b == openBracket then misfit .sequence (b :: rest)
    else if b == openBrace then misfit .map (b :: rest)
    else ⟨.expectedValue, rest, 0⟩

/-- A value that has to be a string. -/
def textValue (bs : Bytes) : Result String :=
  match skipSpace bs with
  | [] => .error ⟨.endInValue, [], 0⟩
  | b :: rest =>
    if b == quoteByte then StringBody.read rest else .error (mismatch "a string" b rest)

/-- The identifier that a number stands for. -/
def identifier (x : Numeral) (rest : Bytes) : Result Int64 :=
  match x with
  | .unsigned n =>
    if n < 0x8000000000000000 then .ok (Int64.ofInt n, rest)
    else .error ⟨.misfit (.wrongValue x.found "i64"), rest, 0⟩
  | .negative n => .ok (Int64.ofInt n, rest)
  | .double _ => .error ⟨.misfit (.wrongType x.found "i64"), rest, 0⟩

/-- A value that has to be an identifier. -/
def idValue (bs : Bytes) : Result Int64 :=
  match skipSpace bs with
  | [] => .error ⟨.endInValue, [], 0⟩
  | b :: rest =>
    if b == minus then
      match Numeral.read true rest with
      | .ok (x, rest) => identifier x rest
      | .error f => .error f
    else if isDigit b then
      match Numeral.read false (b :: rest) with
      | .ok (x, rest) => identifier x rest
      | .error f => .error f
    else .error (mismatch "i64" b rest)

theorem textValue_length_le {bs rest : Bytes} {s : String} (h : textValue bs = .ok (s, rest)) :
    rest.length ≤ bs.length := by
  simp only [textValue] at h
  split at h
  · cases h
  next heq =>
    have := length_lt_of_skipSpace heq
    split at h
    · have := StringBody.read_length_lt h; omega
    · cases h

theorem identifier_eq_rest {x : Numeral} {bs rest : Bytes} {n : Int64}
    (h : identifier x bs = .ok (n, rest)) : rest = bs := by
  cases x with
  | unsigned n => simp only [identifier] at h; split at h <;> cases h; rfl
  | negative n => cases h; rfl
  | double x => cases h

theorem idValue_length_le {bs rest : Bytes} {n : Int64} (h : idValue bs = .ok (n, rest)) :
    rest.length ≤ bs.length := by
  simp only [idValue] at h
  split at h
  · cases h
  next heq =>
    have := length_lt_of_skipSpace heq
    split at h
    · split at h
      next hr =>
        have := Numeral.read_length_lt hr
        rw [identifier_eq_rest h]
        omega
      · cases h
    · split at h
      · split at h
        next hr =>
          have := Numeral.read_length_lt hr
          rw [identifier_eq_rest h]
          simp only [List.length_cons] at this
          omega
        · cases h
      · cases h

/-- Why a container could not be read: a fault with its place, or a misfit of the container. -/
inductive Stop where
  | fault (f : Fault)
  | misfit (m : Misfit) (rest : Bytes)

/-- The members read so far. -/
structure Members where
  text : Option String := none
  id : Option Int64 := none

/-- The message that the members make up. -/
def Members.finish (ms : Members) : Except Misfit Message :=
  match ms.text, ms.id with
  | none, _ => .error (.missing "text")
  | some _, none => .error (.missing "id")
  | some text, some id => .ok ⟨text, id⟩

/-- The bytes from the next key on, after its quote, or `none` at the closing brace. -/
def nextKey (first : Bool) (bs : Bytes) : Except Fault (Option Bytes) :=
  match skipSpace bs with
  | [] => .error ⟨.endInObject, [], 0⟩
  | b :: rest =>
    if b == closeBrace then .ok none
    else if first then
      if b == quoteByte then .ok (some rest) else .error ⟨.keyNotString, rest, 0⟩
    else if b == comma then
      match skipSpace rest with
      | [] => .error ⟨.endInValue, [], 0⟩
      | c :: rest =>
        if c == quoteByte then .ok (some rest)
        else if c == closeBrace then .error ⟨.trailingComma, rest, 0⟩
        else .error ⟨.keyNotString, rest, 0⟩
    else .error ⟨.expectedObjectCommaOrEnd, rest, 0⟩

/-- Takes the colon after a key. -/
def afterColon (bs : Bytes) : Except Fault Bytes :=
  match skipSpace bs with
  | [] => .error ⟨.endInObject, [], 0⟩
  | b :: rest => if b == Json.colon then .ok rest else .error ⟨.expectedColon, rest, 0⟩

theorem nextKey_length_lt {first : Bool} {bs rest : Bytes}
    (h : nextKey first bs = .ok (some rest)) : rest.length < bs.length := by
  simp only [nextKey] at h
  split at h
  · cases h
  next heq =>
    have := length_lt_of_skipSpace heq
    repeat' split at h
    all_goals first
      | (cases h; done)
      | (cases h; assumption)
      | skip
    next hc _ =>
      cases h
      have := length_lt_of_skipSpace hc
      omega

theorem afterColon_length_le {bs rest : Bytes} (h : afterColon bs = .ok rest) :
    rest.length ≤ bs.length := by
  simp only [afterColon] at h
  split at h
  · cases h
  next heq =>
    have := length_lt_of_skipSpace heq
    split at h <;> cases h
    omega

/-- A value after its colon. -/
def memberValue {α : Type} (read : Bytes → Result α) (bs : Bytes) : Except Stop (α × Bytes) :=
  match afterColon bs with
  | .error f => .error (.fault f)
  | .ok rest =>
    match read rest with
    | .error f => .error (.fault f)
    | .ok value => .ok value

theorem memberValue_length_le {α : Type} {read : Bytes → Result α} {bs rest : Bytes} {x : α}
    (hread : ∀ bs x rest, read bs = .ok (x, rest) → rest.length ≤ bs.length)
    (h : memberValue read bs = .ok (x, rest)) : rest.length ≤ bs.length := by
  simp only [memberValue] at h
  split at h
  · cases h
  next hc =>
    have := afterColon_length_le hc
    split at h <;> cases h
    next hr => have := hread _ _ _ hr; omega

/-- A value that is passed over. -/
def anyValue (bs : Bytes) : Result Unit :=
  match skip bs with
  | .ok rest => .ok ((), rest)
  | .error f => .error f

theorem anyValue_length_le (bs : Bytes) (x : Unit) (rest : Bytes)
    (h : anyValue bs = .ok (x, rest)) : rest.length ≤ bs.length := by
  simp only [anyValue] at h
  split at h <;> cases h
  next hs => exact Skip.run_length_le hs

/-- The value of the member `key`, added to those before it. -/
def member (ms : Members) (key : String) (bs : Bytes) : Except Stop (Members × Bytes) :=
  if key = "text" then
    if ms.text.isSome then .error (.misfit (.duplicate "text") bs)
    else match memberValue textValue bs with
      | .ok (text, rest) => .ok ({ ms with text := some text }, rest)
      | .error stop => .error stop
  else if key = "id" then
    if ms.id.isSome then .error (.misfit (.duplicate "id") bs)
    else match memberValue idValue bs with
      | .ok (id, rest) => .ok ({ ms with id := some id }, rest)
      | .error stop => .error stop
  else match memberValue anyValue bs with
    | .ok (_, rest) => .ok (ms, rest)
    | .error stop => .error stop

theorem member_length_le {ms ms' : Members} {key : String} {bs rest : Bytes}
    (h : member ms key bs = .ok (ms', rest)) : rest.length ≤ bs.length := by
  simp only [member] at h
  repeat' split at h
  all_goals first
    | (cases h; done)
    | skip
  · next hv => cases h; exact memberValue_length_le (fun _ _ _ => textValue_length_le) hv
  · next hv => cases h; exact memberValue_length_le (fun _ _ _ => idValue_length_le) hv
  · next hv => cases h; exact memberValue_length_le anyValue_length_le hv

/-- The members up to the closing brace, which is left in place. -/
def members (ms : Members) (first : Bool) (bs : Bytes) : Except Stop (Message × Bytes) :=
  match _hkey : nextKey first bs with
  | .error f => .error (.fault f)
  | .ok none =>
    match ms.finish with
    | .ok m => .ok (m, skipSpace bs)
    | .error misfit => .error (.misfit misfit (skipSpace bs))
  | .ok (some keyBytes) =>
    match _hread : StringBody.read keyBytes with
    | .error f => .error (.fault f)
    | .ok (key, afterKey) =>
      match _hmember : member ms key afterKey with
      | .error stop => .error stop
      | .ok (ms, rest) => members ms false rest
termination_by bs.length
decreasing_by
  have := nextKey_length_lt _hkey
  have := StringBody.read_length_lt _hread
  have := member_length_le _hmember
  omega

/-- Closes an object after its members. -/
def endObject (bs : Bytes) : Except Fault Bytes :=
  match skipSpace bs with
  | [] => .error ⟨.endInObject, [], 0⟩
  | b :: rest =>
    if b == closeBrace then .ok rest
    else if b == comma then .error ⟨.trailingComma, rest, 0⟩
    else .error ⟨.trailingCharacters, rest, 0⟩

/-- Where the reader stands after it has tried to close an object. -/
def afterObject (bs : Bytes) : Bytes :=
  match endObject bs with
  | .ok rest => rest
  | .error _ => skipSpace bs

/-- A message as an object, after its opening brace. -/
def object (bs : Bytes) : Result Message :=
  match members {} true bs with
  | .error (.fault f) => .error f
  | .error (.misfit m rest) => .error ⟨.misfit m, afterObject rest, 0⟩
  | .ok (m, rest) =>
    match endObject rest with
    | .ok rest => .ok (m, rest)
    | .error f => .error f

/-- Whether a list has a next element, which then starts the bytes. -/
def nextElement (first : Bool) (bs : Bytes) : Except Fault (Option Bytes) :=
  match skipSpace bs with
  | [] => .error ⟨.endInList, [], 0⟩
  | b :: rest =>
    if b == closeBracket then .ok none
    else if first then .ok (some (b :: rest))
    else if b == comma then
      match skipSpace rest with
      | [] => .error ⟨.endInValue, [], 0⟩
      | c :: rest =>
        if c == closeBracket then .error ⟨.trailingComma, rest, 0⟩ else .ok (some (c :: rest))
    else .error ⟨.expectedListCommaOrEnd, rest, 0⟩

/-- The element at `index`, of which a message has two. -/
def element {α : Type} (index : Nat) (read : Bytes → Result α) (bs : Bytes) :
    Except Stop (α × Bytes) :=
  match nextElement (index == 0) bs with
  | .error f => .error (.fault f)
  | .ok none =>
    .error (.misfit (.wrongLength index "struct Message with 2 elements") (skipSpace bs))
  | .ok (some rest) =>
    match read rest with
    | .error f => .error (.fault f)
    | .ok value => .ok value

/-- The two elements of a list, up to its end. -/
def elements (bs : Bytes) : Except Stop (Message × Bytes) :=
  match element 0 textValue bs with
  | .error stop => .error stop
  | .ok (text, rest) =>
    match element 1 idValue rest with
    | .error stop => .error stop
    | .ok (id, rest) => .ok (⟨text, id⟩, rest)

/-- Closes a list after its elements. -/
def endList (bs : Bytes) : Except Fault Bytes :=
  match skipSpace bs with
  | [] => .error ⟨.endInList, [], 0⟩
  | b :: rest =>
    if b == closeBracket then .ok rest
    else if b == comma then
      let tail := skipSpace rest
      if tail.head? == some closeBracket then .error (faultAtNext .trailingComma tail)
      else .error (faultAtNext .trailingCharacters tail)
    else .error ⟨.trailingCharacters, rest, 0⟩

/-- Where the reader stands after it has tried to close a list. -/
def afterList (bs : Bytes) : Bytes :=
  match skipSpace bs with
  | [] => []
  | b :: rest =>
    if b == closeBracket then rest
    else if b == comma then skipSpace rest
    else b :: rest

/-- A message as a list, after its opening bracket. -/
def list (bs : Bytes) : Result Message :=
  match elements bs with
  | .error (.fault f) => .error f
  | .error (.misfit m rest) => .error ⟨.misfit m, afterList rest, 0⟩
  | .ok (m, rest) =>
    match endList rest with
    | .ok rest => .ok (m, rest)
    | .error f => .error f

/-- A message in either form, after white space. -/
def value (bs : Bytes) : Result Message :=
  match skipSpace bs with
  | [] => .error ⟨.endInValue, [], 0⟩
  | b :: rest =>
    if b == openBrace then object rest
    else if b == openBracket then list rest
    else .error (mismatch "struct Message" b rest)

/-- A message and nothing after it but white space. -/
def whole (bs : Bytes) : Except Fault Message :=
  match value bs with
  | .error f => .error f
  | .ok (m, rest) =>
    match skipSpace rest with
    | [] => .ok m
    | _ :: tail => .error ⟨.trailingCharacters, tail, 0⟩

/-- The message that a payload spells. -/
def decode (payload : Bytes) : Except Json.Error Message :=
  match whole payload with
  | .ok m => .ok m
  | .error f => .error (f.locate payload)

end OneShot.Message
