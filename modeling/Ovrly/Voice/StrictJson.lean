import Ovrly.JsonDecode
import Ovrly.PyText

/-!
The recogniser in front of the JSON parser of a voice session (`StrictJson` of
`voice/VoiceProtocol.kt` of the Android app), over the UTF-16 units of a text.

The text from `index` on stands for the index. `JSONArray(text).getString(0)` is the caller's; it
may throw.
-/

namespace Ovrly.Voice

open JsonGrammar

/-- What is thrown. No text makes the recogniser run out of fuel. -/
inductive Fault
  | voiceProtocol
  | json
  | fuel
  deriving DecidableEq, Repr

abbrev Result := Except Fault

theorem Result.bind_ok {α β : Type} {result : Result α} {next : α → Result β} {found : β} :
    (result >>= next) = .ok found ↔ ∃ value, result = .ok value ∧ next value = .ok found := by
  cases result with
  | error fault => simp [bind, Except.bind]
  | ok value => simp [bind, Except.bind]

theorem Result.bind_fuel {α β : Type} {result : Result α} {next : α → Result β} :
    (result >>= next) = .error .fuel ↔
      result = .error .fuel ∨ ∃ value, result = .ok value ∧ next value = .error .fuel := by
  cases result with
  | error fault => simp [bind, Except.bind]
  | ok value => simp [bind, Except.bind]

/-- `Character.digit(unit, 16)` -/
def digit16 (unit : Nat) : Option Nat :=
  match PyText.decimalZeros.find? fun first => first ≤ unit && unit ≤ first + 9 with
  | some first => some (unit - first)
  | none =>
      if 65 ≤ unit ∧ unit ≤ 70 then some (unit - 55)
      else if 97 ≤ unit ∧ unit ≤ 102 then some (unit - 87)
      else if 0xff21 ≤ unit ∧ unit ≤ 0xff26 then some (unit - 0xff17)
      else if 0xff41 ≤ unit ∧ unit ≤ 0xff46 then some (unit - 0xff37)
      else none

namespace StrictJson

def peek (text : Text) : Nat := text.headD 0

def take (char : Nat) (text : Text) : Option Text :=
  if peek text = char then some text.tail else none

def orThrow {α : Type} (fault : Fault) : Option α → Result α
  | some found => .ok found
  | none => .error fault

theorem orThrow_ok {α : Type} {fault : Fault} {answer : Option α} {found : α} :
    orThrow fault answer = .ok found ↔ answer = some found := by
  cases answer with
  | none => simp [orThrow]
  | some other => simp [orThrow]

theorem orThrow_fuel {α : Type} {fault : Fault} {answer : Option α} (thrown : fault ≠ .fuel) :
    orThrow fault answer ≠ .error .fuel := by
  cases answer with
  | none => simpa [orThrow] using thrown
  | some other => simp [orThrow]

def require {α : Type} (answer : Option α) : Result α := orThrow .voiceProtocol answer

def expect (char : Nat) (text : Text) : Result Text := require (take char text)

def whitespace (text : Text) : Text := skipBlank text

def literal (word text : Text) : Result Text := require (JsonGrammar.expect word text)

section Numbers

def digits (text : Text) : Option Text :=
  if isDigit (peek text) then some (text.dropWhile isDigit) else none

def integer (text : Text) : Option Text :=
  match take zero text with
  | some rest => some rest
  | none =>
      if 49 ≤ peek text ∧ peek text ≤ 57 then some (text.dropWhile isDigit) else none

def fraction (text : Text) : Option Text :=
  match take point text with
  | some rest => digits rest
  | none => some text

def skipSign (text : Text) : Text :=
  match take plus text with
  | some rest => rest
  | none => (take minus text).getD text

def exponent (text : Text) : Option Text :=
  match (take 101 text).or (take 69 text) with
  | some rest => digits (skipSign rest)
  | none => some text

def number (text : Text) : Option Text := do
  let text ← integer ((take minus text).getD text)
  let text ← fraction text
  exponent text

end Numbers

section Strings

def escapes : Text := codes "\"\\/bfnrt"

/-- The rest of a string literal, its closing quote included, and the text after it. -/
def scan : Text → Option (Text × Text)
  | [] => none
  | quote :: rest => some ([quote], rest)
  | backslash :: letterU :: first :: second :: third :: fourth :: rest =>
      if (digit16 first).isSome ∧ (digit16 second).isSome ∧ (digit16 third).isSome ∧
          (digit16 fourth).isSome then
        (scan rest).map fun found =>
          (backslash :: letterU :: first :: second :: third :: fourth :: found.1, found.2)
      else none
  | backslash :: escape :: rest =>
      if escape ∈ escapes then
        (scan rest).map fun found => (backslash :: escape :: found.1, found.2)
      else none
  | char :: rest =>
      if char < 32 ∨ char = backslash then none
      else (scan rest).map fun found => (char :: found.1, found.2)

end Strings

-- `JSONArray(text).getString(0)`, or nothing where it throws `JSONException`.
variable (jsonArray : Text → Option Text)

def string (text : Text) : Result (Text × Text) := do
  let rest ← expect quote text
  let found ← require (scan rest)
  let decoded ← orThrow .json (jsonArray (openBracket :: quote :: (found.1 ++ [closeBracket])))
  return (decoded, found.2)

/-- The text from `index` on, and how many values began before it. -/
structure Cursor where
  rest : Text
  values : Nat
  deriving DecidableEq, Repr

abbrev Item := Cursor → Result Cursor

def closeOr (close : Nat) (again : Item) (cursor : Cursor) : Result Cursor :=
  let text := whitespace cursor.rest
  match take close text with
  | some rest => return ⟨rest, cursor.values⟩
  | none => do
      let rest ← expect comma text
      again ⟨rest, cursor.values⟩

/-- The loop of `'['`. -/
def elements (item : Item) : Nat → Item
  | 0, _ => .error .fuel
  | fuel + 1, cursor => do
      let next ← item cursor
      closeOr closeBracket (elements item fuel) next

/-- The loop of `'\x7b'`. -/
def members (item : Item) : Nat → List Text → Item
  | 0, _, _ => .error .fuel
  | fuel + 1, keys, cursor => do
      let key ← string jsonArray (whitespace cursor.rest)
      if keys.contains key.1 then .error .voiceProtocol
      else do
        let rest ← expect colon (whitespace key.2)
        let next ← item ⟨rest, cursor.values⟩
        closeOr closeBrace (members item fuel (key.1 :: keys)) next

/-- The branches of `value` that are no container. -/
def scalar (text : Text) : Result Text :=
  if peek text = quote then (string jsonArray text).map Prod.snd
  else if peek text = 116 then literal (codes "true") text
  else if peek text = 102 then literal (codes "false") text
  else if peek text = 110 then literal (codes "null") text
  else require (number text)

def value : Nat → Item
  | 0, _ => .error .voiceProtocol
  | depths + 1, cursor =>
      let values := cursor.values + 1
      if 512 < values then .error .voiceProtocol
      else
        let text := whitespace cursor.rest
        if peek text = openBrace then
          let text := whitespace text.tail
          match take closeBrace text with
          | some rest => .ok ⟨rest, values⟩
          | none => members jsonArray (value depths) (text.length + 1) [] ⟨text, values⟩
        else if peek text = openBracket then
          let text := whitespace text.tail
          match take closeBracket text with
          | some rest => .ok ⟨rest, values⟩
          | none => elements (value depths) (text.length + 1) ⟨text, values⟩
        else do
          let rest ← scalar jsonArray text
          return ⟨rest, values⟩

def depths : Nat := 13

def validate (source : Text) : Result Unit := do
  let text := whitespace source
  if peek text ≠ openBrace then .error .voiceProtocol
  else do
    let next ← value jsonArray depths ⟨text, 0⟩
    if whitespace next.rest = [] then return () else .error .voiceProtocol

end StrictJson

end Ovrly.Voice
