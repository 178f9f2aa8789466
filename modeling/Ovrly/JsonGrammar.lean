import Ovrly.JsonValue

/-!
JSON text as Python's decoder reads it, over code points: a string may hold surrogates.

`Denotes` is the grammar, with the names of every object distinct and at most so many containers
inside each other; `value` is a reader for it. The number that a literal writes is the caller's,
and may be refused.
-/

namespace JsonGrammar

abbrev Text := List Nat

def codes (text : String) : Text := text.toList.map Char.toNat

@[match_pattern] abbrev quote : Nat := 34
@[match_pattern] abbrev plus : Nat := 43
@[match_pattern] abbrev comma : Nat := 44
@[match_pattern] abbrev minus : Nat := 45
@[match_pattern] abbrev point : Nat := 46
@[match_pattern] abbrev zero : Nat := 48
@[match_pattern] abbrev colon : Nat := 58
@[match_pattern] abbrev openBracket : Nat := 91
@[match_pattern] abbrev backslash : Nat := 92
@[match_pattern] abbrev closeBracket : Nat := 93
@[match_pattern] abbrev letterU : Nat := 117
@[match_pattern] abbrev openBrace : Nat := 123
@[match_pattern] abbrev closeBrace : Nat := 125

def isBlank (code : Nat) : Bool := code == 32 || code == 9 || code == 10 || code == 13

def skipBlank (text : Text) : Text := text.dropWhile isBlank

def isDigit (code : Nat) : Bool := 48 ≤ code && code ≤ 57

section Numbers

def scanInteger : Text → Option (Text × Text)
  | [] => none
  | code :: rest =>
      if code = zero then some ([zero], rest)
      else if isDigit code then
        some (code :: rest.takeWhile isDigit, rest.dropWhile isDigit)
      else none

def scanFraction : Text → Text × Text
  | [] => ([], [])
  | code :: rest =>
      if code = point ∧ rest.takeWhile isDigit ≠ [] then
        (point :: rest.takeWhile isDigit, rest.dropWhile isDigit)
      else ([], code :: rest)

def scanSign : Text → Text × Text
  | [] => ([], [])
  | code :: rest => if code = plus ∨ code = minus then ([code], rest) else ([], code :: rest)

def scanExponent : Text → Text × Text
  | [] => ([], [])
  | code :: rest =>
      let signed := scanSign rest
      if (code = 101 ∨ code = 69) ∧ signed.2.takeWhile isDigit ≠ [] then
        (code :: signed.1 ++ signed.2.takeWhile isDigit, signed.2.dropWhile isDigit)
      else ([], code :: rest)

def scanMinus : Text → Text × Text
  | [] => ([], [])
  | code :: rest => if code = minus then ([minus], rest) else ([], code :: rest)

def scanNumber (text : Text) : Option (Text × Text) :=
  let signed := scanMinus text
  (scanInteger signed.2).map fun integer =>
    let fraction := scanFraction integer.2
    let exponent := scanExponent fraction.2
    (signed.1 ++ integer.1 ++ fraction.1 ++ exponent.1, exponent.2)

def Digits (text : Text) : Prop := text ≠ [] ∧ ∀ code ∈ text, isDigit code = true

def IntegerText (text : Text) : Prop :=
  text = [zero] ∨ ∃ first rest, text = first :: rest ∧ first ≠ zero ∧ isDigit first = true ∧
    ∀ code ∈ rest, isDigit code = true

def FractionText (text : Text) : Prop :=
  text = [] ∨ ∃ digits, text = point :: digits ∧ Digits digits

def ExponentText (text : Text) : Prop :=
  text = [] ∨ ∃ letter sign digits, text = letter :: sign ++ digits ∧
    (letter = 101 ∨ letter = 69) ∧ (sign = [] ∨ sign = [plus] ∨ sign = [minus]) ∧ Digits digits

def NumberText (text : Text) : Prop :=
  ∃ sign integer fraction exponent, text = sign ++ integer ++ fraction ++ exponent ∧
    (sign = [] ∨ sign = [minus]) ∧ IntegerText integer ∧ FractionText fraction ∧
    ExponentText exponent

theorem takeWhile_all {keep : Nat → Bool} {front back : Text}
    (all : ∀ code ∈ front, keep code = true) (stops : ∀ code ∈ back.head?, keep code = false) :
    (front ++ back).takeWhile keep = front ∧ (front ++ back).dropWhile keep = back := by
  constructor
  · rw [List.takeWhile_append_of_pos all]
    cases back with
    | nil => simp
    | cons code back => simp [stops code (by simp)]
  · rw [List.dropWhile_append_of_pos all]
    cases back with
    | nil => rfl
    | cons code back => simp [stops code (by simp)]

theorem mem_takeWhile {keep : Nat → Bool} {text : Text} {code : Nat}
    (member : code ∈ text.takeWhile keep) : keep code = true :=
  List.mem_takeWhile_imp member

theorem scanInteger_sound {text integer rest : Text}
    (scanned : scanInteger text = some (integer, rest)) :
    text = integer ++ rest ∧ IntegerText integer := by
  cases text with
  | nil => cases scanned
  | cons code text =>
      rw [scanInteger] at scanned
      split at scanned
      · next isZero =>
          cases scanned
          exact ⟨by rw [isZero]; rfl, Or.inl rfl⟩
      · next nonzero =>
          split at scanned
          · next digit =>
              cases scanned
              refine ⟨?_, Or.inr ⟨code, _, rfl, nonzero, digit, fun _ => mem_takeWhile⟩⟩
              rw [List.cons_append, List.takeWhile_append_dropWhile]
          · cases scanned

theorem scanFraction_sound (text : Text) :
    text = (scanFraction text).1 ++ (scanFraction text).2 ∧
      FractionText (scanFraction text).1 := by
  cases text with
  | nil => exact ⟨rfl, Or.inl rfl⟩
  | cons code text =>
      rw [scanFraction]
      split
      · next found =>
          refine ⟨?_, Or.inr ⟨_, rfl, found.2, fun _ => mem_takeWhile⟩⟩
          rw [List.cons_append, List.takeWhile_append_dropWhile, found.1]
      · exact ⟨rfl, Or.inl rfl⟩

theorem scanSign_sound (text : Text) :
    text = (scanSign text).1 ++ (scanSign text).2 ∧
      ((scanSign text).1 = [] ∨ (scanSign text).1 = [plus] ∨ (scanSign text).1 = [minus]) := by
  cases text with
  | nil => exact ⟨rfl, Or.inl rfl⟩
  | cons code text =>
      rw [scanSign]
      split
      · next found =>
          rcases found with rfl | rfl
          · exact ⟨rfl, Or.inr (Or.inl rfl)⟩
          · exact ⟨rfl, Or.inr (Or.inr rfl)⟩
      · exact ⟨rfl, Or.inl rfl⟩

theorem scanExponent_sound (text : Text) :
    text = (scanExponent text).1 ++ (scanExponent text).2 ∧
      ExponentText (scanExponent text).1 := by
  cases text with
  | nil => exact ⟨rfl, Or.inl rfl⟩
  | cons code text =>
      obtain ⟨signed, sign⟩ := scanSign_sound text
      rw [scanExponent]
      split
      · next found =>
          refine ⟨?_, Or.inr ⟨code, _, _, rfl, found.1, sign, found.2, fun _ => mem_takeWhile⟩⟩
          rw [List.cons_append, List.cons_append, List.append_assoc,
            List.takeWhile_append_dropWhile, ← signed]
      · exact ⟨rfl, Or.inl rfl⟩

theorem scanMinus_sound (text : Text) :
    text = (scanMinus text).1 ++ (scanMinus text).2 ∧
      ((scanMinus text).1 = [] ∨ (scanMinus text).1 = [minus]) := by
  cases text with
  | nil => exact ⟨rfl, Or.inl rfl⟩
  | cons code text =>
      rw [scanMinus]
      split
      · next found =>
          rw [found]
          exact ⟨rfl, Or.inr rfl⟩
      · exact ⟨rfl, Or.inl rfl⟩

theorem scanNumber_sound {text literal rest : Text}
    (scanned : scanNumber text = some (literal, rest)) :
    text = literal ++ rest ∧ NumberText literal := by
  obtain ⟨signed, sign⟩ := scanMinus_sound text
  unfold scanNumber at scanned
  dsimp only at scanned
  cases found : scanInteger (scanMinus text).2 with
  | none => simp [found] at scanned
  | some integer =>
      obtain ⟨digits, isInteger⟩ := scanInteger_sound found
      obtain ⟨pointed, isFraction⟩ := scanFraction_sound integer.2
      obtain ⟨raised, isExponent⟩ := scanExponent_sound (scanFraction integer.2).2
      simp only [found, Option.map_some, Option.some.injEq, Prod.mk.injEq] at scanned
      obtain ⟨rfl, rfl⟩ := scanned
      refine ⟨?_, _, _, _, _, rfl, sign, isInteger, isFraction, isExponent⟩
      conv_lhs => rw [signed, digits, pointed, raised]
      simp only [List.append_assoc]

def NumberEnds (rest : Text) : Prop :=
  ∀ code ∈ rest.head?, isDigit code = false ∧ code ≠ point ∧ code ≠ 101 ∧ code ≠ 69

theorem scanExponent_complete {exponent rest : Text} (isExponent : ExponentText exponent)
    (ends : NumberEnds rest) : scanExponent (exponent ++ rest) = (exponent, rest) := by
  rcases isExponent with rfl | ⟨letter, sign, digits, rfl, isLetter, isSign, isDigits⟩
  · cases rest with
    | nil => rfl
    | cons code rest =>
        have other := ends code (by simp)
        rw [List.nil_append, scanExponent,
          if_neg (by rintro ⟨rfl | rfl, -⟩ <;> simp at other)]
  · obtain ⟨all, tail⟩ : (digits ++ rest).takeWhile isDigit = digits ∧
        (digits ++ rest).dropWhile isDigit = rest :=
      takeWhile_all isDigits.2 fun code member => (ends code member).1
    have signed : scanSign (sign ++ (digits ++ rest)) = (sign, digits ++ rest) := by
      rcases isSign with rfl | rfl | rfl
      · cases digits with
        | nil => exact absurd rfl isDigits.1
        | cons digit digits =>
            have isDigit := isDigits.2 digit (by simp)
            rw [List.nil_append, List.cons_append, scanSign, if_neg]
            rintro (rfl | rfl) <;> exact absurd isDigit (by decide)
      · rfl
      · rfl
    rw [List.append_assoc, List.cons_append, scanExponent, signed, all, tail,
      if_pos ⟨isLetter, isDigits.1⟩]

theorem scanFraction_complete {fraction rest : Text} (isFraction : FractionText fraction)
    (ends : ∀ code ∈ rest.head?, isDigit code = false ∧ code ≠ point) :
    scanFraction (fraction ++ rest) = (fraction, rest) := by
  rcases isFraction with rfl | ⟨digits, rfl, isDigits⟩
  · cases rest with
    | nil => rfl
    | cons code rest =>
        rw [List.nil_append, scanFraction, if_neg]
        exact fun both => (ends code (by simp)).2 both.1
  · obtain ⟨all, tail⟩ : (digits ++ rest).takeWhile isDigit = digits ∧
        (digits ++ rest).dropWhile isDigit = rest :=
      takeWhile_all isDigits.2 fun code member => (ends code member).1
    rw [List.cons_append, scanFraction, all, tail, if_pos ⟨rfl, isDigits.1⟩]

theorem scanInteger_complete {integer rest : Text} (isInteger : IntegerText integer)
    (ends : ∀ code ∈ rest.head?, isDigit code = false) :
    scanInteger (integer ++ rest) = some (integer, rest) := by
  rcases isInteger with rfl | ⟨first, digits, rfl, nonzero, digit, isDigits⟩
  · rfl
  · obtain ⟨all, tail⟩ := takeWhile_all isDigits ends
    rw [List.cons_append, scanInteger, if_neg nonzero, if_pos digit, all, tail]

theorem head_exponent {exponent rest : Text} (isExponent : ExponentText exponent)
    (ends : NumberEnds rest) :
    ∀ code ∈ (exponent ++ rest).head?, isDigit code = false ∧ code ≠ point := by
  rcases isExponent with rfl | ⟨letter, sign, digits, rfl, isLetter, -, -⟩
  · exact fun code member => ⟨(ends code member).1, (ends code member).2.1⟩
  · intro code member
    obtain rfl : letter = code := by simpa using member
    rcases isLetter with rfl | rfl <;> decide

theorem scanNumber_complete {literal rest : Text} (isNumber : NumberText literal)
    (ends : NumberEnds rest) : scanNumber (literal ++ rest) = some (literal, rest) := by
  obtain ⟨sign, integer, fraction, exponent, rfl, isSign, isInteger, isFraction, isExponent⟩ :=
    isNumber
  have tail := head_exponent isExponent ends
  have after : ∀ code ∈ (fraction ++ (exponent ++ rest)).head?, isDigit code = false := by
    rcases isFraction with rfl | ⟨digits, rfl, -⟩
    · exact fun code member => (tail code member).1
    · intro code member
      obtain rfl : point = code := by simpa using member
      decide
  have signed : scanMinus (sign ++ (integer ++ (fraction ++ (exponent ++ rest)))) =
      (sign, integer ++ (fraction ++ (exponent ++ rest))) := by
    rcases isSign with rfl | rfl
    · rcases isInteger with rfl | ⟨first, digits, rfl, -, digit, -⟩
      · rfl
      · rw [List.nil_append, List.cons_append, scanMinus, if_neg]
        rintro rfl
        exact absurd digit (by decide)
    · rfl
  simp only [List.append_assoc]
  unfold scanNumber
  dsimp only
  rw [signed]
  dsimp only
  rw [scanInteger_complete isInteger after, Option.map_some]
  dsimp only
  rw [scanFraction_complete isFraction tail]
  dsimp only
  rw [scanExponent_complete isExponent ends]
  simp only [List.append_assoc]

end Numbers

section Strings

/-- A part of a string: a code point, or the value of a `\u` escape. -/
inductive StringUnit
  | plain (code : Nat)
  | escaped (code : Nat)
  deriving DecidableEq, Repr

def isHigh (code : Nat) : Bool := 0xd800 ≤ code && code ≤ 0xdbff

def isLow (code : Nat) : Bool := 0xdc00 ≤ code && code ≤ 0xdfff

def surrogatePair (high low : Nat) : Nat := 0x10000 + (high - 0xd800) * 0x400 + (low - 0xdc00)

/-- The code points of a string after a high surrogate that was escaped, if one was. -/
def joinAfter : Option Nat → List StringUnit → Text
  | none, [] => []
  | some high, [] => [high]
  | none, .plain code :: rest => code :: joinAfter none rest
  | some high, .plain code :: rest => high :: code :: joinAfter none rest
  | none, .escaped code :: rest =>
      if isHigh code then joinAfter (some code) rest else code :: joinAfter none rest
  | some high, .escaped code :: rest =>
      if isLow code then surrogatePair high code :: joinAfter none rest
      else if isHigh code then high :: joinAfter (some code) rest
      else high :: code :: joinAfter none rest

def joinUnits (units : List StringUnit) : Text := joinAfter none units

def hexDigit? (code : Nat) : Option Nat :=
  if 48 ≤ code ∧ code ≤ 57 then some (code - 48)
  else if 65 ≤ code ∧ code ≤ 70 then some (code - 55)
  else if 97 ≤ code ∧ code ≤ 102 then some (code - 87)
  else none

def hex4? (first second third fourth : Nat) : Option Nat := do
  let first ← hexDigit? first
  let second ← hexDigit? second
  let third ← hexDigit? third
  let fourth ← hexDigit? fourth
  return ((first * 16 + second) * 16 + third) * 16 + fourth

def shortEscape? (code : Nat) : Option Nat :=
  if code = quote ∨ code = backslash ∨ code = 47 then some code
  else if code = 98 then some 8
  else if code = 102 then some 12
  else if code = 110 then some 10
  else if code = 114 then some 13
  else if code = 116 then some 9
  else none

def scanString : Text → Option (List StringUnit × Text)
  | [] => none
  | quote :: rest => some ([], rest)
  | backslash :: letterU :: first :: second :: third :: fourth :: rest => do
      let code ← hex4? first second third fourth
      let scanned ← scanString rest
      return (.escaped code :: scanned.1, scanned.2)
  | backslash :: letter :: rest => do
      let code ← shortEscape? letter
      let scanned ← scanString rest
      return (.plain code :: scanned.1, scanned.2)
  | code :: rest =>
      if code = backslash ∨ code < 32 then none
      else (scanString rest).map fun scanned => (.plain code :: scanned.1, scanned.2)

inductive StringText : Text → List StringUnit → Prop
  | nil : StringText [] []
  | plain {code : Nat} {text : Text} {units : List StringUnit} : code ≠ quote →
      code ≠ backslash → 32 ≤ code → StringText text units →
      StringText (code :: text) (.plain code :: units)
  | short {letter code : Nat} {text : Text} {units : List StringUnit} :
      shortEscape? letter = some code → StringText text units →
      StringText (backslash :: letter :: text) (.plain code :: units)
  | unicode {first second third fourth code : Nat} {text : Text} {units : List StringUnit} :
      hex4? first second third fourth = some code → StringText text units →
      StringText (backslash :: letterU :: first :: second :: third :: fourth :: text)
        (.escaped code :: units)

theorem shortEscape_letterU : shortEscape? letterU = none := rfl

theorem scanString_sound {text rest : Text} {units : List StringUnit}
    (scanned : scanString text = some (units, rest)) :
    ∃ body, text = body ++ quote :: rest ∧ StringText body units := by
  induction text using scanString.induct generalizing units rest with
  | case1 => cases scanned
  | case2 text =>
      cases scanned
      exact ⟨[], rfl, .nil⟩
  | case3 first second third fourth text ih =>
      rw [scanString] at scanned
      cases found : hex4? first second third fourth with
      | none => simp [found] at scanned
      | some code =>
          cases next : scanString text with
          | none => simp [found, next] at scanned
          | some more =>
              simp only [found, next, Option.bind_eq_bind, Option.bind_some, Option.pure_def,
                Option.some.injEq, Prod.mk.injEq] at scanned
              obtain ⟨rfl, rfl⟩ := scanned
              obtain ⟨body, rfl, isBody⟩ := ih next
              exact ⟨_, rfl, .unicode found isBody⟩
  | case4 letter text other ih =>
      rw [scanString] at scanned
      · cases found : shortEscape? letter with
        | none => simp [found] at scanned
        | some code =>
            cases next : scanString text with
            | none => simp [found, next] at scanned
            | some more =>
                simp only [found, next, Option.bind_eq_bind, Option.bind_some, Option.pure_def,
                  Option.some.injEq, Prod.mk.injEq] at scanned
                obtain ⟨rfl, rfl⟩ := scanned
                obtain ⟨body, rfl, isBody⟩ := ih next
                exact ⟨_, rfl, .short found isBody⟩
      · exact other
  | case5 code text notQuote notEscape notLetter refused =>
      rw [scanString] at scanned
      · rw [if_pos refused] at scanned
        cases scanned
      · exact notQuote
      · exact notEscape
      · exact notLetter
  | case6 code text notQuote notEscape notLetter accepted ih =>
      rw [scanString] at scanned
      · rw [if_neg accepted] at scanned
        cases next : scanString text with
        | none => simp [next] at scanned
        | some more =>
            simp only [next, Option.map_some, Option.some.injEq, Prod.mk.injEq] at scanned
            obtain ⟨rfl, rfl⟩ := scanned
            obtain ⟨body, rfl, isBody⟩ := ih next
            simp only [not_or, Nat.not_lt] at accepted
            exact ⟨code :: body, rfl, .plain notQuote accepted.1 accepted.2 isBody⟩
      · exact notQuote
      · exact notEscape
      · exact notLetter

theorem scanString_complete {body : Text} {units : List StringUnit} (isBody : StringText body units)
    (rest : Text) : scanString (body ++ quote :: rest) = some (units, rest) := by
  induction isBody with
  | nil => rfl
  | plain notQuote notBackslash printable _ ih =>
      rw [List.cons_append, scanString, if_neg (by omega), ih]
      · rfl
      · exact notQuote
      · rintro _ _ _ _ _ rfl
        exact absurd rfl notBackslash
      · rintro _ _ rfl
        exact absurd rfl notBackslash
  | short found _ ih =>
      rw [List.cons_append, List.cons_append, scanString]
      · simp [found, ih]
      · rintro _ _ _ _ _ rfl
        rw [shortEscape_letterU] at found
        cases found
  | unicode found _ ih => simp [scanString, found, ih]

end Strings

end JsonGrammar
