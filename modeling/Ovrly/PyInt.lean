import Ovrly.PyLower

/-!
Python's `int(text, base)`: digits of any script, white space around them, a sign, the mark of the
base, and single underscores between the digits.
-/

namespace PyText

def asciiDigit (character : Char) : Char :=
  match digit? character with
  | some value => Char.ofNat (48 + value)
  | none => character

def numeralValue (character : Char) : Option Nat :=
  if '0' ≤ character ∧ character ≤ '9' then some (character.toNat - 48)
  else if 'a' ≤ character ∧ character ≤ 'z' then some (character.toNat - 87)
  else if 'A' ≤ character ∧ character ≤ 'Z' then some (character.toNat - 55)
  else none

def baseMarks (base : Nat) : List Char :=
  if base = 16 then ['x', 'X'] else if base = 8 then ['o', 'O'] else if base = 2 then ['b', 'B']
  else []

def dropUnderscore : List Char → List Char
  | '_' :: digits => digits
  | digits => digits

/-- Drops `0x` and its like, and one underscore after it. -/
def dropBase (base : Nat) : List Char → List Char
  | '0' :: mark :: rest =>
      if mark ∈ baseMarks base then dropUnderscore rest else '0' :: mark :: rest
  | text => text

/-- `sys.int_info.default_max_str_digits` -/
def maxStrDigits : Nat := 4300

def readDigits (base : Nat) (digits : List Char) : Option Nat :=
  digits.foldlM (fun value character => do
    let digit ← numeralValue character
    if digit < base then return base * value + digit else none) 0

def magnitude (base : Nat) (text : List Char) : Option Nat :=
  let words := text.splitOn '_'
  if words.any List.isEmpty then none
  else if base ∉ [2, 4, 8, 16, 32] ∧ maxStrDigits < words.flatten.length then none
  else readDigits base words.flatten

def signed (base : Nat) : List Char → Option Int
  | '+' :: text => (magnitude base (dropBase base text)).map Int.ofNat
  | '-' :: text => (magnitude base (dropBase base text)).map fun value => -Int.ofNat value
  | text => (magnitude base (dropBase base text)).map Int.ofNat

/-- `int(text, base)`; `none` for a `ValueError`. -/
def int (base : Nat) (text : List Char) : Option Int :=
  signed base (strip numeralSpace (text.map asciiDigit))

section Letters

theorem asciiLower_mark {mark : Char} (small : mark ∉ upperLetters)
    (other : ∀ character ∈ upperLetters, Char.ofNat (character.toNat + 32) ≠ mark)
    (character : Char) : asciiLower character = mark ↔ character = mark := by
  refine asciiLower_cases (motive := fun before after => after = mark ↔ before = mark) ?_ ?_
    character
  · intro letter upper
    constructor
    · intro same
      exact absurd same (other letter upper)
    · rintro rfl
      exact absurd upper small
  · exact fun _ _ => Iff.rfl

theorem digit?_le {character : Char} {value : Nat} (read : digit? character = some value) :
    value ≤ 9 := by
  obtain ⟨first, found, rfl⟩ := Option.map_eq_some_iff.mp read
  have inside := List.find?_some found
  simp only [Bool.and_eq_true, decide_eq_true_eq] at inside
  omega

theorem asciiDigit_small {character : Char} (small : character ∉ upperLetters) :
    asciiDigit character ∉ upperLetters := by
  cases read : digit? character with
  | none =>
      rw [asciiDigit, read]
      exact small
  | some value =>
      have digits : ∀ value, value ≤ 9 → Char.ofNat (48 + value) ∉ upperLetters := by decide
      rw [asciiDigit, read]
      exact digits value (digit?_le read)

theorem asciiLower_asciiDigit (character : Char) :
    asciiDigit (asciiLower character) = asciiLower (asciiDigit character) := by
  refine asciiLower_cases
    (motive := fun before after => asciiDigit after = asciiLower (asciiDigit before)) ?_ ?_
    character
  · intro letter upper
    fin_cases upper <;> rfl
  · intro other small
    rw [asciiLower, if_neg (asciiDigit_small small)]

theorem numeralValue_asciiLower (character : Char) :
    numeralValue (asciiLower character) = numeralValue character := by
  refine asciiLower_cases
    (motive := fun before after => numeralValue after = numeralValue before) ?_ ?_ character
  · intro letter upper
    fin_cases upper <;> rfl
  · exact fun _ _ => rfl

theorem numeralSpace_asciiLower (character : Char) :
    numeralSpace (asciiLower character) = numeralSpace character := by
  refine asciiLower_cases
    (motive := fun before after => numeralSpace after = numeralSpace before) ?_ ?_ character
  · intro letter upper
    fin_cases upper <;> rfl
  · exact fun _ _ => rfl

theorem map_asciiDigit (text : List Char) :
    (text.map asciiLower).map asciiDigit = (text.map asciiDigit).map asciiLower := by
  rw [List.map_map, List.map_map]
  exact List.map_congr_left fun character _ => asciiLower_asciiDigit character

theorem underscore_asciiLower (character : Char) :
    asciiLower character = '_' ↔ character = '_' :=
  asciiLower_mark (by decide) (by intro letter upper; fin_cases upper <;> decide) character

theorem zero_asciiLower (character : Char) : asciiLower character = '0' ↔ character = '0' :=
  asciiLower_mark (by decide) (by intro letter upper; fin_cases upper <;> decide) character

theorem readDigits_asciiLower (base : Nat) (digits : List Char) :
    readDigits base (digits.map asciiLower) = readDigits base digits := by
  rw [readDigits, List.foldlM_map]
  simp only [numeralValue_asciiLower]
  rfl

theorem magnitude_asciiLower (base : Nat) (text : List Char) :
    magnitude base (text.map asciiLower) = magnitude base text := by
  have words := splitOn_map underscore_asciiLower text
  have empty : (fun word : List Char => (word.map asciiLower).isEmpty) = List.isEmpty := by
    funext word
    simp
  simp only [magnitude, words, List.any_map, Function.comp_def, empty, ← List.map_flatten,
    List.length_map, readDigits_asciiLower]

theorem baseMarks_asciiLower (base : Nat) (mark : Char) :
    asciiLower mark ∈ baseMarks base ↔ mark ∈ baseMarks base := by
  refine asciiLower_cases (motive := fun before after =>
    after ∈ baseMarks base ↔ before ∈ baseMarks base) ?_ (fun _ _ => Iff.rfl) mark
  intro letter upper
  unfold baseMarks
  split
  · fin_cases upper <;> decide
  · split
    · fin_cases upper <;> decide
    · split
      · fin_cases upper <;> decide
      · simp

theorem dropUnderscore_asciiLower (text : List Char) :
    dropUnderscore (text.map asciiLower) = (dropUnderscore text).map asciiLower := by
  cases text with
  | nil => rfl
  | cons character rest =>
      by_cases marked : character = '_'
      · rw [marked]
        rfl
      · have unmarked : asciiLower character ≠ '_' :=
          fun same => marked ((underscore_asciiLower character).mp same)
        simp [dropUnderscore, marked, unmarked]

theorem dropBase_of_ne {base : Nat} {character : Char} (other : character ≠ '0')
    (rest : List Char) : dropBase base (character :: rest) = character :: rest := by
  cases rest <;> simp [dropBase, other]

theorem dropBase_asciiLower (base : Nat) (text : List Char) :
    dropBase base (text.map asciiLower) = (dropBase base text).map asciiLower := by
  match text with
  | [] => rfl
  | first :: rest =>
      by_cases leading : first = '0'
      · rw [leading]
        match rest with
        | [] => rfl
        | mark :: digits =>
            have same : asciiLower '0' = '0' := rfl
            rw [List.map_cons, List.map_cons, same]
            simp only [dropBase, baseMarks_asciiLower, dropUnderscore_asciiLower]
            split
            · rfl
            · rfl
      · have other : asciiLower first ≠ '0' := fun same => leading ((zero_asciiLower first).mp same)
        rw [List.map_cons, dropBase_of_ne other, dropBase_of_ne leading, List.map_cons]

theorem signed_of_ne {base : Nat} {first : Char} (plus : first ≠ '+') (minus : first ≠ '-')
    (rest : List Char) :
    signed base (first :: rest) =
      (magnitude base (dropBase base (first :: rest))).map Int.ofNat := by
  simp [signed, plus, minus]

theorem signed_asciiLower (base : Nat) (text : List Char) :
    signed base (text.map asciiLower) = signed base text := by
  have plus (character : Char) : asciiLower character = '+' ↔ character = '+' :=
    asciiLower_mark (by decide) (by intro letter upper; fin_cases upper <;> decide) character
  have minus (character : Char) : asciiLower character = '-' ↔ character = '-' :=
    asciiLower_mark (by decide) (by intro letter upper; fin_cases upper <;> decide) character
  have same (rest : List Char) : magnitude base (dropBase base (rest.map asciiLower)) =
      magnitude base (dropBase base rest) := by
    rw [dropBase_asciiLower, magnitude_asciiLower]
  match text with
  | [] => rfl
  | first :: rest =>
      by_cases positive : first = '+'
      · subst first
        simp only [List.map_cons, (plus '+').mpr rfl, signed, same]
      · by_cases negative : first = '-'
        · subst first
          simp only [List.map_cons, (minus '-').mpr rfl, signed, same]
        · have notPlus : asciiLower first ≠ '+' := fun equal => positive ((plus first).mp equal)
          have notMinus : asciiLower first ≠ '-' := fun equal => negative ((minus first).mp equal)
          rw [List.map_cons, signed_of_ne notPlus notMinus, signed_of_ne positive negative,
            ← List.map_cons, same]

/-- `int` does not look at the case of letters. -/
theorem int_asciiLower (base : Nat) (text : List Char) :
    int base (text.map asciiLower) = int base text := by
  rw [int, map_asciiDigit, strip_map numeralSpace_asciiLower, signed_asciiLower, int]

end Letters

theorem baseMarks_ascii {base : Nat} {mark : Char} (marked : mark ∈ baseMarks base) :
    mark.toNat < 128 ∧ mark ≠ 'i' ∧ mark ≠ 'k' := by
  unfold baseMarks at marked
  split at marked
  · fin_cases marked <;> decide
  · split at marked
    · fin_cases marked <;> decide
    · split at marked
      · fin_cases marked <;> decide
      · exact absurd marked List.not_mem_nil

section Inert

variable {character : Char} (inert : Inert character)

include inert

theorem Inert.ne {mark : Char} (ascii : mark.toNat < 128) (i : mark ≠ 'i') (k : mark ≠ 'k') :
    character ≠ mark := by
  rintro rfl
  rcases inert with foreign | rfl | rfl
  · exact absurd foreign.1 (Nat.not_le.mpr ascii)
  · exact i rfl
  · exact k rfl

omit inert in
theorem not_inert {mark : Char} (ascii : mark.toNat < 128) (i : mark ≠ 'i') (k : mark ≠ 'k') :
    ¬Inert mark :=
  fun inert => inert.ne ascii i k rfl

theorem Inert.asciiDigit : PyText.asciiDigit character = character := by
  rcases inert with foreign | rfl | rfl
  · rw [PyText.asciiDigit, foreign.2.1]
  · rfl
  · rfl

theorem Inert.numeralSpace : PyText.numeralSpace character = false := by
  rcases inert with foreign | rfl | rfl
  · exact foreign.2.2
  · rfl
  · rfl

theorem Inert.numeralValue {value : Nat} (read : PyText.numeralValue character = some value) :
    16 < value := by
  rcases inert with foreign | rfl | rfl
  · have high : ∀ mark : Char, mark.toNat < 128 → ¬character ≤ mark := by
      intro mark ascii below
      exact absurd foreign.1 (Nat.not_le.mpr (Nat.lt_of_le_of_lt below ascii))
    simp [PyText.numeralValue, high '9' (by decide), high 'z' (by decide),
      high 'Z' (by decide)] at read
  · obtain rfl : 18 = value := Option.some.inj read
    decide
  · obtain rfl : 20 = value := Option.some.inj read
    decide

theorem readDigits_of_inert {base : Nat} (small : base ≤ 16) {digits : List Char}
    (member : character ∈ digits) : readDigits base digits = none := by
  obtain ⟨before, after, rfl⟩ := List.append_of_mem member
  rw [readDigits, List.foldlM_append]
  cases List.foldlM (m := Option) _ 0 before with
  | none => rfl
  | some value =>
      cases read : PyText.numeralValue character with
      | none => simp [read]
      | some digit =>
          have large := inert.numeralValue read
          have refused : ¬digit < base := by omega
          simp [read, refused]

theorem magnitude_of_inert {base : Nat} (small : base ≤ 16) {text : List Char}
    (member : character ∈ text) : magnitude base text = none := by
  have kept : character ∈ (text.splitOn '_').flatten := by
    rw [flatten_splitOn, List.mem_filter]
    have other : character ≠ '_' := inert.ne (by decide) (by decide) (by decide)
    exact ⟨member, by simpa using other⟩
  simp only [magnitude, readDigits_of_inert inert small kept, ite_self]

theorem mem_dropBase {base : Nat} {text : List Char} (member : character ∈ text) :
    character ∈ dropBase base text := by
  have zero : character ≠ '0' := inert.ne (by decide) (by decide) (by decide)
  have underscore : character ≠ '_' := inert.ne (by decide) (by decide) (by decide)
  have unmarked : character ∉ baseMarks base := by
    intro marked
    obtain ⟨ascii, i, k⟩ := baseMarks_ascii marked
    exact inert.ne ascii i k rfl
  unfold dropBase
  split
  · rename_i mark rest
    split
    · rename_i marked
      have later : character ∈ rest := by
        rcases List.mem_cons.mp member with same | member
        · exact absurd same zero
        · rcases List.mem_cons.mp member with same | later
          · exact absurd (same ▸ marked) unmarked
          · exact later
      unfold dropUnderscore
      split
      · exact (List.mem_cons.mp later).resolve_left underscore
      · exact later
    · exact member
  · exact member

theorem signed_of_inert {base : Nat} (small : base ≤ 16) {text : List Char}
    (member : character ∈ text) : signed base text = none := by
  have plus : character ≠ '+' := inert.ne (by decide) (by decide) (by decide)
  have minus : character ≠ '-' := inert.ne (by decide) (by decide) (by decide)
  unfold signed
  split
  · have later := (List.mem_cons.mp member).resolve_left plus
    rw [magnitude_of_inert inert small (mem_dropBase inert later), Option.map_none]
  · have later := (List.mem_cons.mp member).resolve_left minus
    rw [magnitude_of_inert inert small (mem_dropBase inert later), Option.map_none]
  · rw [magnitude_of_inert inert small (mem_dropBase inert member), Option.map_none]

theorem int_of_inert {base : Nat} (small : base ≤ 16) {text : List Char}
    (member : character ∈ text) : int base text = none := by
  apply signed_of_inert inert small
  apply mem_strip _ inert.numeralSpace
  exact List.mem_map.mpr ⟨character, member, inert.asciiDigit⟩

end Inert

end PyText
