import Ovrly.Voice.StrictJson

/-!
What the readers of `StrictJson` take off the front of a text: words, numbers and strings.
-/

namespace Ovrly.Voice.StrictJson

open JsonGrammar

section Words

variable {text rest : Text}

theorem take_cons (char : Nat) (text : Text) : take char (char :: text) = some text := if_pos rfl

theorem take_some {char : Nat} (present : char ≠ 0) :
    take char text = some rest ↔ text = char :: rest := by
  unfold take peek
  cases text with
  | nil => simp [present.symm]
  | cons head tail => simp

theorem take_none {char : Nat} (other : ∀ head ∈ text.head?, head ≠ char) (present : char ≠ 0) :
    take char text = none := by
  cases found : take char text with
  | none => rfl
  | some rest =>
      rw [take_some present] at found
      exact absurd rfl (other char (by simp [found]))

theorem expect_ok {char : Nat} (present : char ≠ 0) :
    expect char text = .ok rest ↔ text = char :: rest := by
  rw [← take_some present, expect, require, orThrow_ok]

theorem expect_halts (char : Nat) (text : Text) : expect char text ≠ .error .fuel :=
  orThrow_fuel (by decide)

theorem literal_ok {word : Text} : literal word text = .ok rest ↔ text = word ++ rest := by
  rw [← expect_some, literal, require, orThrow_ok]

theorem peek_eq {char : Nat} (present : char ≠ 0) :
    peek text = char ↔ ∃ tail, text = char :: tail := by
  cases text with
  | nil => simp [peek, present.symm]
  | cons head tail => simp [peek]

end Words

section Numbers

variable {text rest : Text}

theorem digits_sound (read : digits text = some rest) :
    ∃ run, text = run ++ rest ∧ Digits run := by
  unfold digits at read
  split at read
  · next digit =>
      obtain rfl := Option.some.inj read
      refine ⟨text.takeWhile isDigit, List.takeWhile_append_dropWhile.symm, ?_,
        fun _ => mem_takeWhile⟩
      cases text with
      | nil => simp [peek, isDigit] at digit
      | cons head tail =>
          have first : isDigit head = true := digit
          simp [first]
  · cases read

theorem digits_complete {run : Text} (isRun : Digits run)
    (ends : ∀ unit ∈ rest.head?, isDigit unit = false) : digits (run ++ rest) = some rest := by
  have first : isDigit (peek (run ++ rest)) = true := by
    cases run with
    | nil => exact absurd rfl isRun.1
    | cons head tail => exact isRun.2 head List.mem_cons_self
  rw [digits, if_pos first, (takeWhile_all isRun.2 ends).2]

theorem integer_sound (read : integer text = some rest) :
    ∃ run, text = run ++ rest ∧ IntegerText run := by
  unfold integer at read
  split at read
  · next found =>
      obtain rfl := Option.some.inj read
      rw [take_some (by decide)] at found
      exact ⟨[zero], found, .inl rfl⟩
  · next missing =>
      split at read
      · next nonzero =>
          obtain rfl := Option.some.inj read
          cases text with
          | nil => simp [peek] at nonzero
          | cons head tail =>
              have bounds : 49 ≤ head ∧ head ≤ 57 := nonzero
              have digit : isDigit head = true := by
                simp only [isDigit, Bool.and_eq_true, decide_eq_true_eq]
                omega
              refine ⟨head :: tail.takeWhile isDigit, ?_, .inr ⟨head, _, rfl, ?_, digit,
                fun _ => mem_takeWhile⟩⟩
              · simp [digit]
              · rintro rfl
                exact absurd bounds.1 (by decide)
      · cases read

theorem integer_complete {run : Text} (isInteger : IntegerText run)
    (ends : ∀ unit ∈ rest.head?, isDigit unit = false) : integer (run ++ rest) = some rest := by
  rcases isInteger with rfl | ⟨first, tail, rfl, nonzero, digit, isDigits⟩
  · rfl
  · have missing : take zero (first :: tail ++ rest) = none :=
      take_none (by simpa using nonzero) (by decide)
    have bounds : 49 ≤ first ∧ first ≤ 57 := by
      simp only [isDigit, Bool.and_eq_true, decide_eq_true_eq] at digit
      unfold zero at nonzero
      omega
    have all : ∀ unit ∈ first :: tail, isDigit unit = true := by
      simpa using ⟨digit, isDigits⟩
    have dropped : (first :: tail ++ rest).dropWhile isDigit = rest := (takeWhile_all all ends).2
    rw [integer, missing]
    dsimp only
    rw [if_pos (by simpa [peek] using bounds), dropped]

theorem fraction_sound (read : fraction text = some rest) :
    ∃ run, text = run ++ rest ∧ FractionText run := by
  unfold fraction at read
  split at read
  · next found =>
      rw [take_some (by decide)] at found
      obtain ⟨run, rfl, isRun⟩ := digits_sound read
      exact ⟨point :: run, found, .inr ⟨run, rfl, isRun⟩⟩
  · obtain rfl := Option.some.inj read
    exact ⟨[], rfl, .inl rfl⟩

theorem fraction_complete {run : Text} (isFraction : FractionText run)
    (ends : ∀ unit ∈ rest.head?, isDigit unit = false ∧ unit ≠ point) :
    fraction (run ++ rest) = some rest := by
  rcases isFraction with rfl | ⟨digits, rfl, isDigits⟩
  · have missing : take point ([] ++ rest) = none :=
      take_none (fun unit member => (ends unit member).2) (by decide)
    rw [fraction, missing]
    rfl
  · rw [List.cons_append, fraction, take_cons]
    exact digits_complete isDigits fun unit member => (ends unit member).1

theorem skipSign_split (text : Text) :
    ∃ sign, text = sign ++ skipSign text ∧ (sign = [] ∨ sign = [plus] ∨ sign = [minus]) := by
  unfold skipSign
  split
  · next found =>
      rw [take_some (by decide)] at found
      exact ⟨[plus], found, .inr (.inl rfl)⟩
  · cases found : take minus text with
    | none => exact ⟨[], rfl, .inl rfl⟩
    | some rest =>
        rw [take_some (by decide)] at found
        exact ⟨[minus], found, .inr (.inr rfl)⟩

theorem skipSign_append {sign : Text} (isSign : sign = [] ∨ sign = [plus] ∨ sign = [minus])
    (unsigned : ∀ unit ∈ text.head?, isDigit unit = true) : skipSign (sign ++ text) = text := by
  rcases isSign with rfl | rfl | rfl
  · have notPlus : take plus ([] ++ text) = none := by
      refine take_none (fun unit member => ?_) (by decide)
      rintro rfl
      exact absurd (unsigned _ member) (by decide)
    have notMinus : take minus ([] ++ text) = none := by
      refine take_none (fun unit member => ?_) (by decide)
      rintro rfl
      exact absurd (unsigned _ member) (by decide)
    rw [skipSign, notPlus, notMinus]
    rfl
  · rfl
  · rfl

theorem exponent_sound (read : exponent text = some rest) :
    ∃ run, text = run ++ rest ∧ ExponentText run := by
  unfold exponent at read
  split at read
  · next after found =>
      have letter : ∃ letter, text = letter :: after ∧ (letter = 101 ∨ letter = 69) := by
        rcases Option.or_eq_some_iff.mp found with small | ⟨-, large⟩
        · exact ⟨101, (take_some (by decide)).mp small, .inl rfl⟩
        · exact ⟨69, (take_some (by decide)).mp large, .inr rfl⟩
      obtain ⟨letter, rfl, isLetter⟩ := letter
      obtain ⟨sign, split, isSign⟩ := skipSign_split after
      obtain ⟨run, same, isRun⟩ := digits_sound read
      refine ⟨letter :: sign ++ run, ?_, .inr ⟨letter, sign, run, rfl, isLetter, isSign, isRun⟩⟩
      rw [split, same]
      simp
  · obtain rfl := Option.some.inj read
    exact ⟨[], rfl, .inl rfl⟩

theorem exponent_complete {run : Text} (isExponent : ExponentText run) (ends : NumberEnds rest) :
    exponent (run ++ rest) = some rest := by
  rcases isExponent with rfl | ⟨letter, sign, digits, rfl, isLetter, isSign, isDigits⟩
  · have small : take 101 ([] ++ rest) = none :=
      take_none (fun unit member => (ends unit member).2.2.1) (by decide)
    have large : take 69 ([] ++ rest) = none :=
      take_none (fun unit member => (ends unit member).2.2.2) (by decide)
    rw [exponent, small, large]
    rfl
  · have found : (take 101 (letter :: (sign ++ (digits ++ rest)))).or
        (take 69 (letter :: (sign ++ (digits ++ rest)))) = some (sign ++ (digits ++ rest)) := by
      rcases isLetter with rfl | rfl
      · rfl
      · rfl
    have unsigned : ∀ unit ∈ (digits ++ rest).head?, isDigit unit = true := by
      cases digits with
      | nil => exact absurd rfl isDigits.1
      | cons head tail => simpa using isDigits.2 head List.mem_cons_self
    rw [List.cons_append, List.cons_append, List.append_assoc, exponent, found]
    dsimp only
    rw [skipSign_append isSign unsigned]
    exact digits_complete isDigits fun unit member => (ends unit member).1

theorem number_sound (read : number text = some rest) :
    ∃ run, text = run ++ rest ∧ NumberText run := by
  have sign : ∃ sign, text = sign ++ (take minus text).getD text ∧
      (sign = [] ∨ sign = [minus]) := by
    cases found : take minus text with
    | none => exact ⟨[], rfl, .inl rfl⟩
    | some rest =>
        rw [take_some (by decide)] at found
        exact ⟨[minus], found, .inr rfl⟩
  obtain ⟨sign, signed, isSign⟩ := sign
  simp only [number, Option.bind_eq_bind, Option.bind_eq_some_iff] at read
  obtain ⟨second, first, third, middle, last⟩ := read
  obtain ⟨whole, split, isWhole⟩ := integer_sound first
  obtain ⟨part, rfl, isPart⟩ := fraction_sound middle
  obtain ⟨power, rfl, isPower⟩ := exponent_sound last
  refine ⟨sign ++ whole ++ part ++ power, ?_, sign, whole, part, power, rfl, isSign, isWhole,
    isPart, isPower⟩
  rw [signed, split]
  simp only [List.append_assoc]

theorem number_complete {run : Text} (isNumber : NumberText run) (ends : NumberEnds rest) :
    number (run ++ rest) = some rest := by
  obtain ⟨sign, whole, part, power, rfl, isSign, isWhole, isPart, isPower⟩ := isNumber
  have tail := head_exponent isPower ends
  have after : ∀ unit ∈ (part ++ (power ++ rest)).head?, isDigit unit = false := by
    rcases isPart with rfl | ⟨digits, rfl, -⟩
    · exact fun unit member => (tail unit member).1
    · intro unit member
      obtain rfl : point = unit := by simpa using member
      decide
  have signed : (take minus (sign ++ (whole ++ (part ++ (power ++ rest))))).getD
      (sign ++ (whole ++ (part ++ (power ++ rest)))) = whole ++ (part ++ (power ++ rest)) := by
    rcases isSign with rfl | rfl
    · have unsigned : take minus ([] ++ (whole ++ (part ++ (power ++ rest)))) = none := by
        refine take_none (fun unit member => ?_) (by decide)
        rintro rfl
        rcases isWhole with rfl | ⟨first, digits, rfl, -, digit, -⟩
        · simp at member
        · obtain rfl : first = minus := by simpa using member
          exact absurd digit (by decide)
      rw [unsigned]
      rfl
    · rfl
  simp only [List.append_assoc]
  rw [number, signed, integer_complete isWhole after, Option.bind_eq_bind, Option.bind_some,
    fraction_complete isPart tail, Option.bind_some]
  exact exponent_complete isPower ends

end Numbers

section Strings

variable {digit : Nat → Option Nat} {text rest body units : Text}

inductive StringBody (digit : Nat → Option Nat) : Text → Text → Prop
  | nil : StringBody digit [] []
  | plain {unit : Nat} {body units : Text} : unit ≠ quote → unit ≠ backslash → 32 ≤ unit →
      StringBody digit body units → StringBody digit (unit :: body) (unit :: units)
  | short {letter unit : Nat} {body units : Text} : shortEscape? letter = some unit →
      StringBody digit body units →
      StringBody digit (backslash :: letter :: body) (unit :: units)
  | unicode {first second third fourth a b c d : Nat} {body units : Text} :
      digit first = some a → digit second = some b → digit third = some c →
      digit fourth = some d → StringBody digit body units →
      StringBody digit (backslash :: letterU :: first :: second :: third :: fourth :: body)
        ((((a * 16 + b) * 16 + c) * 16 + d) :: units)

theorem mem_escapes {letter : Nat} : letter ∈ escapes ↔ (shortEscape? letter).isSome := by
  constructor
  · intro member
    have listed : letter = 34 ∨ letter = 92 ∨ letter = 47 ∨ letter = 98 ∨ letter = 102 ∨
        letter = 110 ∨ letter = 114 ∨ letter = 116 := by
      simpa [escapes, codes] using member
    rcases listed with rfl | rfl | rfl | rfl | rfl | rfl | rfl | rfl <;> rfl
  · intro known
    unfold shortEscape? at known
    split_ifs at known with same b f n r t
    · rcases same with rfl | rfl | rfl <;> decide
    · subst b; decide
    · subst f; decide
    · subst n; decide
    · subst r; decide
    · subst t; decide
    · cases known

theorem scan_sound (scanned : scan text = some (body, rest)) :
    ∃ inner units, body = inner ++ [quote] ∧ text = inner ++ quote :: rest ∧
      StringBody digit16 inner units := by
  induction text using scan.induct generalizing body rest with
  | case1 => cases scanned
  | case2 text =>
      cases scanned
      exact ⟨[], [], rfl, rfl, .nil⟩
  | case3 first second third fourth text known ih =>
      rw [scan, if_pos known] at scanned
      obtain ⟨found, next, same⟩ := Option.map_eq_some_iff.mp scanned
      simp only [Prod.mk.injEq] at same
      obtain ⟨rfl, rfl⟩ := same
      obtain ⟨inner, units, split, rfl, isBody⟩ := ih next
      simp only [Option.isSome_iff_exists] at known
      obtain ⟨⟨a, isA⟩, ⟨b, isB⟩, ⟨c, isC⟩, ⟨d, isD⟩⟩ := known
      exact ⟨_, _, by rw [split]; rfl, rfl, .unicode isA isB isC isD isBody⟩
  | case4 first second third fourth text unknown =>
      rw [scan, if_neg unknown] at scanned
      cases scanned
  | case5 letter text other known ih =>
      rw [scan, if_pos known] at scanned
      · obtain ⟨found, next, same⟩ := Option.map_eq_some_iff.mp scanned
        simp only [Prod.mk.injEq] at same
        obtain ⟨rfl, rfl⟩ := same
        obtain ⟨inner, units, split, rfl, isBody⟩ := ih next
        obtain ⟨unit, short⟩ := Option.isSome_iff_exists.mp (mem_escapes.mp known)
        exact ⟨_, _, by rw [split]; rfl, rfl, .short short isBody⟩
      · exact other
  | case6 letter text other unknown =>
      rw [scan, if_neg unknown] at scanned
      · cases scanned
      · exact other
  | case7 unit text notQuote notEscape notLetter refused =>
      rw [scan, if_pos refused] at scanned
      · cases scanned
      · exact notQuote
      · exact notEscape
      · exact notLetter
  | case8 unit text notQuote notEscape notLetter accepted ih =>
      rw [scan, if_neg accepted] at scanned
      · obtain ⟨found, next, same⟩ := Option.map_eq_some_iff.mp scanned
        simp only [Prod.mk.injEq] at same
        obtain ⟨rfl, rfl⟩ := same
        obtain ⟨inner, units, split, rfl, isBody⟩ := ih next
        simp only [not_or, Nat.not_lt] at accepted
        exact ⟨unit :: inner, unit :: units, by rw [split]; rfl, rfl,
          .plain notQuote accepted.2 accepted.1 isBody⟩
      · exact notQuote
      · exact notEscape
      · exact notLetter

theorem scan_complete (isBody : StringBody digit16 body units) (rest : Text) :
    scan (body ++ quote :: rest) = some (body ++ [quote], rest) := by
  induction isBody with
  | nil => rfl
  | plain notQuote notBackslash printable _ ih =>
      rw [List.cons_append, scan, if_neg (by omega), ih]
      · rfl
      · exact notQuote
      · rintro _ _ _ _ _ rfl
        exact absurd rfl notBackslash
      · rintro _ _ rfl
        exact absurd rfl notBackslash
  | short found _ ih =>
      rw [List.cons_append, List.cons_append, scan, if_pos (mem_escapes.mpr (by simp [found])), ih]
      · rfl
      · rintro _ _ _ _ _ rfl
        rw [shortEscape_letterU] at found
        cases found
  | unicode isA isB isC isD _ ih => simp [scan, isA, isB, isC, isD, ih]

end Strings

end Ovrly.Voice.StrictJson
