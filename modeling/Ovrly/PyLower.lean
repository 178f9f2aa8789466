import Ovrly.PyText

/-!
What a reader of numerals may rely on about Python's `str.lower`.

An ASCII letter becomes its small letter, and characters without case stay. The other letters may
become any text that holds neither marks nor numerals: the Kelvin sign becomes an ASCII `k`, and a
capital dotted I an `i` and a combining dot. So a reader that does not look at the case of ASCII
letters and refuses those texts reads a text and its lower-case form alike.
-/

namespace PyText

def upperLetters : List Char :=
  ['A', 'B', 'C', 'D', 'E', 'F', 'G', 'H', 'I', 'J', 'K', 'L', 'M',
    'N', 'O', 'P', 'Q', 'R', 'S', 'T', 'U', 'V', 'W', 'X', 'Y', 'Z']

def asciiLower (character : Char) : Char :=
  if character ∈ upperLetters then Char.ofNat (character.toNat + 32) else character

/-- What holds of small ASCII letters and of every other character holds after `asciiLower`. -/
theorem asciiLower_cases {motive : Char → Char → Prop}
    (letter : ∀ character ∈ upperLetters, motive character (Char.ofNat (character.toNat + 32)))
    (other : ∀ character, character ∉ upperLetters → motive character character)
    (character : Char) : motive character (asciiLower character) := by
  by_cases upper : character ∈ upperLetters
  · rw [asciiLower, if_pos upper]
    exact letter character upper
  · rw [asciiLower, if_neg upper]
    exact other character upper

def numeralSpace (character : Char) : Bool :=
  character ∈ [' ', '\t', '\n', '\x0b', '\x0c', '\r', '\u0085', '\u00a0', '\u1680', '\u2028',
    '\u2029', '\u202f', '\u205f', '\u3000'] ||
    '\u2000' ≤ character && character ≤ '\u200a'

def Foreign (character : Char) : Prop :=
  128 ≤ character.toNat ∧ digit? character = none ∧ numeralSpace character = false

/-- A character of a lowered letter: foreign, or one that Unicode lowers a foreign letter to. -/
def Inert (character : Char) : Prop :=
  Foreign character ∨ character = 'i' ∨ character = 'k'

inductive LowersTo : Char → List Char → Prop
  | plain (character : Char) : LowersTo character [asciiLower character]
  | letter {character : Char} {image : List Char} : Foreign character → image ≠ [] →
      (∀ lowered ∈ image, Inert lowered) → LowersTo character image

/-- The second text is a lower-case form of the first, character by character. -/
inductive Lowers : List Char → List Char → Prop
  | nil : Lowers [] []
  | cons {character : Char} {image text lowered : List Char} :
      LowersTo character image → Lowers text lowered →
      Lowers (character :: text) (image ++ lowered)

namespace Lowers

variable {text lowered : List Char}

theorem plain_or (lowers : Lowers text lowered) :
    lowered = text.map asciiLower ∨
      (∃ character ∈ text, Inert character) ∧ ∃ character ∈ lowered, Inert character := by
  induction lowers with
  | nil => exact .inl rfl
  | @cons character image text lowered head _ ih =>
      cases head with
      | plain =>
          rcases ih with same | ⟨⟨first, before, foreign⟩, last, after, inert⟩
          · exact .inl (by rw [same]; rfl)
          · exact .inr ⟨⟨first, List.mem_cons_of_mem _ before, foreign⟩,
              last, List.mem_append_right _ after, inert⟩
      | letter foreign nonempty inert =>
          obtain ⟨first, member⟩ := List.exists_mem_of_ne_nil image nonempty
          exact .inr ⟨⟨character, List.mem_cons_self, .inl foreign⟩,
            first, List.mem_append_left _ member, inert first member⟩

/-- A reader that ignores the case of ASCII letters and refuses inert characters reads a text
and its lower-case form alike. -/
theorem read {β : Type} {reader : List Char → Option β}
    (same : ∀ text, reader (text.map asciiLower) = reader text)
    (refuses : ∀ text, ∀ character ∈ text, Inert character → reader text = none)
    (lowers : Lowers text lowered) : reader lowered = reader text := by
  rcases lowers.plain_or with plain | ⟨⟨first, before, foreign⟩, last, after, inert⟩
  · rw [plain, same]
  · rw [refuses lowered last after inert, refuses text first before foreign]

end Lowers

structure Steady (test : Char → Bool) : Prop where
  ascii : ∀ character, test (asciiLower character) = test character
  inert : ∀ first second, Inert first → Inert second → test first = test second

namespace Steady

variable {test : Char → Bool} (steady : Steady test) {text lowered : List Char}

include steady

theorem image {character : Char} {image : List Char} (lowers : LowersTo character image) :
    image ≠ [] ∧ ∀ other ∈ image, test other = test character := by
  cases lowers with
  | plain =>
      refine ⟨List.cons_ne_nil _ _, ?_⟩
      intro other member
      rw [List.mem_singleton.mp member]
      exact steady.ascii character
  | letter foreign nonempty inert =>
      exact ⟨nonempty, fun other member => steady.inert _ _ (inert other member) (.inl foreign)⟩

theorem dropWhile (lowers : Lowers text lowered) :
    Lowers (text.dropWhile test) (lowered.dropWhile test) := by
  induction lowers with
  | nil => exact .nil
  | @cons character image text lowered head tail ih =>
      obtain ⟨nonempty, same⟩ := steady.image head
      by_cases passed : test character = true
      · have whole : image.dropWhile test = [] := by
          rw [List.dropWhile_eq_nil_iff]
          intro other member
          rw [same other member, passed]
        rw [List.dropWhile_cons_of_pos passed, List.dropWhile_append, whole]
        exact ih
      · cases image with
        | nil => exact absurd rfl nonempty
        | cons first rest =>
            have stopped : ¬test first = true := by
              rw [same first List.mem_cons_self]
              exact passed
            rw [List.dropWhile_cons_of_neg passed, List.cons_append,
              List.dropWhile_cons_of_neg stopped, ← List.cons_append]
            exact .cons head tail

theorem takeWhile (lowers : Lowers text lowered) :
    Lowers (text.takeWhile test) (lowered.takeWhile test) := by
  induction lowers with
  | nil => exact .nil
  | @cons character image text lowered head tail ih =>
      obtain ⟨nonempty, same⟩ := steady.image head
      by_cases passed : test character = true
      · have whole : ∀ other ∈ image, test other = true := by
          intro other member
          rw [same other member, passed]
        rw [List.takeWhile_cons_of_pos passed, List.takeWhile_append_of_pos whole]
        exact .cons head ih
      · cases image with
        | nil => exact absurd rfl nonempty
        | cons first rest =>
            have stopped : ¬test first = true := by
              rw [same first List.mem_cons_self]
              exact passed
            rw [List.takeWhile_cons_of_neg passed, List.cons_append,
              List.takeWhile_cons_of_neg stopped]
            exact .nil

theorem any (lowers : Lowers text lowered) : lowered.any test = text.any test := by
  induction lowers with
  | nil => rfl
  | @cons character image text lowered head _ ih =>
      obtain ⟨nonempty, same⟩ := steady.image head
      have head : image.any test = test character := by
        cases image with
        | nil => exact absurd rfl nonempty
        | cons first rest =>
            rw [Bool.eq_iff_iff, List.any_eq_true]
            constructor
            · rintro ⟨other, member, passed⟩
              rw [← same other member, passed]
            · intro passed
              exact ⟨first, List.mem_cons_self, by rw [same first List.mem_cons_self, passed]⟩
      rw [List.any_append, List.any_cons, head, ih]

end Steady

namespace Lowers

variable {text lowered : List Char}

theorem append {first second before after : List Char} (front : Lowers first before)
    (back : Lowers second after) : Lowers (first ++ second) (before ++ after) := by
  induction front with
  | nil => exact back
  | cons head _ ih =>
      rw [List.cons_append, List.append_assoc]
      exact .cons head ih

theorem reverse (lowers : Lowers text lowered) : Lowers text.reverse lowered.reverse := by
  induction lowers with
  | nil => exact .nil
  | @cons character image text lowered head _ ih =>
      rw [List.reverse_cons, List.reverse_append]
      refine ih.append ?_
      rw [← List.append_nil image.reverse]
      refine .cons ?_ .nil
      cases head with
      | plain => exact .plain character
      | letter foreign nonempty inert =>
          refine .letter foreign (by simpa using nonempty) ?_
          intro other member
          exact inert other (List.mem_reverse.mp member)

theorem of_ascii {character : Char} (ascii : character.toNat < 128)
    (lowers : Lowers (character :: text) lowered) :
    ∃ rest, lowered = asciiLower character :: rest ∧ Lowers text rest := by
  cases lowers with
  | @cons _ image _ rest head tail =>
      cases head with
      | plain => exact ⟨rest, rfl, tail⟩
      | letter foreign => exact absurd foreign.1 (Nat.not_le.mpr ascii)

theorem of_head {mark : Char} {tail : List Char} (active : ¬Inert mark)
    (lowers : Lowers text (mark :: tail)) :
    ∃ character rest, text = character :: rest ∧ asciiLower character = mark ∧
      Lowers rest tail := by
  generalize same : mark :: tail = lowered at lowers
  cases lowers with
  | nil => contradiction
  | @cons character image rest after head back =>
      cases head with
      | plain =>
          rw [List.singleton_append, List.cons.injEq] at same
          exact ⟨character, rest, rfl, same.1.symm, same.2 ▸ back⟩
      | letter _ nonempty inert =>
          cases image with
          | nil => exact absurd rfl nonempty
          | cons first _ =>
              rw [List.cons_append, List.cons.injEq] at same
              exact absurd (same.1 ▸ inert first List.mem_cons_self) active

theorem eq_nil_iff (lowers : Lowers text lowered) : lowered = [] ↔ text = [] := by
  cases lowers with
  | nil => simp
  | @cons character image text lowered head _ =>
      have nonempty : image ≠ [] := by
        cases head with
        | plain => exact List.cons_ne_nil _ _
        | letter _ nonempty _ => exact nonempty
      simp [nonempty]

end Lowers

theorem Steady.rstrip {test : Char → Bool} (steady : Steady test) {text lowered : List Char}
    (lowers : Lowers text lowered) : Lowers (rstrip test text) (rstrip test lowered) :=
  (steady.dropWhile lowers.reverse).reverse

theorem Steady.strip {test : Char → Bool} (steady : Steady test) {text lowered : List Char}
    (lowers : Lowers text lowered) : Lowers (strip test text) (strip test lowered) :=
  steady.rstrip (steady.dropWhile lowers)

/-- A function that lowers texts, such as `str.lower`. -/
structure Lowercase where
  lower : List Char → List Char
  lowers : ∀ text, Lowers text (lower text)

theorem lowers_ascii (text : List Char) : Lowers text (text.map asciiLower) := by
  induction text with
  | nil => exact .nil
  | cons character rest ih => exact .cons (.plain character) ih

/-- `str.lower` on ASCII texts. -/
def asciiLowercase : Lowercase := ⟨List.map asciiLower, lowers_ascii⟩

end PyText
