import Mathlib

/-!
Text as Python's `str` handles it: decimal digits of every script, words between white space and
their join. Which characters are white space is the caller's.
-/

namespace PyText

def decimalZeros : List Nat :=
  [0x30, 0x660, 0x6f0, 0x7c0, 0x966, 0x9e6, 0xa66, 0xae6, 0xb66, 0xbe6, 0xc66, 0xce6, 0xd66, 0xde6,
    0xe50, 0xed0, 0xf20, 0x1040, 0x1090, 0x17e0, 0x1810, 0x1946, 0x19d0, 0x1a80, 0x1a90, 0x1b50,
    0x1bb0, 0x1c40, 0x1c50, 0xa620, 0xa8d0, 0xa900, 0xa9d0, 0xa9f0, 0xaa50, 0xabf0, 0xff10, 0x104a0,
    0x10d30, 0x11066, 0x110f0, 0x11136, 0x111d0, 0x112f0, 0x11450, 0x114d0, 0x11650, 0x116c0,
    0x11730, 0x118e0, 0x11950, 0x11c50, 0x11d50, 0x11da0, 0x16a60, 0x16ac0, 0x16b50, 0x1d7ce,
    0x1d7d8, 0x1d7e2, 0x1d7ec, 0x1d7f6, 0x1e140, 0x1e2f0, 0x1e950, 0x1fbf0]

def digit? (character : Char) : Option Nat :=
  (decimalZeros.find? fun first => first ≤ character.toNat && character.toNat ≤ first + 9).map
    (character.toNat - ·)

def digitsValue (digits : List Char) : Nat :=
  digits.foldl (fun value character => 10 * value + (digit? character).getD 0) 0

variable (space : Char → Bool)

def splitFrom (word : List Char) : List Char → List (List Char)
  | [] => if word.isEmpty then [] else [word]
  | character :: rest =>
      if space character then
        if word.isEmpty then splitFrom [] rest else word :: splitFrom [] rest
      else splitFrom (word ++ [character]) rest

def split (text : List Char) : List (List Char) := splitFrom space [] text

def join : List (List Char) → List Char
  | [] => []
  | [word] => word
  | word :: rest => word ++ ' ' :: join rest

theorem length_join_cons (word : List Char) (rest : List (List Char)) :
    (join (word :: rest)).length ≤ word.length + 1 + (join rest).length := by
  cases rest with
  | nil => simp [join]
  | cons next others =>
      simp only [join, List.length_append, List.length_cons]
      omega

theorem length_join_take (words : List (List Char)) (count : Nat) :
    (join (words.take count)).length ≤ (join words).length := by
  induction words generalizing count with
  | nil => simp
  | cons word rest ih =>
      cases count with
      | zero => simp [join]
      | succ count =>
          rw [List.take_succ_cons]
          cases rest with
          | nil => simp
          | cons next others =>
              have shorter := ih count
              have bound := length_join_cons word ((next :: others).take count)
              cases count with
              | zero =>
                  simp only [List.take_zero, join, List.length_append, List.length_cons]
                  omega
              | succ count =>
                  simp only [List.take_succ_cons, join, List.length_append,
                    List.length_cons] at shorter ⊢
                  omega

variable {space}

theorem length_join_splitFrom (space : Char → Bool) (word text : List Char) :
    (join (splitFrom space word text)).length ≤ word.length + text.length := by
  induction text generalizing word with
  | nil =>
      unfold splitFrom
      split
      · simp [join]
      · simp [join]
  | cons character rest ih =>
      unfold splitFrom
      split
      · split
        · have shorter := ih []
          simp only [List.length_nil, List.length_cons] at shorter ⊢
          omega
        · have shorter := ih []
          have bound := length_join_cons word (splitFrom space [] rest)
          simp only [List.length_nil, List.length_cons] at shorter ⊢
          omega
      · have shorter := ih (word ++ [character])
        simp only [List.length_append, List.length_cons, List.length_nil] at shorter ⊢
        omega

theorem length_join_split (space : Char → Bool) (text : List Char) (count : Nat) :
    (join ((split space text).take count)).length ≤ text.length := by
  have whole := length_join_splitFrom space [] text
  have cut := length_join_take (split space text) count
  unfold split at cut ⊢
  simp only [List.length_nil] at whole
  omega

def rstrip (test : Char → Bool) (text : List Char) : List Char :=
  (text.reverse.dropWhile test).reverse

def strip (test : Char → Bool) (text : List Char) : List Char :=
  rstrip test (text.dropWhile test)

theorem mem_rstrip {test : Char → Bool} {text : List Char} {character : Char}
    (member : character ∈ text) (stays : test character = false) :
    character ∈ rstrip test text := by
  have whole := List.takeWhile_append_dropWhile (p := test) (l := text.reverse)
  have belongs : character ∈ text.reverse := List.mem_reverse.mpr member
  rw [← whole, List.mem_append] at belongs
  rcases belongs with dropped | kept
  · rw [List.mem_takeWhile_imp dropped] at stays
    exact Bool.noConfusion stays
  · exact List.mem_reverse.mpr kept

theorem mem_strip {test : Char → Bool} {text : List Char} {character : Char}
    (member : character ∈ text) (stays : test character = false) :
    character ∈ strip test text := by
  apply mem_rstrip _ stays
  rw [← List.takeWhile_append_dropWhile (p := test) (l := text), List.mem_append] at member
  rcases member with dropped | kept
  · rw [List.mem_takeWhile_imp dropped] at stays
    exact Bool.noConfusion stays
  · exact kept

theorem rstrip_map {test : Char → Bool} {change : Char → Char}
    (same : ∀ character, test (change character) = test character) (text : List Char) :
    rstrip test (text.map change) = (rstrip test text).map change := by
  have stable : test ∘ change = test := funext same
  rw [rstrip, ← List.map_reverse, List.dropWhile_map, ← List.map_reverse, stable, rstrip]

theorem strip_map {test : Char → Bool} {change : Char → Char}
    (same : ∀ character, test (change character) = test character) (text : List Char) :
    strip test (text.map change) = (strip test text).map change := by
  have stable : test ∘ change = test := funext same
  rw [strip, List.dropWhile_map, rstrip_map same, stable, strip]

theorem splitOn_cons (separator character : Char) (rest : List Char) :
    (character :: rest).splitOn separator =
      if character = separator then [] :: rest.splitOn separator
      else (rest.splitOn separator).modifyHead (List.cons character) := by
  have parts := List.splitOnP_cons_eq_if_modifyHead (p := (· == separator)) character rest
  simpa [List.splitOn] using parts

theorem flatten_splitOn (separator : Char) (text : List Char) :
    (text.splitOn separator).flatten = text.filter (· != separator) := by
  induction text with
  | nil => rfl
  | cons character rest ih =>
      rw [splitOn_cons]
      by_cases same : character = separator
      · simp [same, ih]
      · cases split : rest.splitOn separator with
        | nil => exact absurd split (List.splitOnP_ne_nil _ _)
        | cons word more =>
            rw [split] at ih
            simpa [same] using ih

theorem splitOn_map {separator : Char} {change : Char → Char}
    (same : ∀ character, change character = separator ↔ character = separator)
    (text : List Char) :
    (text.map change).splitOn separator = (text.splitOn separator).map (List.map change) := by
  induction text with
  | nil => rfl
  | cons character rest ih =>
      rw [List.map_cons, splitOn_cons, splitOn_cons, ih]
      by_cases marked : character = separator
      · simp [marked, (same separator).mpr rfl]
      · have unmarked : change character ≠ separator := fun equal =>
          marked ((same character).mp equal)
        cases split : rest.splitOn separator with
        | nil => exact absurd split (List.splitOnP_ne_nil _ _)
        | cons word more => simp [marked, unmarked]

end PyText
