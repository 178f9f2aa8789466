import Mathlib

/-!
The text that `json.dumps` writes with sorted keys and the separators `","` and `":"`.

Its output is ASCII: every other character is written as one `\u` escape, or as two beyond the
basic plane. A caller gives the fields of an object in the order of their names.
-/

namespace JsonText

def hex4 (code : Nat) : List Char :=
  let digits := Nat.toDigits 16 code
  List.replicate (4 - digits.length) '0' ++ digits

def unicodeEscape (code : Nat) : List Char := '\\' :: 'u' :: hex4 code

def escape (character : Char) : List Char :=
  let code := character.toNat
  if code = 34 then ['\\', '"']
  else if code = 92 then ['\\', '\\']
  else if code = 10 then ['\\', 'n']
  else if code = 13 then ['\\', 'r']
  else if code = 9 then ['\\', 't']
  else if code = 12 then ['\\', 'f']
  else if code = 8 then ['\\', 'b']
  else if 32 ≤ code ∧ code ≤ 126 then [character]
  else if code < 65536 then unicodeEscape code
  else unicodeEscape (0xd800 + (code - 65536) / 1024) ++
    unicodeEscape (0xdc00 + (code - 65536) % 1024)

def quoted (text : String) : List Char := '"' :: text.toList.flatMap escape ++ ['"']

def number (value : Nat) : List Char := Nat.toDigits 10 value

def boolean (value : Bool) : List Char := if value then "true".toList else "false".toList

def optional (value : Option String) : List Char := (value.map quoted).getD "null".toList

def field (entry : String × List Char) : List Char := quoted entry.1 ++ ':' :: entry.2

def separated : List (List Char) → List Char
  | [] => []
  | [item] => item
  | item :: rest => item ++ ',' :: separated rest

def object (fields : List (String × List Char)) : List Char :=
  "\x7b".toList ++ separated (fields.map field) ++ "\x7d".toList

def array (items : List (List Char)) : List Char := '[' :: separated items ++ [']']

theorem separated_last (items : List (List Char)) (last : List Char) :
    ∃ start, separated (items ++ [last]) = start ++ last := by
  induction items with
  | nil => exact ⟨[], rfl⟩
  | cons item rest ih =>
      obtain ⟨start, same⟩ := ih
      cases rest with
      | nil => exact ⟨item ++ [','], by simp [separated]⟩
      | cons next others =>
          refine ⟨item ++ ',' :: start, ?_⟩
          simp only [List.cons_append, separated] at same ⊢
          rw [same, List.append_assoc, List.cons_append]

theorem object_last (fields : List (String × List Char)) (entry : String × List Char) :
    ∃ start, object (fields ++ [entry]) = start ++ field entry ++ "\x7d".toList := by
  obtain ⟨start, same⟩ := separated_last (fields.map field) (field entry)
  refine ⟨"\x7b".toList ++ start, ?_⟩
  unfold object
  rw [List.map_append, List.map_singleton, same, List.append_assoc "\x7b".toList start]

def isPlain (character : Char) : Bool :=
  decide (32 ≤ character.toNat ∧ character.toNat ≤ 126 ∧ character.toNat ≠ 34 ∧
    character.toNat ≠ 92)

theorem escape_plain {character : Char} (plain : isPlain character = true) :
    escape character = [character] := by
  simp only [isPlain, decide_eq_true_eq] at plain
  unfold escape
  dsimp only
  rw [if_neg (by omega), if_neg (by omega), if_neg (by omega), if_neg (by omega),
    if_neg (by omega), if_neg (by omega), if_neg (by omega), if_pos (by omega)]

theorem isPlain_digit {character : Char} (digit : character.isDigit = true) :
    isPlain character = true := by
  simp only [Char.isDigit, Bool.and_eq_true, decide_eq_true_eq, ge_iff_le, UInt32.le_iff_toNat_le]
    at digit
  have low : 48 ≤ character.toNat := digit.1
  have high : character.toNat ≤ 57 := digit.2
  simp only [isPlain, decide_eq_true_eq]
  omega

theorem quoted_plain {text : String}
    (plain : ∀ character ∈ text.toList, isPlain character = true) :
    quoted text = '"' :: text.toList ++ ['"'] := by
  have same : text.toList.flatMap escape = text.toList := by
    rw [List.flatMap_congr fun character member => escape_plain (plain character member),
      List.flatMap_singleton']
  rw [quoted, same]

end JsonText
