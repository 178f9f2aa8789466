import Mathlib

/-!
The number of bytes that `json.dumps` writes with its default separators.

Its output is ASCII: a character outside of printable ASCII is written as one `\u` escape, or as
two beyond the basic plane.
-/

namespace JsonSize

def charSize (char : Char) : Nat :=
  let code := char.toNat
  if [34, 92, 8, 9, 10, 12, 13].contains code then 2
  else if 32 ≤ code ∧ code ≤ 126 then 1
  else if code < 65536 then 6
  else 12

def stringSize (text : String) : Nat := 2 + (text.toList.map charSize).sum

def numberSize (number : Nat) : Nat := (Nat.toDigits 10 number).length

def nullSize : Nat := 4

/-- Brackets, and `", "` between the items. -/
def arraySize (items : List Nat) : Nat :=
  items.sum + if items.isEmpty then 2 else 2 * items.length

/-- Each field is written as its name, `": "` and its value. -/
def objectSize (fields : List (String × Nat)) : Nat :=
  arraySize (fields.map fun field => stringSize field.1 + 2 + field.2)

theorem arraySize_perm {items others : List Nat} (same : items.Perm others) :
    arraySize items = arraySize others := by
  unfold arraySize
  rw [same.sum_eq, same.length_eq, same.isEmpty_eq]

end JsonSize
