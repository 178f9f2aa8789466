import Mathlib

/-!
A decoded JSON value, over the strings and the numbers of whoever decodes it.
-/

inductive JsonValue (S N : Type)
  | null
  | bool (value : Bool)
  | number (value : N)
  | string (value : S)
  | array (items : List (JsonValue S N))
  | object (fields : List (S × JsonValue S N))

namespace JsonValue

variable {S N : Type}

def lookup [DecidableEq S] (fields : List (S × JsonValue S N)) (name : S) :
    Option (JsonValue S N) :=
  (fields.find? (·.1 = name)).map (·.2)

end JsonValue
