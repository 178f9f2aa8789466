import Ovrly.Completions.Resolution

/-!
Parsing a completion (`parse_completion`, `parse_typed_completion`, `_schema_reason` of
`pipeline/llm.py`), and the exceptions that escape it.
-/

namespace Ovrly.Completions

open JsonGrammar (Text Value codes)
open Ovrly.Extraction (ExtractionInvalid)

section Schemas

structure SchemaError where
  loc : List (Nat ⊕ String)
  type : String
  deriving DecidableEq

/-- Why validation fails: errors of the schema, or a `ValueError` or `RecursionError`. -/
inductive Unvalidated
  | schema (errors : List SchemaError)
  | value

structure Schema (N E : Type) where
  fields : List String
  validate : Value N → Except Unvalidated E

def reasonPart (fields : List String) : Nat ⊕ String → String
  | .inl index => toString index
  | .inr name => if name ∈ fields then name else "?"

def schemaReason (fields : List String) (errors : List SchemaError) : String :=
  "; ".intercalate ((errors.take 3).map fun error =>
    ".".intercalate (error.loc.map (reasonPart fields)) ++ ": " ++
      if error.type = "literal_error" then "use a schema enum value" else error.type)

end Schemas

variable {N E κ : Type} [DecidableEq κ]

def validated (schema : Schema N E) (data : Value N) (flags : Flags) :
    Except Raised (E × Flags) :=
  match schema.validate data with
  | .ok value => .ok (value, flags)
  | .error (.schema errors) =>
      .error (.invalid ⟨"Invalid extraction schema", some (schemaReason schema.fields errors)⟩)
  | .error .value => .error (.invalid ⟨"Invalid extraction schema", none⟩)

variable (number : Text → Option N) (depth : Nat) (python : Python N κ)

def parseCompletion (extraction : Schema N E) (completion : Completion)
    (texts : Option (Text → Option Text)) : Except Raised (E × Flags) :=
  match completionJson number depth completion with
  | .error why => .error (.invalid why)
  | .ok (data, flags) =>
      match texts with
      | none => validated extraction data flags
      | some texts =>
          match resolveQuotes python texts data with
          | .error raised => .error raised
          | .ok resolved => validated extraction resolved flags

def parseTypedCompletion (schema : Schema N E) (completion : Completion) :
    Except Raised (E × Flags) :=
  match completionJson number depth completion with
  | .error why => .error (.invalid why)
  | .ok (data, flags) => validated schema data flags

/-- A value that its schema allows, or an invalid extraction. -/
def Answers (schema : Schema N E) : Except Raised (E × Flags) → Prop
  | .ok (value, _) => ∃ data, schema.validate data = .ok value
  | .error raised => ∃ why, raised = .invalid why

omit [DecidableEq κ] in
theorem validated_answers (schema : Schema N E) (data : Value N) (flags : Flags) :
    Answers schema (validated schema data flags) := by
  unfold validated
  split
  · next value valid => exact ⟨data, valid⟩
  · exact ⟨_, rfl⟩
  · exact ⟨_, rfl⟩

theorem parseCompletion_answers_iff (extraction : Schema N E) (completion : Completion)
    (texts : Option (Text → Option Text)) :
    Answers extraction (parseCompletion number depth python extraction completion texts) ↔
      ∀ data flags, completionJson number depth completion = .ok (data, flags) →
        ∀ known, texts = some known →
          ¬ Earliest (Breaks python known) (Refused python known) (dataRefs data) := by
  unfold parseCompletion
  cases read : completionJson number depth completion with
  | error why =>
      refine iff_of_true ⟨why, rfl⟩ ?_
      intro data flags same
      cases same
  | ok result =>
      obtain ⟨data, flags⟩ := result
      cases texts with
      | none =>
          refine iff_of_true (validated_answers ..) ?_
          intro _ _ _ known same
          cases same
      | some known =>
          have breaks := run_breaks python known [] (dataRefs data)
          dsimp only
          rcases resolveQuotes_cases python known data with
            ⟨out, final, resolved, run⟩ | ⟨raised, resolved, run⟩
          · rw [resolved]
            refine iff_of_true (validated_answers ..) ?_
            rintro _ _ ⟨⟩ _ ⟨⟩ early
            obtain ⟨raised, failed, -⟩ := breaks.mpr early
            rw [run] at failed
            cases failed
          · rw [resolved]
            constructor
            · rintro ⟨why, rfl⟩ _ _ ⟨⟩ _ ⟨⟩ early
              obtain ⟨raised, failed, other⟩ := breaks.mpr early
              rw [run] at failed
              exact other why (Except.error.inj failed).symm
            · intro clear
              by_contra other
              exact clear data flags rfl known rfl
                (breaks.mp ⟨raised, run, fun why same => other ⟨why, same⟩⟩)

/-- Parsing answers with a valid value or an invalid extraction exactly when no reference breaks
before one is refused; typed parsing always does. -/
theorem parse_answers_iff (extraction schema : Schema N E) (completion : Completion)
    (texts : Option (Text → Option Text)) :
    (Answers extraction (parseCompletion number depth python extraction completion texts) ↔
      ∀ data flags, completionJson number depth completion = .ok (data, flags) →
        ∀ known, texts = some known →
          ¬ Earliest (Breaks python known) (Refused python known) (dataRefs data)) ∧
    Answers schema (parseTypedCompletion number depth schema completion) := by
  refine ⟨parseCompletion_answers_iff number depth python extraction completion texts, ?_⟩
  unfold parseTypedCompletion
  split
  · exact ⟨_, rfl⟩
  · exact validated_answers ..

/-- A reference without an observation, where the texts know one named None. -/
def namelessText : Text :=
  codes "\x7b\"occurrences\":[\x7b\"source_refs\":[\x7b\"quote\":\"a\"\x7d]\x7d]\x7d"

def namelessTexts (name : Text) : Option Text :=
  if name = codes "None" then some (codes "a") else none

def anySchema : Schema Nat Unit := ⟨[], fun _ => .ok ()⟩

theorem parseCompletion_nameless :
    ¬ Answers anySchema (parseCompletion (fun _ => some 0) 6 examplePython anySchema
      ⟨namelessText, codes "stop"⟩ (some namelessTexts)) := by
  have escaped : parseCompletion (fun _ => some 0) 6 examplePython anySchema
      ⟨namelessText, codes "stop"⟩ (some namelessTexts) = .error (.keyError observationIdName) := by
    have stop : turn (strip namelessText) = .stop := by decide
    unfold parseCompletion completionJson
    dsimp only
    rw [skipThinking_stop stop]
    rfl
  rw [escaped]
  rintro ⟨why, same⟩
  cases same

end Ovrly.Completions
