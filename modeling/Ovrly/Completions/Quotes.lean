import Ovrly.Allotment
import Ovrly.Completions.Scan

/-!
Quotes resolved to spans (`_resolve_quotes`, `_find_all` of `pipeline/llm.py`), on decoded JSON
that no schema has seen yet.
-/

namespace Ovrly.Completions

open JsonGrammar (Text Value codes)
open Ovrly.Extraction (ExtractionInvalid)

/-- What Python makes of decoded values: `str`, equality as a key of a set (an unhashable value has
none), integers, and case folding, which works code point by code point. -/
structure Python (N κ : Type) where
  str : Value N → Text
  key : Value N → Option κ
  ofNat : Nat → N
  fold : Nat → Text
  str_null : str .null = codes "None"
  str_string : ∀ text, str (.string text) = text
  unhashable : ∀ value, key value = none ↔
    (∃ items, value = .array items) ∨ ∃ fields, value = .object fields
  ofNat_injective : ∀ first second, ofNat first = ofNat second → first = second
  fold_nonempty : ∀ code, fold code ≠ []

inductive Raised
  | invalid (why : ExtractionInvalid)
  | keyError (name : Text)
  | typeError
  deriving DecidableEq, Repr

def occurrencesName : Text := codes "occurrences"
def sourceRefsName : Text := codes "source_refs"
def contextRefsName : Text := codes "context_refs"
def quoteName : Text := codes "quote"
def observationIdName : Text := codes "observation_id"
def startCharName : Text := codes "start_char"
def endCharName : Text := codes "end_char"

abbrev Fields (N : Type) := List (Text × Value N)

section Searching

/-- `str.find` from a start. -/
def findFrom (haystack needle : Text) (start : Nat) : Option Nat :=
  if start ≤ haystack.length then
    (TextSearch.find needle (haystack.drop start)).map (start + ·)
  else none

def collect (haystack needle : Text) : Nat → Nat → List Nat
  | 0, _ => []
  | fuel + 1, from' =>
      match findFrom haystack needle from' with
      | none => []
      | some start => start :: collect haystack needle fuel (start + 1)

def findAll (haystack needle : Text) : List Nat :=
  collect haystack needle (haystack.length + 1) 0

def quoteMarks : List Text :=
  [codes "\"\"", codes "''", [0x201c, 0x201d], [0x2018, 0x2019]]

/-- The quote without its quotation marks, if only so it may appear. -/
def unquote (text quote : Text) : Text :=
  if TextSearch.contains quote text = false ∧ 2 < quote.length ∧
      quote.take 1 ++ quote.drop (quote.length - 1) ∈ quoteMarks then
    strip ((quote.drop 1).take (quote.length - 2))
  else quote

end Searching

section Resolving

variable {N κ : Type} [DecidableEq κ] (python : Python N κ) (texts : Text → Option Text)

def foldText (text : Text) : Text := text.flatMap python.fold

def searched (text quote : Text) : Text × Text :=
  if TextSearch.contains quote text = false ∧ (foldText python text).length = text.length then
    (foldText python quote, foldText python text)
  else (quote, text)

def sourceQuote (fields : Fields N) : Option (Text × Text) :=
  match JsonValue.lookup fields quoteName,
      texts (python.str ((JsonValue.lookup fields observationIdName).getD .null)) with
  | some (.string quote), some text =>
      if strip quote = [] ∨ (JsonValue.lookup fields startCharName).isSome ∨
          (JsonValue.lookup fields endCharName).isSome then none
      else some (strip quote, text)
  | _, _ => none

def withSpan (fields : Fields N) (start stop : Nat) : Fields N :=
  fields.filter (·.1 ≠ quoteName) ++
    [(startCharName, .number (python.ofNat start)), (endCharName, .number (python.ofNat stop))]

/-- A span that a reference cites: the key of its observation, where it starts and where it
stops. -/
abbrev Span (κ : Type) := κ × Nat × Nat

def resolveRef (used : List (Span κ)) (fields : Fields N) :
    Except Raised (List (Span κ) × Fields N) :=
  if (JsonValue.lookup fields quoteName).isNone then .ok (used, fields)
  else
    match sourceQuote python texts fields with
    | none => .error (.invalid ⟨"Invalid source reference", none⟩)
    | some (quote, text) =>
        let (needle, haystack) := searched python text (unquote text quote)
        match findAll haystack needle with
        | [] => .error (.invalid ⟨"Quote does not appear in the cited observation", none⟩)
        | start :: starts =>
            match JsonValue.lookup fields observationIdName with
            | none => .error (.keyError observationIdName)
            | some id =>
                match python.key id with
                | none => .error .typeError
                | some key =>
                    let span := Allotment.pick used (key, start, start + needle.length)
                      (starts.map fun start => (key, start, start + needle.length))
                    .ok (span :: used, withSpan python fields span.2.1 span.2.2)

def resolveItem (used : List (Span κ)) : Value N → Except Raised (List (Span κ) × Value N)
  | .object fields =>
      (resolveRef python texts used fields).map fun done => (done.1, .object done.2)
  | other => .ok (used, other)

def rewriteAll {σ ω : Type} (step : σ → ω → Except Raised (σ × ω)) :
    σ → List ω → Except Raised (σ × List ω)
  | state, [] => .ok (state, [])
  | state, item :: rest => do
      let (state, item) ← step state item
      let (state, rest) ← rewriteAll step state rest
      return (state, item :: rest)

def setField (fields : Fields N) (name : Text) (value : Value N) : Fields N :=
  fields.map fun field => if field.1 = name then (name, value) else field

def rewriteField {σ : Type} (step : σ → Value N → Except Raised (σ × Value N)) (name : Text)
    (state : σ) (fields : Fields N) : Except Raised (σ × Fields N) :=
  match JsonValue.lookup fields name with
  | some (.array items) =>
      (rewriteAll step state items).map fun done => (done.1, setField fields name (.array done.2))
  | _ => .ok (state, fields)

def resolveOccurrence (used : List (Span κ)) :
    Value N → Except Raised (List (Span κ) × Value N)
  | .object fields => do
      let (used, fields) ← rewriteField (resolveItem python texts) sourceRefsName used fields
      let (used, fields) ← rewriteField (resolveItem python texts) contextRefsName used fields
      return (used, .object fields)
  | other => .ok (used, other)

def resolveQuotes : Value N → Except Raised (Value N)
  | .object fields =>
      (rewriteField (resolveOccurrence python texts) occurrencesName [] fields).map
        fun done => .object done.2
  | other => .ok other

end Resolving

end Ovrly.Completions
