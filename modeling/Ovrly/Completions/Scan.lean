import Ovrly.Extraction.Grounding
import Ovrly.JsonDecode
import Ovrly.TextSearch

/-!
The JSON of a completion (`_completion_json` of `pipeline/llm.py`, `parse_json` of `claims.py`).

Texts are code points, so that a string may hold surrogates. What the decoder makes of a number
literal and how deep it can recurse are parameters.
-/

namespace Ovrly.Completions

open JsonGrammar (Text Value codes openBrace)
open Ovrly.Extraction (ExtractionInvalid)

def isSpaceCode (code : Nat) : Bool := Extraction.isSpace (Char.ofNat code)

def lstrip (text : Text) : Text := text.dropWhile isSpaceCode

def rstrip (text : Text) : Text := (text.reverse.dropWhile isSpaceCode).reverse

def strip (text : Text) : Text := rstrip (lstrip text)

def openTag : Text := codes "<think>"

def closeTag : Text := codes "</think>"

def fence : Text := codes "```"

structure Completion where
  content : Text
  finishReason : Text
  deriving DecidableEq, Repr

structure Flags where
  thinkingLeaked : Bool
  fenced : Bool
  deriving DecidableEq, Repr

inductive Turn
  | stop
  | invalid
  | next (text : Text)
  deriving DecidableEq, Repr

def turn (text : Text) : Turn :=
  match TextSearch.find openTag text with
  | none => .stop
  | some opening =>
      if (TextSearch.find [openBrace] text).any (· < opening) then .stop
      else
        match TextSearch.find closeTag (text.drop opening) with
        | none => .invalid
        | some closing =>
            if TextSearch.contains openTag
                ((text.drop (opening + openTag.length)).take (closing - openTag.length)) then .invalid
            else .next (lstrip (text.drop (opening + closing + closeTag.length)))

theorem turn_shorter {text rest : Text} (next : turn text = .next rest) :
    rest.length < text.length := by
  unfold turn at next
  split at next
  · cases next
  · next opening found =>
      split at next
      · cases next
      · split at next
        · cases next
        · split at next
          · cases next
          · obtain rfl := Turn.next.inj next
            obtain ⟨before, after, rfl, rfl, -⟩ := TextSearch.find_some found
            refine lt_of_le_of_lt (List.dropWhile_sublist isSpaceCode).length_le ?_
            have opened : openTag.length = 7 := rfl
            have closed : closeTag.length = 8 := rfl
            simp only [List.length_drop, List.length_append]
            omega

def skipThinking (text : Text) : Except ExtractionInvalid Text :=
  match _step : turn text with
  | .stop => .ok text
  | .invalid => .error ⟨"Unterminated or nested thinking block", none⟩
  | .next rest => skipThinking rest
termination_by text.length
decreasing_by exact turn_shorter _step

variable {N : Type} (number : Text → Option N) (depth : Nat)

def jsonAfter (text : Text) : Except ExtractionInvalid (Value N) :=
  match TextSearch.find [openBrace] text with
  | none => .error ⟨"No JSON object", none⟩
  | some start =>
      if TextSearch.contains closeTag (text.take start) then
        .error ⟨"Unexpected thinking delimiter", none⟩
      else
        let text := rstrip (text.drop start)
        let text := if fence.isSuffixOf text then rstrip (text.take (text.length - fence.length))
          else text
        match JsonGrammar.parse number depth text with
        | some value => .ok value
        | none => .error ⟨"Invalid extraction schema", none⟩

def flagsOf (text : Text) : Flags :=
  ⟨TextSearch.contains openTag text || TextSearch.contains closeTag text,
    TextSearch.contains fence text⟩

def completionJson (completion : Completion) : Except ExtractionInvalid (Value N × Flags) :=
  let text := strip completion.content
  if completion.finishReason ≠ codes "stop" then
    .error ⟨"Completion was truncated or did not stop", none⟩
  else do
    let text' ← skipThinking text
    let value ← jsonAfter number depth text'
    return (value, flagsOf text)

end Ovrly.Completions
