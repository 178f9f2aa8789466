import Ovrly.Extraction.Incremental
import Ovrly.JsonText

/-!
The stage key of an extraction window (`extraction_key`): the SHA-256 digest, which is a parameter,
of the canonical JSON text of the investigation and the window.
-/

namespace Ovrly.Extraction

open JsonText Ovrly.Reports

def promptVersion : String := "claim-window-v2"

def timebaseName : Timebase → String
  | .capture => "capture"
  | .media => "media"

def modalityName : Modality → String
  | .speech => "speech"
  | .text => "text"
  | .both => "both"

def Observation.json (observation : Observation) : List Char :=
  object
    [("end_ms", number observation.endMs), ("id", quoted observation.id),
      ("modality", quoted (modalityName observation.modality)),
      ("role", quoted observation.role.text), ("speaker_id", optional observation.speakerId),
      ("start_ms", number observation.startMs), ("text", quoted observation.text),
      ("timebase", quoted (timebaseName observation.timebase))]

/-- The approval of the second provider is left out where it is not given. -/
def ObservationWindow.json (window : ObservationWindow) : List Char :=
  object ((if window.groqProcessingApproved then [("groq_processing_approved", boolean true)]
      else []) ++
    [("hosted_processing_approved", boolean window.hostedProcessingApproved),
      ("observations", array (window.observations.map Observation.json)),
      ("version", number 1)] ++ [("window_id", quoted window.windowId)])

/-- The text whose digest is the key. -/
def canonical (payload : Payload) : List Char :=
  object ((if payload.incremental then [("incremental", boolean true)] else []) ++
    [("investigation_id", quoted payload.investigationId),
      ("prompt_version", quoted promptVersion)] ++ [("window", payload.window.json)])

def extractionKey (digest : List Char → String) (payload : Payload) : String :=
  digest (canonical payload)

section Numbered

def windowName (number : Nat) : String := "incremental-v1-" ++ toString number

theorem windowName_toList (number : Nat) :
    (windowName number).toList = "incremental-v1-".toList ++ Nat.toDigits 10 number := by
  have digits : (toString number).toList = Nat.toDigits 10 number := by
    rw [Nat.toString_eq_ofList_toDigits]
    exact String.toList_ofList
  rw [← digits]
  exact String.toList_append

theorem isPlain_name : "incremental-v1-".toList.all isPlain = true := by
  decide

theorem windowName_quoted (number : Nat) :
    quoted (windowName number) =
      '"' :: "incremental-v1-".toList ++ Nat.toDigits 10 number ++ ['"'] := by
  have plain : ∀ character ∈ (windowName number).toList, isPlain character = true := by
    intro character member
    rw [windowName_toList] at member
    rcases List.mem_append.mp member with name | digit
    · exact List.all_eq_true.mp isPlain_name character name
    · exact isPlain_digit (Nat.isDigit_of_mem_toDigits (by decide) (by decide) digit)
  rw [quoted_plain plain, windowName_toList]
  rfl

theorem canonical_ends {payload : Payload} {number : Nat}
    (named : payload.window.windowId = windowName number) :
    ∃ start, canonical payload = start ++ '-' :: Nat.toDigits 10 number ++ "\"\x7d\x7d".toList := by
  obtain ⟨outer, whole⟩ := object_last
    ((if payload.incremental then [("incremental", boolean true)] else []) ++
      [("investigation_id", quoted payload.investigationId),
        ("prompt_version", quoted promptVersion)]) ("window", payload.window.json)
  obtain ⟨inner, part⟩ := object_last
    ((if payload.window.groqProcessingApproved then [("groq_processing_approved", boolean true)]
      else []) ++
    [("hosted_processing_approved", boolean payload.window.hostedProcessingApproved),
      ("observations", array (payload.window.observations.map Observation.json)),
      ("version", JsonText.number 1)]) ("window_id", quoted payload.window.windowId)
  refine ⟨outer ++ quoted "window" ++ ':' :: (inner ++ quoted "window_id" ++
    ':' :: '"' :: "incremental-v1".toList), ?_⟩
  unfold canonical
  rw [whole]
  unfold field ObservationWindow.json
  rw [part, named]
  unfold field
  rw [windowName_quoted]
  simp

theorem digits_before {first second start other tail : List Char}
    (digits : ∀ character ∈ first, character.isDigit = true)
    (others : ∀ character ∈ second, character.isDigit = true)
    (same : start ++ '-' :: first ++ tail = other ++ '-' :: second ++ tail) : first = second := by
  have front := List.append_cancel_right same
  have reversed := congrArg List.reverse front
  simp only [List.reverse_append, List.reverse_cons, List.append_assoc, List.singleton_append]
    at reversed
  have taken := congrArg (List.takeWhile Char.isDigit) reversed
  rw [List.takeWhile_append_of_pos (by simpa using digits),
    List.takeWhile_append_of_pos (by simpa using others), List.takeWhile_cons_of_neg (by decide),
    List.takeWhile_cons_of_neg (by decide), List.append_nil, List.append_nil] at taken
  exact List.reverse_injective taken

/-- Windows with different numbers have different texts. -/
theorem canonical_differs {first second : Payload} {number other : Nat}
    (named : first.window.windowId = windowName number)
    (naming : second.window.windowId = windowName other) (apart : number ≠ other) :
    canonical first ≠ canonical second := by
  intro same
  obtain ⟨start, text⟩ := canonical_ends named
  obtain ⟨front, written⟩ := canonical_ends naming
  rw [text, written] at same
  have digits := digits_before
    (fun character member => Nat.isDigit_of_mem_toDigits (by decide) (by decide) member)
    (fun character member => Nat.isDigit_of_mem_toDigits (by decide) (by decide) member) same
  have value := congrArg (fun text => Nat.ofDigitChars 10 text 0) digits
  simp only [Nat.ofDigitChars_ten_toDigits] at value
  exact apart value

end Numbered

end Ovrly.Extraction
