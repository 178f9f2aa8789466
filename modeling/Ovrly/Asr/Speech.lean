import Ovrly.Extraction.Grounding
import Ovrly.JsonValue

/-!
Timed speech: the segments of a provider response (`_segments` of `asr/groq.py`), what an upload
and a capture chunk store of them (`build` of `pipeline/speech.py` and of
`pipeline/capture_media.py`) and the observations made of that (`pipeline/producers.py`).

Seconds are exact rationals. `none` stands for `ASRInvalidResponse`, and for the validation error
of an observation.
-/

namespace Ovrly.Asr

open Ovrly.Reports (Timebase Modality)
open Ovrly.Extraction (Observation Role blank)

abbrev Json := JsonValue String ℚ

def overrunToleranceMs : Int := 1000

/-- `round`: to the nearest integer, and halfway to the even one. -/
def roundHalfEven (value : ℚ) : Int :=
  let below := ⌊value⌋
  let rest := value - below
  if rest < 1 / 2 then below
  else if 1 / 2 < rest then below + 1
  else if below % 2 = 0 then below else below + 1

structure Segment where
  startMs : Int
  endMs : Int
  text : String
  deriving DecidableEq, Repr

section Segments

variable (durationMs offsetMs : Int)

def segment (fields : List (String × Json)) : Option Segment :=
  match JsonValue.lookup fields "start", JsonValue.lookup fields "end",
      JsonValue.lookup fields "text" with
  | some (.number start), some (.number stop), some (.string text) =>
      if ¬(0 ≤ start ∧ start < stop ∧ stop ≤ (durationMs + overrunToleranceMs : ℚ) / 1000) ∨
          blank text.toList then none
      else
        let startMs := roundHalfEven (start * 1000)
        let endMs := roundHalfEven (stop * 1000)
        if endMs ≤ startMs then none
        else
          let endMs := min endMs durationMs
          let startMs := min startMs (endMs - 1)
          some ⟨offsetMs + startMs, offsetMs + endMs, text⟩
  | _, _, _ => none

def segmentItem : Json → Option Segment
  | .object fields => segment durationMs offsetMs fields
  | _ => none

def segments : Json → Option (List Segment)
  | .object fields =>
      match JsonValue.lookup fields "text", JsonValue.lookup fields "segments" with
      | some (.string text), some (.array items) =>
          if items.isEmpty ∧ ¬blank text.toList then none
          else items.mapM (segmentItem durationMs offsetMs)
      | _, _ => none
  | _ => none

end Segments

section Stored

structure SpeechSegment where
  text : String
  startMs : Int
  endMs : Int
  timebase : Timebase
  deriving DecidableEq, Repr

/-- `build` of an upload -/
def mediaSegments (found : List Segment) : List SpeechSegment :=
  found.map fun segment => ⟨segment.text, segment.startMs, segment.endMs, .media⟩

/-- `build` of a capture chunk: audio overrun past the chunk is attributed to its final
millisecond. -/
def captureSegments (chunkEnd : Int) (found : List Segment) : List SpeechSegment :=
  found.map fun segment =>
    ⟨segment.text, min segment.startMs (chunkEnd - 1), min segment.endMs chunkEnd, .capture⟩

inductive SpeechResult
  | completed (segments : List SpeechSegment)
  | unavailable (reason : String)
  deriving DecidableEq, Repr

end Stored

section Observations

def observationMaxChars : Nat := 8000

/-- The constructor of `Observation` with its validation. -/
def spoken (id : String) (text : List Char) (timebase : Timebase) (startMs endMs : Int) :
    Option Observation :=
  if ¬(1 ≤ id.length ∧ id.length ≤ 200) ∨ blank id.toList then none
  else if short : text.length ≤ 8000 then
    if said : blank text = false then
      if ordered : 0 ≤ startMs ∧ startMs < endMs then
        some {
          id
          role := .target
          text := String.ofList text
          modality := .speech
          timebase
          startMs := startMs.toNat
          endMs := endMs.toNat
          speakerId := none
          ordered := (Int.toNat_lt_toNat (ordered.1.trans_lt ordered.2)).mpr ordered.2
          spoken := (congrArg blank String.toList_ofList).trans said
          short := String.length_ofList.trans_le short }
      else none
    else none
  else none

/-- `text[offset : offset + limit]` for each offset of `range(0, len(text), limit)`. -/
def pieces (text : List Char) : List (List Char) :=
  (List.range ((text.length + (observationMaxChars - 1)) / observationMaxChars)).map fun index =>
    (text.drop (index * observationMaxChars)).take observationMaxChars

def speechId (label : String) (index : Nat) (parts part : Nat) : String :=
  label ++ ":speech:" ++ toString index ++ if 1 < parts then ":" ++ toString part else ""

def segmentObservations (label : String) (segment : SpeechSegment) (index : Nat) :
    Option (List Observation) :=
  let found := pieces segment.text.toList
  (found.zipIdx.filter fun piece => !blank piece.1).mapM fun piece =>
    spoken (speechId label index found.length piece.2) piece.1 segment.timebase segment.startMs
      (max segment.endMs (segment.startMs + 1))

def speechObservations (label : String) : SpeechResult → Option (List Observation)
  | .unavailable _ => some []
  | .completed found =>
      (found.zipIdx.mapM fun item => segmentObservations label item.1 item.2).map List.flatten

end Observations

end Ovrly.Asr
