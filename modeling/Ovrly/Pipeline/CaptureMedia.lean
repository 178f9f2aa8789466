import Ovrly.Captures.Sessions
import Ovrly.OptionList
import Ovrly.Uploads.DeviceText

/-!
The packages of capture chunks and the device text read from them (`read_package` and
`build_capture_text` of `pipeline/capture_media.py`).

An archive is what the stored bytes decode to, if they do: the description and the length of the
audio. `ids` is `uuid5` over a digest and an index.
-/

namespace Ovrly.Captures

def Modality.hasSpeech (modality : Modality) : Bool := modality != .text

def Modality.hasText (modality : Modality) : Bool := modality != .speech

end Ovrly.Captures

namespace Ovrly.Pipeline.CaptureMedia

open Ovrly.Reports Ovrly.Uploads Ovrly.Extraction OptionList
open Ovrly.Captures (CaptureChunk)

structure PackageObservation where
  text : String
  box : List Nat
  framePts : Nat
  deriving DecidableEq, Repr

structure PackageFrame where
  framePts : Nat
  status : FrameStatus
  regions : Nat
  recognitionMs : Nat
  failedRegions : Nat
  deriving DecidableEq, Repr

/-- `chunk.json`; of the audio it describes only the number of bytes varies. -/
structure ChunkManifest where
  seq : Nat
  startMs : Nat
  endMs : Nat
  modality : Captures.Modality
  audio : Option Nat
  frames : List PackageFrame
  textObservations : List PackageObservation
  sampling : TextSampling
  recognizer : TextRecognizer
  deriving DecidableEq, Repr

structure Archive where
  manifest : ChunkManifest
  audio : Option Nat
  deriving DecidableEq, Repr

structure Package where
  manifest : ChunkManifest
  frames : List TextFrame
  audio : Option Nat
  deriving DecidableEq

/-- `TextObservation.model_validate` -/
def textObservation (id : Uuid) (item : PackageObservation) : Option TextObservation :=
  match item.box with
  | [left, top, right, bottom] =>
      if valid : left < right ∧ top < bottom ∧ blank item.text.toList = false ∧
          item.text.length ≤ 4096 then
        some ⟨id, item.text, item.box, item.framePts, valid.2.2.1, valid.2.2.2⟩
      else none
  | _ => none

/-- `TextFrame.consistent_outcome`, and the bound on the observations. -/
def consistentOutcome (frame : TextFrame) : Bool :=
  frame.textObservations.length ≤ 100 && frame.failedRegions ≤ frame.regions &&
    (match frame.status with
    | .noTextRegions =>
        frame.regions == 0 && frame.failedRegions == 0 && frame.textObservations.isEmpty
    | .failed =>
        frame.regions != 0 && frame.failedRegions == frame.regions &&
          frame.textObservations.isEmpty
    | .recognized => frame.failedRegions < frame.regions) &&
    frame.textObservations.all (·.framePts == frame.framePts)

variable (ids : String → Nat → Uuid)

def packageFrame (sha256 : String) (manifest : ChunkManifest) (frame : PackageFrame) :
    Option TextFrame := do
  let observed := manifest.textObservations.zipIdx.filter (·.1.framePts == frame.framePts)
  let textObservations ← observed.mapM fun item => textObservation (ids sha256 item.2) item.1
  let read : TextFrame :=
    { framePts := frame.framePts
      status := frame.status
      regions := frame.regions
      recognitionMs := frame.recognitionMs
      failedRegions := frame.failedRegions
      textObservations }
  if consistentOutcome read then some read else none

def matchesChunk (chunk : CaptureChunk) (start : Nat) (archive : Archive) : Bool :=
  archive.manifest.seq == chunk.seq && archive.manifest.startMs == start &&
    archive.manifest.endMs == chunk.endMs && archive.manifest.modality == chunk.modality &&
    archive.manifest.audio.isSome == chunk.modality.hasSpeech &&
    archive.audio.isSome == chunk.modality.hasSpeech &&
    (!archive.manifest.frames.isEmpty) == chunk.modality.hasText

/-- `read_package`; nothing where it raises `InvalidPackage`. -/
def readPackage (chunk : CaptureChunk) (chunkDurationMs : Nat) (stored : Option Archive) :
    Option Package := do
  let archive ← stored
  let manifest := archive.manifest
  let start := chunk.seq * chunkDurationMs
  let times := manifest.frames.map (·.framePts)
  if !matchesChunk chunk start archive then none
  else if archive.audio.any fun bytes => manifest.audio != some bytes || bytes % 2 == 1 then none
  else if repeats times || times.any fun pts => !(start ≤ pts && pts < chunk.endMs) then none
  else if manifest.textObservations.any fun item => !times.contains item.framePts then none
  else
    let sorted := manifest.frames.mergeSort fun first second => first.framePts ≤ second.framePts
    let frames ← sorted.mapM (packageFrame ids chunk.sha256 manifest)
    return ⟨manifest, frames, archive.audio⟩

/-- The `text` of a chunk's published result. -/
inductive ChunkText
  | completed (sourceSha256 : String) (sampling : TextSampling) (recognizer : TextRecognizer)
      (frames : List TextFrame)
  | unavailable (reason : String)
  deriving DecidableEq

/-- The handler of `build_capture_text`: `prepared` is the number of frames that the validation of
the chunk published. -/
def captureText (chunk : CaptureChunk) (prepared : Nat) (load : Option Package) :
    Option ChunkText :=
  if prepared = 0 then some (.unavailable "no_frames")
  else load.map fun package =>
    .completed chunk.sha256 package.manifest.sampling package.manifest.recognizer package.frames

/-- A result that the handler returns for a validated chunk, whatever the store holds when the
package is read again. -/
inductive Produced : ChunkText → Prop
  | intro {chunk : CaptureChunk} {chunkDurationMs : Nat} {validated loaded : Option Archive}
      {package : Package} {result : ChunkText} :
      readPackage ids chunk chunkDurationMs validated = some package →
      captureText chunk package.frames.length
        (readPackage ids chunk chunkDurationMs loaded) = some result →
      Produced result

theorem readPackage_frames {chunk : CaptureChunk} {chunkDurationMs : Nat}
    {stored : Option Archive} {package : Package}
    (read : readPackage ids chunk chunkDurationMs stored = some package) :
    package.frames ≠ [] ↔ chunk.modality.hasText = true := by
  unfold readPackage at read
  obtain ⟨archive, rfl, checked⟩ := Option.bind_eq_some_iff.mp read
  dsimp only at checked
  split_ifs at checked with apart audio times strangers
  obtain ⟨frames, mapped, found⟩ := Option.bind_eq_some_iff.mp checked
  obtain rfl := Option.some.inj found
  have lengths : frames.length = archive.manifest.frames.length := by
    rw [length_mapM mapped, List.length_mergeSort]
  have described : archive.manifest.frames ≠ [] ↔ chunk.modality.hasText = true := by
    rw [Bool.not_eq_true, Bool.not_eq_false'] at apart
    simp only [matchesChunk, Bool.and_eq_true, beq_iff_eq] at apart
    rw [← apart.2]
    simp
  rw [← described, ← List.length_pos_iff, ← List.length_pos_iff, ← lengths]

theorem Produced.frames {sourceSha256 : String} {sampling : TextSampling}
    {recognizer : TextRecognizer} {frames : List TextFrame}
    (produced : Produced ids (.completed sourceSha256 sampling recognizer frames)) :
    frames ≠ [] := by
  obtain ⟨validated, answered⟩ := produced
  unfold captureText at answered
  split at answered
  · cases answered
  · next counted =>
      obtain ⟨package, loaded, found⟩ := Option.map_eq_some_iff.mp answered
      cases found
      rw [readPackage_frames ids loaded, ← readPackage_frames ids validated]
      rintro none
      exact counted (by rw [none]; rfl)

end Ovrly.Pipeline.CaptureMedia
