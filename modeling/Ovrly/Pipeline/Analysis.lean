import Ovrly.Asr.Speech
import Ovrly.Pipeline.CaptureMedia
import Ovrly.Runs

/-!
What an investigation read says of the extraction of its media (`pipeline/analysis.py` for uploads
and `capture_analysis` of `pipeline/capture_media.py` for captures).

The rows that a read selects are its arguments. A published row holds what its handler returned.
-/

namespace Ovrly.Pipeline.Analysis

open Ovrly.Jobs Ovrly.Reports Ovrly.Asr Ovrly.Uploads Ovrly.Pipeline.CaptureMedia
open Ovrly.Captures (CaptureSession CaptureChunk Span isReceived manifest receivedInOrder spanOf)

inductive AnalysisModality
  | speech
  | text
  deriving DecidableEq, Repr

inductive AnalysisStatus
  | pending
  | partially
  | noUsable
  | complete
  deriving DecidableEq, Repr

inductive GapReason
  | noAudioTrack
  | asrQuotaExhausted
  | asrOutcomeUnknown
  | asrDisabled
  | asrUnavailable
  | deviceTextMissing
  | deviceTextIncomplete
  | deviceTextFrameFailed
  | captureChunkMissing
  | captureChunkInvalid
  deriving DecidableEq, Repr

structure AnalysisGap where
  modality : AnalysisModality
  reason : GapReason
  interval : Option Span
  deriving DecidableEq, Repr

inductive SpeechStatus
  | pending
  | running
  | completed
  | unavailable
  deriving DecidableEq, Repr

structure SpeechMeta where
  provider : String
  model : String
  processingVersion : Nat
  settingsSha256 : String
  deriving DecidableEq, Repr

structure SpeechRead where
  status : SpeechStatus
  reason : Option String
  source : Option SpeechMeta
  segments : List SpeechSegment
  deriving DecidableEq, Repr

/-- A chunk of `analysis.text` of a capture. -/
structure TextChunk where
  seq : Nat
  interval : Span
  sourceSha256 : String
  sampling : TextSampling
  recognizer : TextRecognizer
  frames : List TextFrame
  deriving DecidableEq

inductive AnalysisText
  | upload (document : DeviceTextRead)
  | capture (chunks : List TextChunk)
  deriving DecidableEq

structure AnalysisRead where
  status : AnalysisStatus
  textDeadline : Option Time
  textExpired : Bool
  analyzedModalities : List AnalysisModality
  pendingModalities : List AnalysisModality
  unavailableModalities : List AnalysisModality
  gaps : List AnalysisGap
  text : Option AnalysisText
  deriving DecidableEq

def speechGap (reason : Option String) : GapReason :=
  match reason with
  | some "no_audio_track" => .noAudioTrack
  | some "quota_exhausted" => .asrQuotaExhausted
  | some "unknown_outcome" => .asrOutcomeUnknown
  | some "disabled" => .asrDisabled
  | _ => .asrUnavailable

/-- The `status` expression that both summaries end with. -/
def analysisStatus (usable : Bool) (gaps : List AnalysisGap) (pending : List AnalysisModality) :
    AnalysisStatus :=
  if usable then (if gaps ≠ [] ∨ pending ≠ [] then .partially else .complete)
  else if pending ≠ [] then .pending
  else .noUsable

def isRead (frame : TextFrame) : Bool :=
  frame.status = .recognized || frame.status = .noTextRegions

def isFailed (frame : TextFrame) : Bool := frame.status = .failed || frame.failedRegions ≠ 0

/-- One gap for every frame that was not read, or not wholly. -/
def frameGaps (frames : List TextFrame) : List AnalysisGap :=
  (frames.filter isFailed).map fun _ => ⟨.text, .deviceTextFrameFailed, none⟩

section Uploads

def isIncomplete (completion : TextCompletion) : Bool :=
  completion.droppedFrames ≠ 0 || completion.cappedFrames ≠ 0 || completion.unfinishedFrames ≠ 0

def textFrames (text : Option DeviceTextRead) : List TextFrame :=
  (text.map fun document => framesOf document.batches).getD []

def summarize (totalMs : Nat) (speech : SpeechRead) (text : Option DeviceTextRead)
    (deadline : Option Time) (expired : Bool) : AnalysisRead :=
  let span : Option Span := some ⟨0, totalMs⟩
  let frames := textFrames text
  let completion := text.bind (·.completion)
  let spoken := speech.status = .completed
  let waits := speech.status = .pending ∨ speech.status = .running
  let analyzed := (if spoken then [AnalysisModality.speech] else []) ++
    (if frames.any isRead then [.text] else [])
  let awaited := completion = none ∧ expired = false
  let missing := completion = none ∧ expired = true
  let pending := (if waits then [AnalysisModality.speech] else []) ++
    (if awaited then [.text] else [])
  let unavailable := (if ¬spoken ∧ ¬waits then [AnalysisModality.speech] else []) ++
    (if missing then [.text] else [])
  let gaps : List AnalysisGap :=
    (if ¬spoken ∧ ¬waits then [⟨.speech, speechGap speech.reason, span⟩] else []) ++
    (if missing then
      [⟨.text, if frames = [] then .deviceTextMissing else .deviceTextIncomplete, span⟩]
    else []) ++
    frameGaps frames ++
    (if completion.any isIncomplete then [⟨.text, .deviceTextIncomplete, span⟩] else [])
  let usable := !speech.segments.isEmpty || frames.any fun frame => !frame.textObservations.isEmpty
  { status := analysisStatus usable gaps pending
    textDeadline := deadline
    textExpired := expired
    analyzedModalities := analyzed
    pendingModalities := pending
    unavailableModalities := unavailable
    gaps
    text := text.map .upload }

/-- A row of `media_analysis`, with the state of its media job. -/
structure MediaAnalysis where
  mediaJobId : JobId
  jobState : JobState
  textDeadline : Option Time
  textExpired : Bool
  deriving DecidableEq, Repr

/-- `uploaded_analysis`: `textJob` is the row of the job that fences the document. -/
def uploadedAnalysis (source : TextUpload) (state : Option MediaAnalysis)
    (document : Option TextDocument) (textJob : Option JobStatus) (speech : SpeechRead) :
    Option AnalysisRead := do
  let state ← state
  if state.jobState ≠ .published then none
  else
    match document with
    | none =>
        return summarize source.totalMs speech none state.textDeadline state.textExpired
    | some document =>
        let job ← textJob
        if document.mediaJobId ≠ state.mediaJobId ∨ job.state = .cancelled ∨
            job.state = .deleted ∨ job.cancelRequested = true then none
        else
          let text : DeviceTextRead :=
            { uploadId := source.uploadId
              sourceSha256 := source.declaredSha256
              status := if document.completion.isSome then .completed else .receiving
              jobId := some document.jobId
              batches := document.batches
              completion := document.completion }
          return summarize source.totalMs speech (some text) state.textDeadline state.textExpired

end Uploads

section Captures

/-- Where a job of a chunk stands: a published one has its result, and `ended` is every other
terminal state. -/
inductive RowState (ρ : Type)
  | queued
  | leased
  | running
  | published (result : ρ)
  | ended (failure : Option String)
  deriving DecidableEq, Repr

/-- `_ACTIVE` -/
def RowState.isActive {ρ : Type} : RowState ρ → Bool
  | .queued | .leased | .running => true
  | _ => false

/-- The `speech` of a chunk's published result. -/
inductive ChunkSpeech
  | completed (source : SpeechMeta) (segments : List SpeechSegment)
  | unavailable (reason : String)
  deriving DecidableEq, Repr

variable (ids : String → Nat → Uuid) (digest : Uuid → Nat → String)

abbrev TextResult := { text : ChunkText // Produced ids text }

inductive StageWork
  | validation (state : RowState Unit)
  | speech (state : RowState ChunkSpeech)
  | text (state : RowState (TextResult ids))
  | extraction

structure StageRow where
  id : JobId
  ownerId : PrincipalId
  inputHash : String
  work : StageWork ids

def reasonByFailure : List (String × String) :=
  [("ASRQuotaExhausted", "quota_exhausted"), ("RateLimited", "quota_exhausted"),
    ("ASRUnknownOutcome", "unknown_outcome"), ("uncertain", "unknown_outcome"),
    ("ASROffline", "offline"), ("ASRInvalidResponse", "invalid_response"),
    ("ASRMissingAudio", "missing_audio"), ("ASRChunkTooLarge", "chunk_exceeds_file_cap"),
    ("ASRModelUnavailable", "model_unavailable"), ("Transient", "provider_unavailable"),
    ("ASRUnavailable", "provider_unavailable")]

def failureReason (failure : Option String) : String :=
  (failure.bind fun name => reasonByFailure.lookup name).getD "provider_unavailable"

structure Tally where
  gaps : List AnalysisGap := []
  segments : List SpeechSegment := []
  textChunks : List TextChunk := []
  pending : List AnalysisModality := []
  running : Bool := false
  analyzed : List AnalysisModality := []
  speechMeta : Option SpeechMeta := none
  firstSpeechReason : Option String := none

def addGap (modality : AnalysisModality) (reason : GapReason) (interval : Option Span)
    (tally : Tally) : Tally :=
  { tally with gaps := tally.gaps ++ [⟨modality, reason, interval⟩] }

def addPending (modality : AnalysisModality) (tally : Tally) : Tally :=
  { tally with pending := tally.pending.insert modality }

def withoutSpeech (reason : String) (span : Span) (tally : Tally) : Tally :=
  addGap .speech (speechGap (some reason)) (some span)
    { tally with firstSpeechReason := tally.firstSpeechReason.or (some reason) }

def addSpeech (span : Span) (row : Option (RowState ChunkSpeech)) (tally : Tally) : Tally :=
  match row with
  | none | some .queued | some .leased => addPending .speech tally
  | some .running => addPending .speech { tally with running := true }
  | some (.published (.completed source segments)) =>
      { tally with
        analyzed := tally.analyzed.insert .speech
        speechMeta := tally.speechMeta.or (some source)
        segments := tally.segments ++ segments }
  | some (.published (.unavailable reason)) => withoutSpeech reason span tally
  | some (.ended failure) => withoutSpeech (failureReason failure) span tally

def addText (seq : Nat) (span : Span) (row : Option (RowState (TextResult ids))) (tally : Tally) :
    Tally :=
  match row with
  | none | some .queued | some .leased | some .running => addPending .text tally
  | some (.published ⟨.completed sourceSha256 sampling recognizer frames, _⟩) =>
      { tally with
        analyzed := if frames.any isRead then tally.analyzed.insert .text else tally.analyzed
        gaps := tally.gaps ++ frameGaps frames
        textChunks := tally.textChunks ++ [⟨seq, span, sourceSha256, sampling, recognizer, frames⟩] }
  | some (.published ⟨.unavailable _, _⟩) | some (.ended _) =>
      addGap .text .deviceTextMissing (some span) tally

/-- The entries of `stages` for a chunk: of several rows of one stage, the last. -/
def validationOf (rows : List (StageRow ids)) : Option (JobId × RowState Unit) :=
  (rows.filterMap fun row => match row.work with
    | .validation state => some (row.id, state)
    | _ => none).getLast?

def speechOf (rows : List (StageRow ids)) : Option (RowState ChunkSpeech) :=
  (rows.filterMap fun row => match row.work with
    | .speech state => some state
    | _ => none).getLast?

def textOf (rows : List (StageRow ids)) : Option (RowState (TextResult ids)) :=
  (rows.filterMap fun row => match row.work with
    | .text state => some state
    | _ => none).getLast?

def addChunk (session : CaptureSession) (rows : List (StageRow ids)) (tally : Tally)
    (chunk : CaptureChunk) : Tally :=
  let span := spanOf session chunk
  let stages := rows.filter (·.inputHash == digest session.id chunk.seq)
  match validationOf ids stages with
  | none => addPending .text (addPending .speech tally)
  | some (id, validation) =>
      if some id ≠ chunk.jobId ∨ validation.isActive = true then
        addPending .text (addPending .speech tally)
      else
        match validation with
        | .published _ =>
            addText ids chunk.seq span (textOf ids stages)
              (addSpeech span (speechOf ids stages) tally)
        | _ =>
            let reason := tally.firstSpeechReason.or (some "provider_unavailable")
            addGap .text .captureChunkInvalid (some span)
              (addGap .speech .captureChunkInvalid (some span)
                { tally with firstSpeechReason := reason })

def missingGaps (missing : List Span) : List AnalysisGap :=
  missing.flatMap fun span =>
    [⟨.speech, .captureChunkMissing, some span⟩, ⟨.text, .captureChunkMissing, some span⟩]

def captureSpeech (tally : Tally) : SpeechRead :=
  let segments := tally.segments.mergeSort fun first second =>
    first.startMs < second.startMs ||
      first.startMs == second.startMs && first.endMs ≤ second.endMs
  if .speech ∈ tally.pending then
    ⟨if tally.running then .running else .pending, none, none, segments⟩
  else
    match if .speech ∈ tally.analyzed then tally.speechMeta else none with
    | some source =>
        ⟨.completed, if segments = [] then some "no_speech" else none, some source, segments⟩
    | none =>
        ⟨.unavailable, some (tally.firstSpeechReason.getD "provider_unavailable"), none, segments⟩

def bothModalities : List AnalysisModality := [.speech, .text]

def captureRead (tally : Tally) (missing : List Span) : AnalysisRead :=
  let gaps := tally.gaps ++ missingGaps missing
  let observed := tally.textChunks.any fun chunk =>
    chunk.frames.any fun frame => !frame.textObservations.isEmpty
  let usable := !tally.segments.isEmpty || observed
  { status := analysisStatus usable gaps tally.pending
    textDeadline := none
    textExpired := false
    analyzedModalities := bothModalities.filter (· ∈ tally.analyzed)
    pendingModalities := bothModalities.filter (· ∈ tally.pending)
    unavailableModalities :=
      bothModalities.filter fun modality => modality ∉ tally.analyzed ∧ modality ∉ tally.pending
    gaps
    text := some (.capture tally.textChunks) }

def captureAnalysis (session : Option CaptureSession) (chunks : List CaptureChunk)
    (rows : List (StageRow ids)) : Option (SpeechRead × AnalysisRead) := do
  let session ← session
  let received := receivedInOrder chunks
  if received = [] then none
  else
    let owned := rows.filter (·.ownerId == session.ownerId)
    let tally := received.foldl (addChunk ids digest session owned) {}
    return (captureSpeech tally, captureRead tally (manifest session chunks).missingIntervals)

end Captures

end Ovrly.Pipeline.Analysis
