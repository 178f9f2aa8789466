import Ovrly.Asr.Ledger
import Ovrly.Jobs.Owned

/-!
Owner retries of hosted speech (`routes/speech_retry.py`).

A retry first decides, from rows it holds locked, which failed speech jobs it is for. It then
reserves a request for each of them and puts them back in the queue, or leaves all as they are.
The rows of investigations, uploads and captures are read here and written elsewhere, so a call
carries what it reads of them.
-/

namespace Ovrly.Asr

open Relational Runs Ovrly.Jobs

/-- What `media_validation` publishes for an upload. -/
structure Prepared where
  sourceSha256 : String
  totalMs : Nat
  /-- `duration_seconds` of the extracted audio. -/
  audioArtifact : Option Rat
  deriving DecidableEq

structure StageResult (δ : Type) where
  prepared : Option Prepared
  /-- The package of a chunk, with the `duration_ms` of its audio. -/
  package : Option (Option Nat)
  document : δ
  deriving DecidableEq

inductive SpeechRetryOutcome
  | accepted
  | quotaExhausted
  | notEligible
  | alreadyComplete
  | inProgress
  deriving DecidableEq, Repr

structure SpeechRetry where
  ownerId : PrincipalId
  requestKey : String
  investigationId : Nat
  response : SpeechRetryOutcome
  deriving DecidableEq, Repr

instance : Keyed SpeechRetry (PrincipalId × String) :=
  ⟨fun retry => (retry.ownerId, retry.requestKey)⟩

structure RetrySettings extends Settings where
  asrEnabled : Bool
  asrConfigured : Bool
  uploadMaxBytes : Nat
  maxSharedDurationSeconds : Nat
  /-- `speech_settings_hash(config)` -/
  speechSettingsHash : String
  deriving DecidableEq, Repr

inductive SourceKind
  | url
  | upload
  | capture
  deriving DecidableEq, Repr

structure Investigation where
  sourceKind : SourceKind
  cancelled : Bool
  deriving DecidableEq, Repr

structure Upload where
  completed : Bool
  declaredSha256 : String
  declaredSizeBytes : Nat
  isFile : Bool
  audioReadable : Bool
  deriving DecidableEq, Repr

/-- A received chunk: its stored file still has the declared size and digest, or not. -/
structure RetryChunk where
  seq : Nat
  intact : Bool
  deriving DecidableEq, Repr

structure Draw where
  primaryId : RequestId
  primaryTime : Time
  fallbackId : RequestId
  fallbackTime : Time
  deriving DecidableEq, Repr

/-- A call of `retry_speech` by an active principal, with the rows it reads. -/
structure RetryCall where
  principal : PrincipalId
  key : String
  investigationId : Nat
  settings : RetrySettings
  investigation : Option Investigation
  /-- Whether the row of `upload_text` names a media job. -/
  textMedia : Option Bool
  upload : Option Upload
  /-- `continue_research` of the capture session. -/
  session : Option (Option Bool)
  chunks : List RetryChunk
  draw : JobId → Draw

structure Digests where
  investigation : Nat → String
  chunk : Nat → Nat → String

/-- The ledger and queue that hosted speech shares, and the receipts of the retries. -/
structure Speech (δ σ : Type) where
  store : SpeechStore δ σ (StageResult δ)
  retries : Table SpeechRetry

variable {δ σ : Type}

inductive Decision (δ σ : Type)
  | refused
  | answered (outcome : SpeechRetryOutcome)
  | recorded (outcome : SpeechRetryOutcome)
  | blocked (targets : List (SpeechJob δ σ × Rat))

/-- `_previous`, where the key is new: whatever `decide` finds. -/
def unlessReplayed (speech : Speech δ σ) (call : RetryCall) (decision : Decision δ σ) :
    Decision δ σ :=
  match speech.retries.find? (call.principal, call.key) with
  | none => decision
  | some previous =>
      if previous.investigationId = call.investigationId then .answered previous.response
      else .refused

def stopped (rows : List (SpeechJob δ σ)) : Bool :=
  rows.any fun row => row.cancelRequested || row.state == .deleted || row.state == .cancelled

/-- A speech job that failed for quota alone, whose audio may be sent again. -/
def quotaBlocked (speech : Speech δ σ) (settings : RetrySettings) (row : SpeechJob δ σ) : Bool :=
  row.state == .failed && row.failure == some "ASRQuotaExhausted" && settings.asrEnabled &&
    settings.asrConfigured &&
    replaySafe speech.store.requests row.id row.payload row.retryCounts

section Upload

variable (digests : Digests) (speech : Speech δ σ) (call : RetryCall)

def uploadStages : List (SpeechJob δ σ) :=
  speech.store.queue.jobs.rows.filter fun row =>
    row.ownerId == some call.principal && row.key.version == 1 &&
      row.key.inputHash == digests.investigation call.investigationId &&
      ["intake", "media_validation", "upload_asr"].contains row.key.stage

def preparedAudio (source : Upload) (prepared : Option Prepared) : Option Rat :=
  prepared.bind fun media =>
    if source.completed && media.sourceSha256 == source.declaredSha256 &&
        source.declaredSizeBytes ≤ call.settings.uploadMaxBytes &&
        media.totalMs ≤ call.settings.maxSharedDurationSeconds * 1000 then
      if source.isFile && source.audioReadable then media.audioArtifact else none
    else none

def decideUpload (investigation : Investigation) : Decision δ σ :=
  let stages := uploadStages digests speech call
  unlessReplayed speech call <|
    if investigation.cancelled || investigation.sourceKind != .upload || stopped stages ||
        call.textMedia == some false then .answered .notEligible
    else
      match stages.find? (·.key.stage == "upload_asr") with
      | none => .recorded .notEligible
      | some row =>
          if row.state = .published then .recorded .alreadyComplete
          else if row.state.isActive then .recorded .inProgress
          else
            match stages.find? (·.key.stage == "media_validation") with
            | none => .recorded .notEligible
            | some media =>
                if quotaBlocked speech call.settings row && media.state == .published &&
                    row.payload.settingsSha256 == some call.settings.speechSettingsHash then
                  match call.upload with
                  | none => .refused
                  | some source =>
                      match preparedAudio call source
                        ((speech.store.queue.results.find? media.id).bind (·.result.prepared)) with
                      | none => .recorded .notEligible
                      | some seconds => .blocked [(row, seconds)]
                else .recorded .notEligible

end Upload

section Capture

variable (digests : Digests) (speech : Speech δ σ) (call : RetryCall)

/-- `chunk_jobs`, for the rows of the principal. -/
def chunkRows : List (SpeechJob δ σ) :=
  speech.store.queue.jobs.rows.filter fun row =>
    row.key.version == 1 &&
      ["media_validation", "asr", "device_text", "claim_extraction"].contains row.key.stage &&
      (call.chunks.any fun chunk =>
        row.key.inputHash == digests.chunk call.investigationId chunk.seq) &&
      row.ownerId == some call.principal

inductive ChunkSpeech (δ σ : Type)
  | passed
  | active
  | blocked (row : SpeechJob δ σ) (seconds : Rat)

def chunkSpeech (rows : List (SpeechJob δ σ)) (chunk : RetryChunk) : ChunkSpeech δ σ :=
  let digest := digests.chunk call.investigationId chunk.seq
  match rows.find? fun row => row.key.stage == "media_validation" && row.key.inputHash == digest with
  | none => .passed
  | some validation =>
      if validation.state ≠ .published then
        if validation.state.isActive then .active else .passed
      else
        match rows.find? fun row => row.key.stage == "asr" && row.key.inputHash == digest with
        | none => .active
        | some row =>
            if row.state.isActive then .active
            else
              match (speech.store.queue.results.find? validation.id).bind (·.result.package) with
              | some (some milliseconds) =>
                  if quotaBlocked speech call.settings row && chunk.intact then
                    .blocked row (milliseconds / 1000)
                  else .passed
              | _ => .passed

def ChunkSpeech.target : ChunkSpeech δ σ → Option (SpeechJob δ σ × Rat)
  | .blocked row seconds => some (row, seconds)
  | .passed | .active => none

def ChunkSpeech.isActive : ChunkSpeech δ σ → Bool
  | .active => true
  | .passed | .blocked _ _ => false

def captureOutcome (rows : List (SpeechJob δ σ)) : Decision δ σ :=
  let found := call.chunks.map (chunkSpeech digests speech call rows)
  match found.filterMap ChunkSpeech.target with
  | [] =>
      if found.any ChunkSpeech.isActive then .recorded .inProgress
      else if rows.any fun row => row.key.stage == "asr" && row.state == .published then
        .recorded .alreadyComplete
      else .recorded .notEligible
  | targets => .blocked targets

/-- `_lock_capture`, then `_capture_outcome` up to its reservations. -/
def decideCapture (investigation : Investigation) : Decision δ σ :=
  let rows := chunkRows digests speech call
  unlessReplayed speech call <|
    match call.session with
    | none | some (some false) => .answered .notEligible
    | some _ =>
        if investigation.cancelled || stopped rows then .answered .notEligible
        else captureOutcome digests speech call rows

end Capture

section Retry

def decideRetry (digests : Digests) (speech : Speech δ σ) (call : RetryCall) : Decision δ σ :=
  match call.investigation with
  | none => .refused
  | some investigation =>
      match investigation.sourceKind with
      | .capture => decideCapture digests speech call investigation
      | .url | .upload => decideUpload digests speech call investigation

def reserveEither (settings : RetrySettings) (draw : Draw)
    (store : SpeechStore δ σ (StageResult δ)) (jobId : JobId) (seconds : Rat)
    (index : Nat) : Except ReserveError (SpeechStore δ σ (StageResult δ)) :=
  match reserveIn store settings.toSettings
      { id := draw.primaryId, jobId, durationSeconds := seconds, index
        model := some settings.groqModel, timestamp := draw.primaryTime } with
  | .ok (_, next) => .ok next
  | .error .duplicateId => .error .duplicateId
  | .error .quotaExhausted =>
      (reserveIn store settings.toSettings
        { id := draw.fallbackId, jobId, durationSeconds := seconds, index
          model := some settings.groqFallbackModel, timestamp := draw.fallbackTime }).map Prod.snd

/-- `int(payload.get("speech_retry", 0)) + 1` -/
def retryNumber (row : SpeechJob δ σ) : Nat := row.payload.speechRetry.getD 0 + 1

def reserveTargets (call : RetryCall) (store : SpeechStore δ σ (StageResult δ)) :
    List (SpeechJob δ σ × Rat) → Except ReserveError (SpeechStore δ σ (StageResult δ))
  | [] => .ok store
  | (row, seconds) :: rest =>
      match reserveEither call.settings (call.draw row.id) store row.id seconds
        (retryNumber row * 100) with
      | .error refused => .error refused
      | .ok next => reserveTargets call next rest

def requeued (number : Nat) (row : SpeechJob δ σ) : SpeechJob δ σ :=
  { row with
    state := .queued
    generation := row.generation + 1
    failure := none
    retryClass := none
    retryCounts := []
    payload := { row.payload with speechRetry := some number } }

@[simp] theorem requeued_id (number : Nat) (row : SpeechJob δ σ) :
    (requeued number row).id = row.id := rfl

def requeue (queue : Database (SpeechPayload δ) σ (StageResult δ)) (row : SpeechJob δ σ) :
    Database (SpeechPayload δ) σ (StageResult δ) :=
  { queue with
    jobs := queue.jobs.update (·.id == row.id) (requeued (retryNumber row))
      (requeued_id (retryNumber row)) }

def requeueTargets (queue : Database (SpeechPayload δ) σ (StageResult δ))
    (targets : List (SpeechJob δ σ × Rat)) : Database (SpeechPayload δ) σ (StageResult δ) :=
  (targets.map Prod.fst).foldl requeue queue

def Speech.record (speech : Speech δ σ) (call : RetryCall) (outcome : SpeechRetryOutcome) :
    Option (Speech δ σ) :=
  (speech.retries.insert?
    ⟨call.principal, call.key, call.investigationId, outcome⟩).map
      fun retries => { speech with retries }

/-- An owner retry. An answer `none` is an error response, which writes nothing. -/
def retrySpeech (digests : Digests) (speech : Speech δ σ) (call : RetryCall) :
    Option SpeechRetryOutcome × Speech δ σ :=
  let recorded (outcome : SpeechRetryOutcome) (next : Speech δ σ) :=
    match next.record call outcome with
    | none => (none, speech)
    | some written => (some outcome, written)
  match decideRetry digests speech call with
  | .refused => (none, speech)
  | .answered outcome => (some outcome, speech)
  | .recorded outcome => recorded outcome speech
  | .blocked targets =>
      match reserveTargets call speech.store targets with
      | .error .duplicateId => (none, speech)
      | .error .quotaExhausted => recorded .quotaExhausted speech
      | .ok store =>
          recorded .accepted
            { speech with store := { store with queue := requeueTargets store.queue targets } }

end Retry

end Ovrly.Asr
