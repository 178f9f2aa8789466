import Ovrly.JsonSize
import Ovrly.Jobs.States
import Ovrly.Extraction.Grounding

/-!
Device text of a completed upload (`routes/device_text.py`).

A client delivers the text it recognized in numbered batches, in any order and more than once,
and completes the delivery with their count. Each call is one transaction on the locked row of
the investigation. The upload and its published media do not change while the investigation
stays eligible; the job that fences the document may be cancelled or deleted at any time.
-/

namespace Ovrly.Uploads

open JsonSize Ovrly.Reports Ovrly.Jobs Ovrly.Extraction

structure TextRecognizer where
  name : String
  version : String
  deriving DecidableEq, Repr

structure TextSampling where
  policy : String
  probeIntervalMs : Nat
  thumbnailEdge : Nat
  changeThreshold : Nat
  heartbeatMs : Nat
  maxFramesPerMinute : Nat
  frameLongEdge : Nat
  deriving DecidableEq, Repr

structure TextObservation where
  id : Uuid
  text : String
  box : List Nat
  framePts : Nat
  spoken : blank text.toList = false
  short : text.length ≤ 4096

instance : DecidableEq TextObservation := fun first second =>
  decidable_of_iff
    (first.id = second.id ∧ first.text = second.text ∧ first.box = second.box ∧
      first.framePts = second.framePts) (by
    cases first
    cases second
    simp)

inductive FrameStatus
  | recognized
  | noTextRegions
  | failed
  deriving DecidableEq, Repr

structure TextFrame where
  framePts : Nat
  status : FrameStatus
  regions : Nat
  recognitionMs : Nat
  failedRegions : Nat
  textObservations : List TextObservation
  deriving DecidableEq

/-- What a batch and a completion say of their source; the constants of the protocol are left
out. -/
structure TextSource where
  uploadId : Uuid
  sourceSha256 : String
  recognizer : Option TextRecognizer
  sampling : Option TextSampling
  deriving DecidableEq, Repr

structure TextBatch extends TextSource where
  frames : List TextFrame
  deriving DecidableEq

structure TextCompletion extends TextSource where
  batchCount : Nat
  droppedFrames : Nat
  cappedFrames : Nat
  unfinishedFrames : Nat
  deriving DecidableEq, Repr

structure StoredBatch where
  batchId : Nat
  body : TextBatch
  deriving DecidableEq

/-- A row of `upload_text`. -/
structure TextDocument where
  jobId : Nat
  mediaJobId : Nat
  batches : List StoredBatch
  completion : Option TextCompletion
  deriving DecidableEq

section Sizes

def TextRecognizer.size (recognizer : TextRecognizer) : Nat :=
  objectSize [("name", stringSize recognizer.name), ("version", stringSize recognizer.version)]

def TextSampling.size (sampling : TextSampling) : Nat :=
  objectSize [("policy", stringSize sampling.policy),
    ("probe_interval_ms", numberSize sampling.probeIntervalMs),
    ("thumbnail_edge", numberSize sampling.thumbnailEdge),
    ("change_threshold", numberSize sampling.changeThreshold),
    ("heartbeat_ms", numberSize sampling.heartbeatMs),
    ("max_frames_per_minute", numberSize sampling.maxFramesPerMinute),
    ("frame_long_edge", numberSize sampling.frameLongEdge)]

def TextObservation.size (item : TextObservation) : Nat :=
  objectSize [("id", stringSize item.id), ("text", stringSize item.text),
    ("box", arraySize (item.box.map numberSize)), ("frame_pts", numberSize item.framePts)]

def FrameStatus.text : FrameStatus → String
  | .recognized => "recognized"
  | .noTextRegions => "no_text_regions"
  | .failed => "failed"

def TextFrame.size (frame : TextFrame) : Nat :=
  objectSize [("frame_pts", numberSize frame.framePts),
    ("status", stringSize frame.status.text),
    ("regions", numberSize frame.regions),
    ("recognition_ms", numberSize frame.recognitionMs),
    ("failed_regions", numberSize frame.failedRegions),
    ("text_observations", arraySize (frame.textObservations.map TextObservation.size))]

def TextBatch.size (body : TextBatch) : Nat :=
  objectSize [("protocol_version", numberSize 1), ("upload_id", stringSize body.uploadId),
    ("source_sha256", stringSize body.sourceSha256), ("timebase", stringSize "media"),
    ("rotation_degrees", numberSize 0), ("box_space", stringSize "normalized_10000"),
    ("recognizer", (body.recognizer.map TextRecognizer.size).getD nullSize),
    ("sampling", (body.sampling.map TextSampling.size).getD nullSize),
    ("frames", arraySize (body.frames.map TextFrame.size))]

def StoredBatch.size (batch : StoredBatch) : Nat :=
  objectSize [("batch_id", numberSize batch.batchId), ("body", batch.body.size)]

/-- `len(json.dumps(batches).encode())` -/
def storedSize (batches : List StoredBatch) : Nat := arraySize (batches.map StoredBatch.size)

end Sizes

def maxStoredBytes : Nat := 2097152

def framesOf (batches : List StoredBatch) : List TextFrame := batches.flatMap (·.body.frames)

def observationsOf (batches : List StoredBatch) : List TextObservation :=
  (framesOf batches).flatMap (·.textObservations)

structure TextError where
  status : Nat
  code : String
  deriving DecidableEq, Repr

def conflict (code : String := "DEVICE_TEXT_CONFLICT") : TextError := ⟨409, code⟩

/-- The completed upload and its published media, which `eligible` finds. -/
structure TextUpload where
  uploadId : Uuid
  declaredSha256 : String
  mediaJobId : Nat
  totalMs : Nat
  deriving DecidableEq, Repr

/-- The last check of `eligible`. -/
def eligible (source : TextUpload) (document : Option TextDocument) : Except TextError Unit :=
  if document.any (·.mediaJobId != source.mediaJobId) then
    .error (conflict "DEVICE_TEXT_INELIGIBLE")
  else .ok ()

inductive TextStatus
  | notStarted
  | receiving
  | completed
  | cancelled
  deriving DecidableEq, Repr

/-- The state of the delivery, where `textJob` is the row of the job that fences it. -/
def textState (document : Option TextDocument) (textJob : Option JobStatus) :
    Except TextError TextStatus :=
  match document with
  | none => .ok .notStarted
  | some stored =>
      match textJob with
      | none => .error (conflict "DEVICE_TEXT_INELIGIBLE")
      | some job =>
          if job.state = .deleted then .error (conflict "DEVICE_TEXT_INELIGIBLE")
          else if job.cancelRequested ∨ job.state = .cancelled then .ok .cancelled
          else if stored.completion.isSome then .ok .completed
          else .ok .receiving

structure DeviceTextRead where
  uploadId : Uuid
  sourceSha256 : String
  status : TextStatus
  jobId : Option Nat
  batches : List StoredBatch
  completion : Option TextCompletion
  deriving DecidableEq

def snapshot (source : TextUpload) (document : Option TextDocument)
    (textJob : Option JobStatus) : Except TextError DeviceTextRead := do
  let status ← textState document textJob
  pure
    { uploadId := source.uploadId
      sourceSha256 := source.declaredSha256
      status
      jobId := document.map (·.jobId)
      batches := (document.map (·.batches)).getD []
      completion := document.bind (·.completion) }

/-- What a call finds besides the document: the row of the fencing job, and the id of the one
`create_text_document` enqueues. -/
structure TextRows where
  textJob : Option JobStatus
  jobId : Nat
  deriving DecidableEq, Repr

def TextRows.created (rows : TextRows) : Option TextDocument → Option JobStatus
  | none => some ⟨.queued, false⟩
  | some _ => rows.textJob

/-- The source is the upload of the investigation, and the delivery was not cancelled. -/
def accepts (source : TextUpload) (document : Option TextDocument) (rows : TextRows)
    (body : TextSource) : Except TextError Unit := do
  eligible source document
  if body.uploadId ≠ source.uploadId ∨ body.sourceSha256 ≠ source.declaredSha256 then
    throw (conflict "DEVICE_TEXT_SOURCE_INVALID")
  if (← textState document rows.textJob) = .cancelled then
    throw (conflict "DEVICE_TEXT_INELIGIBLE")

def differs (batches : List StoredBatch) (body : TextSource) : Bool :=
  batches.head?.any fun first =>
    first.body.sampling != body.sampling || first.body.recognizer != body.recognizer

/-- A value is there twice: the set of the values is smaller than the list. -/
def repeats {α : Type} [DecidableEq α] (values : List α) : Bool :=
  values.dedup.length != values.length

def extended (batches : List StoredBatch) (batchId : Nat) (body : TextBatch) :
    Except TextError (List StoredBatch) := do
  if differs batches body.toTextSource then throw conflict
  let all := batches ++ [⟨batchId, body⟩]
  if repeats ((framesOf all).map (·.framePts)) || repeats ((observationsOf all).map (·.id)) then
    throw conflict
  if (framesOf all).length > 1200 ∨ (observationsOf all).length > 5000 ∨
      storedSize all > maxStoredBytes then
    throw ⟨413, "DEVICE_TEXT_TOO_LARGE"⟩
  pure (all.mergeSort fun first second => first.batchId ≤ second.batchId)

def putBatch (source : TextUpload) (document : Option TextDocument) (rows : TextRows)
    (batchId : Nat) (body : TextBatch) :
    Except TextError (DeviceTextRead × Option TextDocument) := do
  accepts source document rows body.toTextSource
  if body.frames.any (source.totalMs ≤ ·.framePts) then
    throw ⟨422, "DEVICE_TEXT_TIMESTAMP_INVALID"⟩
  let batches := (document.map (·.batches)).getD []
  match batches.find? (·.batchId == batchId) with
  | some previous =>
      if previous.body ≠ body then throw conflict
      pure (← snapshot source document rows.textJob, document)
  | none =>
      if document.any (·.completion.isSome) then throw conflict
      let stored ← extended batches batchId body
      let next := match document with
        | none => ⟨rows.jobId, source.mediaJobId, stored, none⟩
        | some current => { current with batches := stored }
      pure (← snapshot source (some next) (rows.created document), some next)

def completeText (source : TextUpload) (document : Option TextDocument) (rows : TextRows)
    (body : TextCompletion) : Except TextError (DeviceTextRead × Option TextDocument) := do
  accepts source document rows body.toTextSource
  let batches := (document.map (·.batches)).getD []
  match document.bind (·.completion) with
  | some completion =>
      if completion ≠ body then throw conflict
      pure (← snapshot source document rows.textJob, document)
  | none =>
      if batches.map (·.batchId) ≠ List.range body.batchCount then throw conflict
      if differs batches body.toTextSource then throw conflict
      let next := match document with
        | none => ⟨rows.jobId, source.mediaJobId, [], some body⟩
        | some current => { current with completion := some body }
      pure (← snapshot source (some next) (rows.created document), some next)

inductive TextRequest
  | put (batchId : Nat) (body : TextBatch)
  | complete (body : TextCompletion)
  deriving DecidableEq

def receive (source : TextUpload) (document : Option TextDocument) (rows : TextRows) :
    TextRequest → Except TextError (DeviceTextRead × Option TextDocument)
  | .put batchId body => putBatch source document rows batchId body
  | .complete body => completeText source document rows body

def deliver (source : TextUpload) (document : Option TextDocument)
    (call : TextRows × TextRequest) : Option TextDocument :=
  match receive source document call.1 call.2 with
  | .error _ => document
  | .ok (_, next) => next

end Ovrly.Uploads
