import Mathlib
import Ovrly.Jobs.Workers
import Ovrly.Reports.Model

/-!
Capture sessions, their chunks and the stages of a chunk (`pipeline/capture.py`,
`captures.py` and the capture routes).

Every function here is one transaction that locks the session row before any job. What a route
checks before it is let in (sizes, digests, the chunk's interval) is left to its caller.
-/

namespace Ovrly.Pipeline.Capture

open Relational Ovrly.Jobs Ovrly.Reports

def captureStage : String := "media_validation"

def captureStages : List String := [captureStage, "asr", "device_text", "claim_extraction"]

/-- The payloads a capture job is told apart by. An identifier that does not parse is `none`. -/
inductive CapturePayload (δ : Type)
  | chunk (captureId : Option Uuid) (seq : Option Nat)
  | incremental (investigationId : Uuid) (document : δ)
  | other (document : δ)
  deriving DecidableEq

instance {δ : Type} [EmptyCollection δ] : EmptyCollection (CapturePayload δ) := ⟨.other ∅⟩

structure CaptureSession where
  id : Uuid
  ownerId : PrincipalId
  chunkDurationMs : Nat
  closed : Bool := false
  durationMs : Option Nat := none
  continueResearch : Option Bool := none
  deriving DecidableEq, Repr

structure CaptureChunk where
  sessionId : Uuid
  seq : Nat
  endMs : Nat
  received : Bool := false
  jobId : Option JobId := none
  deriving DecidableEq, Repr

instance : Keyed CaptureSession Uuid := ⟨CaptureSession.id⟩
instance : Keyed CaptureChunk (Uuid × Nat) := ⟨fun chunk => (chunk.sessionId, chunk.seq)⟩

structure Captures where
  sessions : Table CaptureSession := .empty
  chunks : Table CaptureChunk := .empty

inductive CaptureFailure
  | publish (error : PublishError)
  | nonRetriableInput (message : String)
  deriving DecidableEq, Repr

structure ApiError where
  status : Nat := 409
  code : String
  message : String
  deriving DecidableEq, Repr

variable {δ σ ρ : Type} (digest : Uuid → Nat → String)

/-- `sha256(f"capture:{session_id}:{seq}")` is the digest. -/
def stageKey (captureId : Uuid) (seq : Nat) (stage : String) : StageKey :=
  ⟨1, stage, digest captureId seq⟩

def captureReference : CapturePayload δ → Except CaptureFailure (Uuid × Nat)
  | .chunk (some captureId) (some seq) => .ok (captureId, seq)
  | _ => .error (.nonRetriableInput "Capture job has no valid capture or sequence")

/-- `chunk_jobs` for one chunk. -/
def isChunkJob (captureId : Uuid) (seq : Nat) (key : StageKey) : Bool :=
  key.version == 1 && captureStages.contains key.stage && key.inputHash == digest captureId seq

section Publish

variable [EmptyCollection σ]

/-- What capture stages still wait for, and what follows them. -/
def prerequisites (stage : String) : List String :=
  if stage = "claim_extraction" then ["asr", "device_text"]
  else if stage ≠ captureStage then [captureStage]
  else []

def successorsOf (stage : String) (isPublished : String → Bool) : List String :=
  if stage = captureStage then ["asr", "device_text"]
  else if stage = "asr" ∨ stage = "device_text" then
    if isPublished (if stage = "asr" then "device_text" else "asr") then ["claim_extraction"]
    else []
  else []

def stageRow (queue : Database (CapturePayload δ) σ ρ) (captureId : Uuid) (seq : Nat)
    (stage : String) : Option (Job (CapturePayload δ) σ) :=
  queue.jobs.rows.find? (·.key == stageKey digest captureId seq stage)

def stagePublished (queue : Database (CapturePayload δ) σ ρ) (captureId : Uuid) (seq : Nat)
    (stage : String) : Bool :=
  (stageRow digest queue captureId seq stage).any (·.state == .published)

def successorJob (captureId : Uuid) (seq : Nat) (ownerId : PrincipalId) (ids : String → JobId)
    (stage : String) : NewJob (CapturePayload δ) :=
  ⟨ids stage, stageKey digest captureId seq stage, .chunk (some captureId) (some seq),
    some ownerId⟩

variable (captures : Captures) (queue : Database (CapturePayload δ) σ ρ)
  (job : ClaimedJob (CapturePayload δ) σ) (result : ρ) (onPublish : OnPublish (CapturePayload δ))
  (ids : String → JobId) (clock : Clock)

abbrev Publication (δ σ ρ : Type) : Type :=
  Except CaptureFailure (Option (PublishedResult ρ)) × Database (CapturePayload δ) σ ρ

def publishAlone : Publication δ σ ρ :=
  match publish queue job.lease result [] onPublish clock with
  | (.error error, _) => (.error (.publish error), queue)
  | (.ok published, next) => (.ok (some published), next)

def publishStopped : Publication δ σ ρ :=
  (.ok none, (requestCancel queue job.lease.jobId clock).2)

/-- The session, the chunk and the first stage let the chunk's work go on. -/
def goesOn (session : CaptureSession) (chunk : CaptureChunk)
    (root : Job (CapturePayload δ) σ) : Bool :=
  session.continueResearch != some false && chunk.jobId == some root.id &&
    !([.cancelled, .deleted, .failed].contains root.state) && !root.cancelRequested

/-- `lock_extraction_capture` -/
def researchAllowed (captures : Captures) (investigationId : Uuid) : Bool :=
  (captures.sessions.find? investigationId).all (·.continueResearch != some false)

def ownedSession (captureId : Uuid) : Option CaptureSession :=
  (captures.sessions.find? captureId).filter fun session =>
    (queue.jobs.find? job.lease.jobId).any (·.ownerId == some session.ownerId)

def publishChunkStage (captureId : Uuid) (seq : Nat) : Publication δ σ ρ :=
  let chunk := (captures.chunks.find? (captureId, seq)).filter (·.received)
  match ownedSession captures queue job captureId, chunk,
      stageRow digest queue captureId seq captureStage with
  | some session, some chunk, some root =>
      if !goesOn session chunk root then publishStopped queue job clock
      else if queue.jobs.rows.any fun row =>
          isChunkJob digest captureId seq row.key && row.ownerId != some session.ownerId then
        (.error (.publish (.rejected "capture stages have inconsistent ownership")), queue)
      else if (prerequisites job.key.stage).any fun stage =>
          !stagePublished digest queue captureId seq stage then
        (.error (.publish (.rejected "capture prerequisites are not published")), queue)
      else
        match publish queue job.lease result [] onPublish clock with
        | (.error error, _) => (.error (.publish error), queue)
        | (.ok published, next) =>
            let stages := successorsOf job.key.stage (stagePublished digest queue captureId seq)
            match enqueueAll next
                (stages.map (successorJob digest captureId seq session.ownerId ids)) clock with
            | .error _ => (.error (.publish .raised), queue)
            | .ok final => (.ok (some published), final)
  | _, _, _ => publishStopped queue job clock

def publishCaptureStage : Publication δ σ ρ :=
  match job.payload with
  | .incremental investigationId _ =>
      if job.key.stage = "claim_extraction" ∨ job.key.stage = "reconciliation" then
        if researchAllowed captures investigationId then
          publishAlone queue job result onPublish clock
        else publishStopped queue job clock
      else publishAlone queue job result onPublish clock
  | .other _ => publishAlone queue job result onPublish clock
  | .chunk captureId? seq? =>
      if captureStages.contains job.key.stage then
        match captureReference (CapturePayload.chunk captureId? seq? : CapturePayload δ) with
        | .error failure => (.error failure, queue)
        | .ok (captureId, seq) =>
            if job.key ≠ stageKey digest captureId seq job.key.stage then
              (.error (.publish
                (.rejected "capture stage key does not match its payload")), queue)
            else publishChunkStage digest captures queue job result onPublish ids clock captureId seq
      else publishAlone queue job result onPublish clock

end Publish

section Routes

/-- `POST /captures` -/
def openCapture (captures : Captures) (session : CaptureSession) : Captures :=
  match captures.sessions.insert?
      { session with closed := false, durationMs := none, continueResearch := none } with
  | none => captures
  | some sessions => { captures with sessions }

/-- `require_open` and `reserve`: a sequence is reserved before its bytes are stored. -/
def reserveChunk (captures : Captures) (captureId : Uuid) (seq endMs : Nat) : Captures :=
  match captures.sessions.find? captureId with
  | none => captures
  | some session =>
      if session.closed then captures
      else
        match captures.chunks.insert? { sessionId := captureId, seq, endMs } with
        | none => captures
        | some chunks => { captures with chunks }

def received (jobId : JobId) (chunk : CaptureChunk) : CaptureChunk :=
  { chunk with received := true, jobId := some jobId }

theorem received_key (jobId : JobId) (chunk : CaptureChunk) :
    Keyed.key (received jobId chunk) = Keyed.key chunk := rfl

variable [EmptyCollection σ]

/-- `PUT /captures/{id}/chunks/{seq}` -/
def putChunk (captures : Captures) (queue : Database (CapturePayload δ) σ ρ) (captureId : Uuid)
    (seq : Nat) (principal : PrincipalId) (jobId : JobId) (clock : Clock) :
    Captures × Database (CapturePayload δ) σ ρ :=
  match captures.sessions.find? captureId, captures.chunks.find? (captureId, seq) with
  | some session, some chunk =>
      if session.ownerId ≠ principal ∨ chunk.received = true ∨ session.closed = true then
        (captures, queue)
      else
        match enqueue queue
            ⟨jobId, stageKey digest captureId seq captureStage,
              .chunk (some captureId) (some seq), some principal⟩ clock with
        | .error _ => (captures, queue)
        | .ok (queued, next) =>
            ({ captures with
                chunks := captures.chunks.update
                  (fun row => row.sessionId == captureId && row.seq == seq)
                  (received queued.jobId) (received_key queued.jobId) }, next)
  | _, _ => (captures, queue)

structure CloseRequest where
  continueResearch : Bool
  durationMs : Option Nat
  deriving DecidableEq, Repr

def closed (duration : Nat) (continueResearch : Bool) (session : CaptureSession) :
    CaptureSession :=
  { session with
    closed := true
    durationMs := some duration
    continueResearch := some continueResearch }

theorem closed_key (duration : Nat) (continueResearch : Bool) (session : CaptureSession) :
    Keyed.key (closed duration continueResearch session) = Keyed.key session := rfl

/-- The jobs that Stop cancels: those of received chunks, and the incremental ones. -/
def stoppedJob (captureId : Uuid) (sequences : List Nat) (principal : PrincipalId)
    (job : Job (CapturePayload δ) σ) : Bool :=
  job.ownerId == some principal &&
    (sequences.any (isChunkJob digest captureId · job.key) ||
      (["claim_extraction", "reconciliation"].contains job.key.stage &&
        match job.payload with
        | .incremental investigationId _ => investigationId == captureId
        | _ => false))

def cancelAll (queue : Database (CapturePayload δ) σ ρ) (ids : List JobId) (clock : Clock) :
    Database (CapturePayload δ) σ ρ :=
  ids.foldl (fun current jobId => (requestCancel current jobId clock).2) queue

def closeCapture (captures : Captures) (queue : Database (CapturePayload δ) σ ρ)
    (captureId : Uuid) (principal : PrincipalId) (body : CloseRequest) (clock : Clock) :
    Except ApiError (Captures × Database (CapturePayload δ) σ ρ) :=
  match (captures.sessions.find? captureId).filter (·.ownerId == principal) with
  | none => .error ⟨404, "NOT_FOUND", "The requested resource was not found"⟩
  | some session =>
      let kept := captures.chunks.rows.filter fun chunk =>
        chunk.sessionId == captureId && chunk.received
      let duration := body.durationMs.getD ((kept.map (·.endMs)).foldr max 0)
      if session.closed then
        if session.continueResearch ≠ some body.continueResearch ∨
            session.durationMs ≠ some duration then
          .error { code := "CAPTURE_CLOSE_CONFLICT"
                   message := "The capture already has a different close" }
        else .ok (captures, queue)
      else if kept.any (duration < ·.endMs) then
        .error ⟨422, "VALIDATION_FAILED", "Duration cannot truncate received chunks"⟩
      else if kept.any fun chunk =>
          chunk.endMs < (chunk.seq + 1) * session.chunkDurationMs && chunk.endMs != duration then
        .error { code := "CAPTURE_FINAL_CHUNK"
                 message := "Duration must end with the short final chunk" }
      else
        let sessions := captures.sessions.update (·.id == captureId)
          (closed duration body.continueResearch) (closed_key duration body.continueResearch)
        let stopping := queue.jobs.rows.filter
          (stoppedJob digest captureId (kept.map (·.seq)) principal)
        .ok ({ captures with sessions },
          if body.continueResearch then queue
          else cancelAll queue (stopping.map (·.id)) clock)

end Routes

end Ovrly.Pipeline.Capture
