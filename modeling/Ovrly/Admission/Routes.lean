import Ovrly.Captures.Sessions
import Ovrly.Evidence.Stages

/-!
The routes that charge (`routes/investigations.py`, `routes/captures.py`, `routes/uploads.py`,
`services/reanalysis.py`).

Each takes the admission lock of its principal first, answers a repeated request from what is
stored, and charges in the transaction that writes the new rows.
-/

namespace Ovrly.Admission

open Relational Ovrly.Jobs Ovrly.Reports Ovrly.Captures
open Ovrly.Evidence (Reanalysis Reason ReanalysisPayload World confirmedSource)

inductive SourceKind
  | url
  | upload
  | capture
  deriving DecidableEq, Repr

/-- A row of `investigations`, with the columns that intake writes. -/
structure Investigation where
  id : Uuid
  ownerId : PrincipalId
  sourceKind : SourceKind
  sourceUrl : Option String
  uploadId : Option Uuid
  declaredDurationMs : Option Nat
  state : String
  stage : String
  createdAt : Time
  deriving DecidableEq, Repr

structure Upload where
  id : Uuid
  ownerId : PrincipalId
  state : String
  declaredSizeBytes : Nat
  declaredSha256 : String
  contentType : String
  maxBytes : Nat
  storageKey : String
  expiresAt : Time
  createdAt : Time
  completedAt : Option Time
  deriving DecidableEq, Repr

/-- A row of `idempotency_keys`; `β` is the read model of an investigation. -/
structure IdempotencyKey (β : Type) where
  ownerId : PrincipalId
  key : String
  requestHash : String
  investigationId : Uuid
  responseStatus : Nat
  responseBody : β
  createdAt : Time
  deriving DecidableEq, Repr

structure ReanalysisResponse where
  id : Uuid
  investigationId : Uuid
  reason : Reason
  baseVersion : Nat
  publishedVersion : Option Nat
  sourceInvestigationId : Option Uuid
  jobId : JobId
  createdAt : Time
  deriving DecidableEq, Repr

/-- A row of `reanalysis_requests`, which names the answer and the request it answers. -/
structure ReanalysisRequest where
  ownerId : PrincipalId
  idempotencyKey : String
  requestHash : String
  response : ReanalysisResponse
  deriving DecidableEq, Repr

instance : Keyed Investigation Uuid := ⟨Investigation.id⟩
instance : Keyed Upload Uuid := ⟨Upload.id⟩
instance {β : Type} : Keyed (IdempotencyKey β) (PrincipalId × String) :=
  ⟨fun stored => (stored.ownerId, stored.key)⟩
instance : Keyed ReanalysisRequest (PrincipalId × String) :=
  ⟨fun stored => (stored.ownerId, stored.idempotencyKey)⟩

variable {π σ ρ β : Type} [EmptyCollection σ]

/-- What the charging routes read and write. -/
structure Office (π σ ρ β : Type) where
  intake : Intake
  queue : Database π σ ρ
  investigations : Table Investigation
  uploads : Table Upload
  idempotencyKeys : Table (IdempotencyKey β)
  reanalysisRequests : Table ReanalysisRequest
  archive : Archive

structure AdmissionSettings extends CaptureSettings where
  maxSharedDurationSeconds : Nat
  uploadTargetSeconds : Nat
  deriving DecidableEq, Repr

/-- What the routes compose from their arguments: keys and payloads of jobs, the read model of
an investigation and the ids of report items. -/
structure Composition (π β : Type) where
  intakeKey : Uuid → StageKey
  intakePayload : Uuid → PrincipalId → π
  reanalysisKey : Uuid → StageKey
  reanalysisPayload : ReanalysisPayload → PrincipalId → π
  readModel : Investigation → β
  identify : Uuid → List (String × Nat × Nat) → String

/-- How a transaction ends that does not commit. -/
inductive Refusal
  | api (error : ApiError)
  | integrityError
  deriving DecidableEq, Repr

inductive Outcome (α : Type)
  | replayed (answer : α)
  | admitted (answer : α)
  deriving DecidableEq, Repr

structure Caller where
  id : PrincipalId
  active : Bool
  deriving DecidableEq, Repr

def invalidCredential : ApiError :=
  { status := 401, code := "INVALID_CREDENTIAL", message := "The bearer credential is not valid" }

def lockOwner (settings : QuotaSettings) (caller : Caller) : Except ApiError Unit :=
  if settings.quotasEnabled && !caller.active then .error invalidCredential else .ok ()

def loadOwned {row : Type} (found : Option row) (ownerOf : row → PrincipalId)
    (principal : PrincipalId) : Except ApiError row :=
  match found.filter (ownerOf · == principal) with
  | none => .error notFound
  | some row => .ok row

def keyReused (message : String) : ApiError :=
  { status := 409, code := "IDEMPOTENCY_KEY_REUSED", message }

/-- `queue.enqueue` as a route sees it. -/
def enqueueOwned (queue : Database π σ ρ) (new : NewJob π) (clock : Clock) :
    Except Refusal (Enqueued × Database π σ ρ) :=
  match enqueue queue new clock with
  | .ok answer => .ok answer
  | .error .crossOwner => .error (.api internalError)
  | .error .duplicateId => .error .integrityError

def chargeOwned (settings : QuotaSettings) (intake : Intake) (owner : PrincipalId)
    (readings : Readings) (amount : Amount) (investigationId : Option Uuid) :
    Except Refusal Intake :=
  match charge settings intake.usage owner readings amount investigationId with
  | .ok usage => .ok { intake with usage }
  | .error refused => .error (.api refused)

def insertInto {row κ : Type} [DecidableEq κ] [Keyed row κ] (table : Table row) (new : row) :
    Except Refusal (Table row) :=
  match table.insert? new with
  | some inserted => .ok inserted
  | none => .error .integrityError

section Create

inductive Source
  | url (url : String)
  | upload (uploadId : Uuid)
  deriving DecidableEq, Repr

/-- A validated `POST /investigations`; `digest` is its `request_hash`. -/
structure CreateCall where
  caller : Caller
  source : Source
  durationMs : Option Nat
  key : String
  digest : String
  now : Time
  readings : Readings
  investigationId : Uuid
  jobId : JobId
  clock : Clock
  deriving DecidableEq, Repr

/-- `_replay` -/
def replayCreate (office : Office π σ ρ β) (ownerId : PrincipalId) (key digest : String) :
    Except ApiError (Nat × β) :=
  match office.idempotencyKeys.find? (ownerId, key) with
  | none => .error internalError
  | some stored =>
      if stored.requestHash ≠ digest then
        .error (keyReused "The Idempotency-Key was already used with a different request body")
      else .ok (stored.responseStatus, stored.responseBody)

def completedUpload (office : Office π σ ρ β) (principal : PrincipalId) :
    Source → Except ApiError Unit
  | .url _ => .ok ()
  | .upload uploadId =>
      match loadOwned (office.uploads.find? uploadId) (·.ownerId) principal with
      | .error refused => .error refused
      | .ok upload =>
          if upload.state ≠ "completed" then
            .error {
              status := 409
              code := "UPLOAD_INCOMPLETE"
              message := "The upload must be completed before it can be investigated" }
          else .ok ()

def createdInvestigation (call : CreateCall) : Investigation where
  id := call.investigationId
  ownerId := call.caller.id
  sourceKind := match call.source with | .url _ => .url | .upload _ => .upload
  sourceUrl := match call.source with | .url url => some url | .upload _ => none
  uploadId := match call.source with | .url _ => none | .upload uploadId => some uploadId
  declaredDurationMs := call.durationMs
  state := "queued"
  stage := "intake"
  createdAt := call.now

variable (settings : AdmissionSettings) (composition : Composition π β)

def createdKey (call : CreateCall) : IdempotencyKey β where
  ownerId := call.caller.id
  key := call.key
  requestHash := call.digest
  investigationId := call.investigationId
  responseStatus := 202
  responseBody := composition.readModel (createdInvestigation call)
  createdAt := call.now

def create (office : Office π σ ρ β) (call : CreateCall) :
    Except Refusal (Outcome (Nat × β) × Office π σ ρ β) := do
  (lockOwner settings.toQuotaSettings call.caller).mapError .api
  if (office.idempotencyKeys.find? (call.caller.id, call.key)).isSome then
    let stored ← (replayCreate office call.caller.id call.key call.digest).mapError .api
    return (.replayed stored, office)
  (completedUpload office call.caller.id call.source).mapError .api
  let intake ← chargeOwned settings.toQuotaSettings office.intake call.caller.id call.readings
    { checks := 1 } none
  let investigations ← insertInto office.investigations (createdInvestigation call)
  let (_, queue) ← enqueueOwned office.queue
    { id := call.jobId
      key := composition.intakeKey call.investigationId
      payload := composition.intakePayload call.investigationId call.caller.id
      ownerId := some call.caller.id } call.clock
  let idempotencyKeys ← insertInto office.idempotencyKeys (createdKey composition call)
  return (.admitted (202, composition.readModel (createdInvestigation call)),
    { office with intake, investigations, queue, idempotencyKeys })

def createInvestigation (office : Office π σ ρ β) (call : CreateCall) :
    Except ApiError (Outcome (Nat × β) × Office π σ ρ β) :=
  if settings.maxSharedDurationSeconds * 1000 < call.durationMs.getD 0 then
    .error {
      status := 422
      code := "DURATION_LIMIT_EXCEEDED"
      message := "Shared media is limited to " ++
        toString (settings.maxSharedDurationSeconds * 1000) ++ " milliseconds" }
  else
    match create settings composition office call with
    | .ok answer => .ok answer
    | .error (.api refused) => .error refused
    | .error .integrityError =>
        (replayCreate office call.caller.id call.key call.digest).map fun stored =>
          (.replayed stored, office)

end Create

section Capture

variable (settings : AdmissionSettings)

/-- A call of `reserve` by an authenticated principal. -/
structure ChunkCall extends ReserveCall where
  active : Bool

/-- `reserve` behind the admission lock. -/
def reserveChunk (office : Office π σ ρ β) (call : ChunkCall) :
    Except ApiError (Outcome Unit × Office π σ ρ β) := do
  lockOwner settings.toQuotaSettings ⟨call.principal, call.active⟩
  let (fresh, intake) ← reserve settings.toCaptureSettings office.intake call.toReserveCall
  return (if fresh then .admitted () else .replayed (), { office with intake })

structure CaptureCall where
  caller : Caller
  key : String
  chunkDurationMs : Nat
  now : Time
  readings : Readings
  identifier : Uuid
  deriving DecidableEq, Repr

def createdCapture (call : CaptureCall) : CaptureSession where
  id := call.identifier
  ownerId := call.caller.id
  requestKey := call.key
  chunkDurationMs := call.chunkDurationMs
  closed := false
  startedAt := call.now
  closedAt := none
  expiresAt := call.now + maxCaptureMs * 1000 + settings.uploadTargetSeconds * 1000000
  continueResearch := none
  durationMs := none

def captureInvestigation (call : CaptureCall) : Investigation where
  id := call.identifier
  ownerId := call.caller.id
  sourceKind := .capture
  sourceUrl := none
  uploadId := none
  declaredDurationMs := none
  state := "queued"
  stage := "media_validation"
  createdAt := call.now

/-- `create_capture`; the answer shows a session without chunks. -/
def createCapture (office : Office π σ ρ β) (call : CaptureCall) :
    Except Refusal (Outcome SessionRead × Office π σ ρ β) := do
  (lockOwner settings.toQuotaSettings call.caller).mapError .api
  match office.intake.sessions.rows.find? fun session =>
      session.ownerId == call.caller.id && session.requestKey == call.key with
  | some session =>
      if session.chunkDurationMs ≠ call.chunkDurationMs then
        throw (.api (keyReused "The key names a different capture request"))
      else
        let answer := sessionResponse session [] session.startedAt
        return (.replayed { answer with abandoned := false, closedAt := none }, office)
  | none =>
      let intake ← chargeOwned settings.toQuotaSettings office.intake call.caller.id call.readings
        { checks := 1 } none
      let investigations ← insertInto office.investigations (captureInvestigation call)
      let sessions ← insertInto office.intake.sessions (createdCapture settings call)
      return (.admitted (sessionResponse (createdCapture settings call) [] call.now),
        { office with intake := { intake with sessions }, investigations })

end Capture

section Upload

variable (settings : AdmissionSettings)

structure UploadCall where
  caller : Caller
  sizeBytes : Nat
  sha256 : String
  contentType : String
  now : Time
  readings : Readings
  uploadId : Uuid
  storageKey : String
  deriving DecidableEq, Repr

def createdUpload (call : UploadCall) : Upload where
  id := call.uploadId
  ownerId := call.caller.id
  state := "pending"
  declaredSizeBytes := call.sizeBytes
  declaredSha256 := call.sha256
  contentType := call.contentType
  maxBytes := settings.uploadMaxBytes
  storageKey := call.storageKey
  expiresAt := call.now + settings.uploadTargetSeconds * 1000000
  createdAt := call.now
  completedAt := none

/-- `create_upload`, which no key repeats. -/
def createUpload (office : Office π σ ρ β) (call : UploadCall) :
    Except Refusal (Outcome Upload × Office π σ ρ β) :=
  if settings.uploadMaxBytes < call.sizeBytes then
    .error (.api {
      status := 413
      code := "UPLOAD_TOO_LARGE"
      message := "Uploads are limited to " ++ toString settings.uploadMaxBytes ++ " bytes" })
  else do
    (lockOwner settings.toQuotaSettings call.caller).mapError .api
    (providerGate settings.toQuotaSettings call.readings).mapError .api
    let intake ← chargeOwned settings.toQuotaSettings office.intake call.caller.id call.readings
      { uploadBytes := call.sizeBytes } none
    let uploads ← insertInto office.uploads (createdUpload settings call)
    return (.admitted (createdUpload settings call), { office with intake, uploads })

end Upload

section Reanalyse

/-- A validated `POST /investigations/{id}/reanalyze`; `digest` is its `request_hash` and
`sourceEnded` tells whether the investigation an expansion names failed or was cancelled. -/
structure ReanalysisCall where
  caller : Caller
  investigationId : Uuid
  body : Reanalysis
  key : String
  digest : String
  sourceEnded : Bool
  readings : Readings
  requestId : Uuid
  reportId : Uuid
  publishedAt : Timestamp
  jobId : JobId
  clock : Clock
  now : Time

def replayReanalysis (office : Office π σ ρ β) (ownerId : PrincipalId) (key digest : String) :
    Except ApiError (Option ReanalysisResponse) :=
  match office.reanalysisRequests.find? (ownerId, key) with
  | none => .ok none
  | some stored =>
      if stored.requestHash ≠ digest then
        .error (keyReused "The Idempotency-Key was already used with a different request")
      else .ok (some stored.response)

def builderError : BuildError → ApiError
  | .apiError status code message => { status, code, message }
  | _ => internalError

/-- `confirmed_source`, with the confirmation that goes before it. -/
def expansionSource (office : Office π σ ρ β) (call : ReanalysisCall) :
    Except ApiError (Option Uuid) := do
  match ← (confirmedSource call.investigationId call.body).mapError builderError with
  | none => return none
  | some sourceId =>
      let source ← loadOwned (office.investigations.find? sourceId) (·.ownerId) call.caller.id
      if source.sourceKind = .capture then
        throw {
          status := 422
          code := "EXPANSION_SOURCE_UNSUPPORTED"
          message := "The full video must be a shared video or upload, not a live capture" }
      if call.sourceEnded then
        throw {
          status := 409
          code := "EXPANSION_SOURCE_UNAVAILABLE"
          message := "The investigation of the full video failed or was cancelled" }
      return some sourceId

def baseReport (office : Office π σ ρ β) (call : ReanalysisCall) :
    Except ApiError ReportVersion :=
  match latestVersion (office.archive call.investigationId) with
  | none =>
      .error {
        status := 409
        code := "REPORT_NOT_AVAILABLE"
        message := "The check has no published report to reanalyse yet" }
  | some latest =>
      if call.body.baseVersion ≠ latest.version then
        .error {
          status := 409
          code := "REPORT_VERSION_STALE"
          message := "Reanalysis must start from the latest report version, " ++
            toString latest.version }
      else .ok latest

variable (settings : AdmissionSettings) (composition : Composition π β)

def requestReanalysis (office : Office π σ ρ β) (call : ReanalysisCall) :
    Except Refusal (Outcome ReanalysisResponse × Office π σ ρ β) := do
  (lockOwner settings.toQuotaSettings call.caller).mapError .api
  let _ ← (loadOwned (office.investigations.find? call.investigationId) (·.ownerId)
    call.caller.id).mapError .api
  match ← (replayReanalysis office call.caller.id call.key call.digest).mapError .api with
  | some stored => return (.replayed stored, office)
  | none =>
      let sourceInvestigationId ← (expansionSource office call).mapError .api
      let latest ← (baseReport office call).mapError .api
      let intake ← chargeOwned settings.toQuotaSettings office.intake call.caller.id call.readings
        { checks := 1 } (some call.investigationId)
      let report ← (World.publishedVersion composition.identify ⟨office.archive, []⟩
        call.investigationId call.reportId call.publishedAt call.body).mapError
          fun error => .api (builderError error)
      let (enqueued, queue) ← enqueueOwned office.queue
        { id := call.jobId
          key := composition.reanalysisKey call.requestId
          payload := composition.reanalysisPayload
            { requestId := call.requestId
              investigationId := call.investigationId
              reason := call.body.reason
              supersedesVersion := (report.map (·.version)).getD latest.version
              claimIds := call.body.pendingClaims
              sourceInvestigationId } call.caller.id
          ownerId := some call.caller.id } call.clock
      let response : ReanalysisResponse :=
        { id := call.requestId
          investigationId := call.investigationId
          reason := call.body.reason
          baseVersion := call.body.baseVersion
          publishedVersion := report.map (·.version)
          sourceInvestigationId
          jobId := enqueued.jobId
          createdAt := call.now }
      let reanalysisRequests ← insertInto office.reanalysisRequests
        ⟨call.caller.id, call.key, call.digest, response⟩
      return (.admitted response,
        { office with
          intake
          queue
          reanalysisRequests
          archive := Evidence.Archive.extend office.archive call.investigationId report })

def reanalyze (office : Office π σ ρ β) (call : ReanalysisCall) :
    Except ApiError (Outcome ReanalysisResponse × Office π σ ρ β) :=
  match requestReanalysis settings composition office call with
  | .ok answer => .ok answer
  | .error (.api refused) => .error refused
  | .error .integrityError =>
      match replayReanalysis office call.caller.id call.key call.digest with
      | .ok (some stored) => .ok (.replayed stored, office)
      | .ok none => .error internalError
      | .error refused => .error refused

end Reanalyse

end Ovrly.Admission
