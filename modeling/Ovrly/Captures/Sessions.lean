import Ovrly.Admission.Quotas

/-!
Capture sessions (`routes/captures.py`, `services/captures.py`).

A chunk is reserved in one transaction and stored in another, each under the lock of its
session's row. The interval of a chunk lies in the cell of the grid that its sequence number
names, and the server works the grid out again for what is missing.
-/

namespace Ovrly.Captures

open Relational Ovrly.Jobs Ovrly.Reports Ovrly.Admission

def maxCaptureMs : Nat := 180000

inductive Modality
  | speech
  | text
  | both
  deriving DecidableEq, Repr

structure CaptureSession where
  id : Uuid
  ownerId : PrincipalId
  requestKey : String
  chunkDurationMs : Nat
  closed : Bool
  startedAt : Time
  closedAt : Option Time
  expiresAt : Time
  continueResearch : Option Bool
  durationMs : Option Nat
  deriving DecidableEq, Repr

structure CaptureChunk where
  sessionId : Uuid
  seq : Nat
  endMs : Nat
  sizeBytes : Nat
  sha256 : String
  contentType : String
  modality : Modality
  storageKey : String
  receivedAt : Option Time
  jobId : Option JobId
  deriving DecidableEq, Repr

instance : Keyed CaptureSession Uuid := ⟨CaptureSession.id⟩
instance : Keyed CaptureChunk (Uuid × Nat) := ⟨fun chunk => (chunk.sessionId, chunk.seq)⟩

/-- A validated `CaptureInterval`. -/
structure Interval where
  startMs : Nat
  endMs : Nat
  ordered : startMs < endMs
  deriving Repr

/-- A validated `CaptureMetadata`. -/
structure CaptureMetadata where
  sessionId : Uuid
  seq : Nat
  interval : Interval
  sizeBytes : Nat
  sha256 : String
  contentType : String
  modality : Modality

structure Intake where
  sessions : Table CaptureSession
  chunks : Table CaptureChunk
  usage : Table QuotaUsage

def invalid (code message : String) (status : Nat := 409) : ApiError :=
  { status, code, message }

def Intake.chunksFor (captures : Intake) (captureId : Uuid) : List CaptureChunk :=
  (captures.chunks.rows.filter (·.sessionId == captureId)).mergeSort fun first second =>
    first.seq ≤ second.seq

def Intake.loadOwned (captures : Intake) (captureId : Uuid) (principal : PrincipalId) :
    Except ApiError CaptureSession :=
  match (captures.sessions.find? captureId).filter (·.ownerId == principal) with
  | none => .error notFound
  | some session => .ok session

def isReceived (chunk : CaptureChunk) : Bool := chunk.receivedAt.isSome

def requireOpen (session : CaptureSession) (now : Time) : Except ApiError Unit :=
  if session.closed then
    .error (invalid "CAPTURE_CLOSED" "New chunks are not accepted after close")
  else if session.expiresAt ≤ now then
    .error (invalid "CAPTURE_EXPIRED" "The capture upload window has expired" 410)
  else .ok ()

section Reserve

/-- The interval is the cell of the sequence number, or the start of it. -/
def onGrid (session : CaptureSession) (seq : Nat) (interval : Interval) : Bool :=
  let start := seq * session.chunkDurationMs
  interval.startMs == start && interval.endMs ≤ min (start + session.chunkDurationMs) maxCaptureMs

def sameContent (chunk : CaptureChunk) (metadata : CaptureMetadata) : Bool :=
  chunk.endMs == metadata.interval.endMs && chunk.sizeBytes == metadata.sizeBytes &&
    chunk.sha256 == metadata.sha256 && chunk.contentType == metadata.contentType &&
    chunk.modality == metadata.modality

def shortEnd (session : CaptureSession) (seq endMs : Nat) : Bool :=
  endMs < (seq + 1) * session.chunkDurationMs

def breaksGrid (session : CaptureSession) (chunks : List CaptureChunk) (seq endMs : Nat) : Bool :=
  chunks.any fun chunk =>
    (chunk.seq < seq && shortEnd session chunk.seq chunk.endMs) ||
      (seq < chunk.seq && shortEnd session seq endMs)

def totalBytes (chunks : List CaptureChunk) : Nat := (chunks.map (·.sizeBytes)).sum

/-- `reserve` up to its charge: nothing is left to do, or a chunk may be reserved. -/
def reservable (session : CaptureSession) (chunks : List CaptureChunk) (uploadMaxBytes : Nat)
    (captureId : Uuid) (seq : Nat) (metadata : CaptureMetadata) (now : Time) :
    Except ApiError Bool := do
  if metadata.sessionId ≠ captureId ∨ metadata.seq ≠ seq then
    throw (invalid "VALIDATION_FAILED" "Chunk identifiers must match the path" 422)
  if !onGrid session seq metadata.interval then
    throw (invalid "VALIDATION_FAILED" "Chunk interval does not match its sequence" 422)
  let existing := chunks.find? (·.seq == seq)
  if existing.any fun chunk => !sameContent chunk metadata then
    throw (invalid "CAPTURE_CHUNK_CONFLICT" "The sequence has different content")
  if existing.any isReceived then return false
  requireOpen session now
  if existing.isSome then return false
  if breaksGrid session chunks seq metadata.interval.endMs then
    throw (invalid "CAPTURE_FINAL_CHUNK" "A short chunk must be the final sequence")
  if totalBytes chunks + metadata.sizeBytes > uploadMaxBytes then
    throw (invalid "CAPTURE_TOO_LARGE" "Capture byte limit exceeded" 413)
  return true

def reservedChunk (captureId : Uuid) (seq : Nat) (metadata : CaptureMetadata)
    (storageKey : String) : CaptureChunk where
  sessionId := captureId
  seq := seq
  endMs := metadata.interval.endMs
  sizeBytes := metadata.sizeBytes
  sha256 := metadata.sha256
  contentType := metadata.contentType
  modality := metadata.modality
  storageKey := storageKey
  receivedAt := none
  jobId := none

structure CaptureSettings extends QuotaSettings where
  uploadMaxBytes : Nat
  deriving DecidableEq, Repr

/-- A call of `reserve`; `uuid4().hex` supplies the storage key. -/
structure ReserveCall where
  captureId : Uuid
  seq : Nat
  principal : PrincipalId
  metadata : CaptureMetadata
  now : Time
  readings : Readings
  storageKey : String

/-- Reserves a chunk and charges its bytes; the answer tells whether it was new. -/
def reserve (settings : CaptureSettings) (captures : Intake) (call : ReserveCall) :
    Except ApiError (Bool × Intake) := do
  let session ← captures.loadOwned call.captureId call.principal
  let fresh ← reservable session (captures.chunksFor call.captureId) settings.uploadMaxBytes
    call.captureId call.seq call.metadata call.now
  if !fresh then return (false, captures)
  let usage ← charge settings.toQuotaSettings captures.usage call.principal call.readings
    { uploadBytes := call.metadata.sizeBytes } none
  match captures.chunks.insert?
      (reservedChunk call.captureId call.seq call.metadata call.storageKey) with
  | none => throw internalError
  | some chunks => return (true, { captures with chunks, usage })

end Reserve

section Gaps

structure SeqRange where
  fromSeq : Nat
  toSeq : Nat
  deriving DecidableEq, Repr

/-- The loop of `gaps` from the first sequence number not yet seen. -/
def gapsFrom (expected : Nat) : List Nat → List SeqRange
  | [] => []
  | seq :: rest =>
      (if expected < seq then [⟨expected, seq - 1⟩] else []) ++ gapsFrom (seq + 1) rest

def gaps (sequences : List Nat) : List SeqRange :=
  gapsFrom 0 (sequences.mergeSort fun first second => first ≤ second)

end Gaps

section Put

variable {π σ ρ : Type} [EmptyCollection σ]

inductive Disposition
  | stored
  | duplicate
  | outOfOrder
  deriving DecidableEq, Repr

structure ChunkRead where
  sessionId : Uuid
  seq : Nat
  startMs : Nat
  endMs : Nat
  sizeBytes : Nat
  sha256 : String
  disposition : Disposition
  receivedAt : Option Time
  gaps : List SeqRange
  deriving DecidableEq, Repr

/-- The second transaction of `put_chunk`. `uuid4()` supplies the id of the validation job and
`written` tells whether the store took the bytes. -/
structure StoreCall where
  captureId : Uuid
  seq : Nat
  principal : PrincipalId
  written : Bool
  now : Time
  writtenAt : Time
  jobId : JobId
  clock : Clock

/-- The stage key and the payload of the validation of a chunk: the digest in the key tells the
chunks apart. -/
structure Validation (π : Type) where
  key : Uuid → Nat → StageKey
  payload : Uuid → Nat → π
  injective : ∀ {captureId otherId seq otherSeq}, key captureId seq = key otherId otherSeq →
    captureId = otherId ∧ seq = otherSeq

def receivedChunk (now : Time) (jobId : JobId) (chunk : CaptureChunk) : CaptureChunk :=
  { chunk with receivedAt := some now, jobId := some jobId }

theorem receivedChunk_key (now : Time) (jobId : JobId) (chunk : CaptureChunk) :
    (Keyed.key (receivedChunk now jobId chunk) : Uuid × Nat) = Keyed.key chunk := rfl

def sequencesOf (chunks : List CaptureChunk) : List Nat := (chunks.filter isReceived).map (·.seq)

def acknowledged (session : CaptureSession) (stored : CaptureChunk) (disposition : Disposition)
    (received : List Nat) : ChunkRead where
  sessionId := stored.sessionId
  seq := stored.seq
  startMs := stored.seq * session.chunkDurationMs
  endMs := stored.endMs
  sizeBytes := stored.sizeBytes
  sha256 := stored.sha256
  disposition := disposition
  receivedAt := stored.receivedAt
  gaps := gaps received

def store (validation : Validation π) (captures : Intake) (queue : Database π σ ρ)
    (call : StoreCall) : Except ApiError (ChunkRead × Intake × Database π σ ρ) := do
  let session ← captures.loadOwned call.captureId call.principal
  let chunks := captures.chunksFor call.captureId
  match chunks.find? (·.seq == call.seq) with
  | none =>
      requireOpen session call.now
      throw (invalid "CAPTURE_CHUNK_CONFLICT" "The chunk reservation no longer exists")
  | some stored =>
      let received := sequencesOf chunks
      if isReceived stored then
        return (acknowledged session stored .duplicate received, captures, queue)
      requireOpen session call.now
      if !call.written then throw internalError
      requireOpen session call.writtenAt
      match enqueue queue
          { id := call.jobId
            key := validation.key call.captureId call.seq
            payload := validation.payload call.captureId call.seq
            ownerId := some call.principal } call.clock with
      | .error _ => throw internalError
      | .ok (queued, next) =>
          let disposition :=
            if call.seq = received.length ∧ gaps received = [] then .stored else .outOfOrder
          return (acknowledged session (receivedChunk call.writtenAt queued.jobId stored)
              disposition (received ++ [call.seq]),
            { captures with
              chunks := captures.chunks.update
                (fun chunk => chunk.sessionId == call.captureId && chunk.seq == call.seq)
                (receivedChunk call.writtenAt queued.jobId)
                (receivedChunk_key call.writtenAt queued.jobId) },
            next)

end Put

section Close

variable {π σ ρ : Type}

/-- A validated `CaptureCloseRequest`, and what the close reads of the jobs: those of the
capture, which a stop cancels. -/
structure CloseCall where
  captureId : Uuid
  principal : PrincipalId
  continueResearch : Bool
  durationMs : Option Nat
  now : Time
  captureJobs : List JobId
  clock : Clock

def closedSession (now : Time) (durationMs : Nat) (continueResearch : Bool)
    (session : CaptureSession) : CaptureSession :=
  { session with
    closed := true
    closedAt := some now
    durationMs := some durationMs
    continueResearch := some continueResearch }

theorem closedSession_key (now : Time) (durationMs : Nat) (continueResearch : Bool)
    (session : CaptureSession) :
    (Keyed.key (closedSession now durationMs continueResearch session) : Uuid) =
      Keyed.key session := rfl

def latestEnd (chunks : List CaptureChunk) : Nat := (chunks.map (·.endMs)).foldl max 0

def requestCancelAll (queue : Database π σ ρ) (clock : Clock) (identifiers : List JobId) :
    Database π σ ρ :=
  identifiers.foldl (fun current jobId => (requestCancel current jobId clock).2) queue

def closable (session : CaptureSession) (received : List CaptureChunk) (duration : Nat) :
    Except ApiError Unit :=
  if received.any fun chunk => duration < chunk.endMs then
    .error (invalid "VALIDATION_FAILED" "Duration cannot truncate received chunks" 422)
  else if received.any fun chunk =>
      shortEnd session chunk.seq chunk.endMs && chunk.endMs != duration then
    .error (invalid "CAPTURE_FINAL_CHUNK" "Duration must end with the short final chunk")
  else .ok ()

def closeCapture (captures : Intake) (queue : Database π σ ρ) (call : CloseCall) :
    Except ApiError (Intake × Database π σ ρ) := do
  let session ← captures.loadOwned call.captureId call.principal
  let received := (captures.chunksFor call.captureId).filter isReceived
  let duration := call.durationMs.getD (latestEnd received)
  if session.closed then
    if session.continueResearch ≠ some call.continueResearch ∨
        session.durationMs ≠ some duration then
      throw (invalid "CAPTURE_CLOSE_CONFLICT" "The capture already has a different close")
    return (captures, queue)
  closable session received duration
  return ({ captures with
      sessions := captures.sessions.update (·.id == call.captureId)
        (closedSession call.now duration call.continueResearch)
        (closedSession_key call.now duration call.continueResearch) },
    if call.continueResearch then queue else requestCancelAll queue call.clock call.captureJobs)

end Close

section Manifest

structure Span where
  startMs : Nat
  endMs : Nat
  deriving DecidableEq, Repr

structure CaptureManifest where
  durationMs : Nat
  missingIntervals : List Span
  speech : List Span
  text : List Span
  deriving DecidableEq, Repr

def spanOf (session : CaptureSession) (chunk : CaptureChunk) : Span :=
  ⟨chunk.seq * session.chunkDurationMs, chunk.endMs⟩

/-- The loop of `manifest`, from where the received chunks end so far. -/
def missingFrom (session : CaptureSession) (duration reached : Nat) :
    List CaptureChunk → List Span
  | [] => if reached < duration then [⟨reached, duration⟩] else []
  | chunk :: rest =>
      let start := chunk.seq * session.chunkDurationMs
      (if reached < start then [⟨reached, start⟩] else []) ++
        missingFrom session duration chunk.endMs rest

def receivedInOrder (chunks : List CaptureChunk) : List CaptureChunk :=
  (chunks.filter isReceived).mergeSort fun first second => first.seq ≤ second.seq

def manifest (session : CaptureSession) (chunks : List CaptureChunk) : CaptureManifest :=
  let received := receivedInOrder chunks
  let duration := session.durationMs.getD (latestEnd received)
  { durationMs := duration
    missingIntervals := missingFrom session duration 0 received
    speech := (received.filter fun chunk => chunk.modality != .text).map (spanOf session)
    text := (received.filter fun chunk => chunk.modality != .speech).map (spanOf session) }

structure SessionRead where
  abandoned : Bool
  closedAt : Option Time
  chunksReceived : Nat
  highestSeq : Option Nat
  receivedMs : Int
  gaps : List SeqRange
  deriving DecidableEq, Repr

def sessionResponse (session : CaptureSession) (chunks : List CaptureChunk) (now : Time) :
    SessionRead :=
  let received := chunks.filter isReceived
  let expired := !session.closed && session.expiresAt ≤ now
  { abandoned := expired
    closedAt := if expired then some session.expiresAt else session.closedAt
    chunksReceived := received.length
    highestSeq := (received.map (·.seq)).max?
    receivedMs := (received.map fun chunk =>
      (chunk.endMs : Int) - (chunk.seq * session.chunkDurationMs : Nat)).sum
    gaps := gaps (received.map (·.seq)) }

end Manifest

end Ovrly.Captures
