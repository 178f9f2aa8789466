import Ovrly.Shares.LocalJobs

/-!
One recorded share on its way to the server (`share/ShareIntakeController.kt`, `share/ShareKeys.kt`
and `Reconciler` of `data/Reconciler.kt` of the Android app).

The sheet tries as long as it is open and keeps its attempt in memory; after its process died the
reconciler retries from the stored record. A run can be cut off between any two of its writes,
deletions and calls, and what the server did for a call may not be heard of. The server answers a
repeated idempotency key with the investigation of its first request. A sheet that is dismissed,
closed or given another share deletes the copy at once and the row in the background.
-/

namespace Ovrly.Shares.Recovery

inductive ShareCandidate
  | link (url : String)
  | video
  deriving DecidableEq, Repr

inductive InvestigationSource
  | url (url : String)
  | upload (uploadId : String)
  deriving DecidableEq, Repr

/-- What an attempt has achieved on the server so far. -/
structure UploadAttempt where
  declared : Option String := none
  uploadId : Option String := none
  deriving DecidableEq, Repr

structure ShareRecord where
  state : LocalJobState
  idempotencyKey : String
  stagedPath : Option String
  declaredUpload : Option String := none
  uploadId : Option String := none
  serverId : Option String := none
  deriving DecidableEq, Repr

namespace ShareRecord

/-- `LocalJobs.apply`: a transition that is not allowed leaves the row as it was. -/
def apply (record : ShareRecord) (event : JobEvent) (change : ShareRecord → ShareRecord) :
    ShareRecord :=
  match record.state.next event with
  | none => record
  | some next => { change record with state := next }

def withAttempt (attempt : UploadAttempt) (record : ShareRecord) : ShareRecord :=
  { record with declaredUpload := attempt.declared, uploadId := attempt.uploadId }

def attempt (record : ShareRecord) : UploadAttempt := ⟨record.declaredUpload, record.uploadId⟩

def recordStop (record : ShareRecord) (attempt : UploadAttempt) (retryable : Bool) : ShareRecord :=
  record.apply (if retryable then .uploadInterrupted else .unrecoverable) (withAttempt attempt)

def accepted (record : ShareRecord) (id : String) (status : ProcessingStatus) : ShareRecord :=
  record.apply (.accepted status) fun record =>
    { record with serverId := some id, stagedPath := none, declaredUpload := none }

end ShareRecord

inductive Request
  | declare
  | put (uploadId : String)
  | complete (uploadId : String)
  | create (key : String) (source : InvestigationSource)
  deriving DecidableEq, Repr

/-- What a call comes back with. `lost` is an answer that was not heard or could not be read, to a
request that the server carried out. -/
inductive Answer
  | declared (id : String)
  | stored
  | completed (isCompleted : Bool)
  | missing
  | expired
  | created (id : String) (status : ProcessingStatus)
  | lost (id : String) (retryable : Bool)
  | failed (retryable : Bool)
  deriving DecidableEq, Repr

inductive Driver
  | intake
  | reconciler
  deriving DecidableEq, Repr

structure Run where
  driver : Driver
  key : String
  attempt : UploadAttempt
  deriving DecidableEq, Repr

/-- Where a run is: behind a write, a deletion or a call, and before the next. -/
inductive Position
  | idle
  | retrying (run : Run)
  | uploading (run : Run)
  | resuming (run : Run) (uploadId : String)
  | dropping (run : Run)
  | declaring (run : Run)
  | declared (run : Run) (uploadId : String)
  | targeted (run : Run) (uploadId : String)
  | sending (run : Run) (uploadId : String)
  | completing (run : Run) (uploadId : String)
  | completed (run : Run)
  | creating (run : Run) (source : InvestigationSource)
  | answered (run : Run) (id : String) (status : ProcessingStatus)
  | recorded
  | deleted (id : String) (status : ProcessingStatus)
  | stopping (run : Run) (retryable : Bool)
  deriving DecidableEq, Repr

structure Created where
  key : String
  source : InvestigationSource
  id : String
  deriving DecidableEq, Repr

/-- The sheet of the share while it is open. -/
structure Sheet where
  key : String
  attempt : UploadAttempt
  deriving DecidableEq, Repr

/-- What a dismissal did to the row: it is about to be deleted, and the reconciler leaves it alone;
it was deleted; or it stays, as an accepted one or because the process died first. -/
inductive Dismissal
  | never
  | abandoning
  | abandoned
  | kept
  deriving DecidableEq, Repr

def Dismissal.holds : Dismissal → Bool
  | .abandoning | .abandoned => true
  | .never | .kept => false

/-- The share, its staged copy, the run at work, what was requested so far, the uploads that the
server said to be gone, and the server's investigations of this share. -/
structure Device where
  candidate : ShareCandidate
  record : ShareRecord
  file : Bool
  sheet : Option Sheet
  position : Position := .idle
  dismissal : Dismissal := .never
  requests : List Request := []
  gone : List String := []
  created : List Created := []
  deriving DecidableEq, Repr

namespace Device

def goto (device : Device) (position : Position) : Device := { device with position := position }

def request (device : Device) (request : Request) (position : Position) : Device :=
  { device with requests := device.requests ++ [request], position := position }

/-- `recordAttempt`, before the next call. -/
def persist (device : Device) (run : Run) (position : Position) : Device :=
  { device with record := device.record.withAttempt run.attempt, position := position }

def stopping (device : Device) (run : Run) (retryable : Bool) : Device :=
  device.goto (.stopping run retryable)

def startUpload (device : Device) (run : Run) : Device :=
  match device.candidate with
  | .link _ => device.goto (.uploading run)
  | .video =>
      { device with
        record := device.record.apply .uploadStarted id
        position := .uploading run }

/-- `proceed` of the sheet that is open. -/
def proceed (device : Device) : Device :=
  match device.position, device.sheet with
  | .idle, some sheet => device.startUpload ⟨.intake, sheet.key, sheet.attempt⟩
  | _, _ => device

/-- `reset`: the run is cancelled, the copy deleted and the row left to the background. -/
def reset (device : Device) : Device :=
  match device.sheet with
  | none => device
  | some _ =>
      { device with
        file := false
        sheet := none
        position := .idle
        dismissal := .abandoning }

def abandon (device : Device) : Device :=
  match device.dismissal with
  | .abandoning =>
      { device with
        dismissal := if device.record.serverId.isNone then .abandoned else .kept }
  | _ => device

/-- `retry` of a share that no sheet handles. -/
def retry (device : Device) : Device :=
  match device.position, device.sheet with
  | .idle, none =>
      if device.record.state.isAccepted || device.dismissal.holds then device
      else
        let record := if device.record.state = .uploading then
            device.record.apply .uploadInterrupted id
          else device.record
        { device with
          record := record
          position := .retrying ⟨.reconciler, device.record.idempotencyKey, device.record.attempt⟩ }
  | _, _ => device

/-- `stagedFile`: the copy that the row names, if it is there. -/
def stagedFile (device : Device) : Bool := device.record.stagedPath.isSome && device.file

/-- `IntakeUploader.upload` and `createInvestigation` up to the first call. -/
def upload (device : Device) (run : Run) : Device :=
  match device.candidate, run.attempt.uploadId, run.attempt.declared with
  | .link url, _, _ => device.request (.create run.key (.url url)) (.creating run (.url url))
  | .video, some id, _ =>
      device.request (.create run.key (.upload id)) (.creating run (.upload id))
  | .video, none, some id => device.request (.complete id) (.resuming run id)
  | .video, none, none => device.request .declare (.declaring run)

/-- The run goes on by itself where it does not wait for the server. -/
def next (device : Device) : Device :=
  match device.position with
  | .retrying run =>
      if device.candidate = .video ∧ device.stagedFile = false then device.stopping run false
      else device.startUpload run
  | .uploading run => device.upload run
  | .dropping run => device.persist run (.uploading run)
  | .declared run id => device.persist run (.targeted run id)
  | .targeted run id => device.request (.put id) (.sending run id)
  | .completed run => device.persist run (.uploading run)
  | .answered run id status =>
      match run.driver with
      | .intake =>
          { device with record := device.record.accepted id status, position := .recorded }
      | .reconciler => { device with file := false, position := .deleted id status }
  | .recorded => { device with file := false, sheet := none, position := .idle }
  | .deleted id status =>
      { device with record := device.record.accepted id status, position := .idle }
  | .stopping run retryable =>
      { device with
        record := device.record.recordStop run.attempt retryable
        sheet := match run.driver with
          | .intake => some ⟨run.key, run.attempt⟩
          | .reconciler => none
        position := .idle }
  | _ => device

/-- The server carries out a create request: its investigation, unless the key was used for
another source. -/
def createInvestigation (device : Device) (key : String) (source : InvestigationSource)
    (id : String) : Option String × Device :=
  match device.created.find? (·.key == key) with
  | some created => (if created.source = source then some created.id else none, device)
  | none => (some id, { device with created := device.created ++ [⟨key, source, id⟩] })

def answer (device : Device) (answer : Answer) : Device :=
  match device.position, answer with
  | .resuming run id, .completed true =>
      device.goto (.completed { run with attempt := { run.attempt with uploadId := some id } })
  | .resuming run _, .completed false => device.stopping run false
  | .resuming run id, .missing => device.request (.put id) (.sending run id)
  | .resuming run id, .expired =>
      { device with
        gone := device.gone ++ [id]
        position := .dropping { run with attempt := { run.attempt with declared := none } } }
  | .resuming run _, .failed retryable => device.stopping run retryable
  | .declaring run, .declared id =>
      device.goto (.declared { run with attempt := { run.attempt with declared := some id } } id)
  | .declaring run, .failed retryable => device.stopping run retryable
  | .sending run id, .stored => device.request (.complete id) (.completing run id)
  | .sending run _, .failed retryable => device.stopping run retryable
  | .completing run id, .completed true =>
      device.goto (.completed { run with attempt := { run.attempt with uploadId := some id } })
  | .completing run _, .completed false => device.stopping run false
  | .completing run _, .failed retryable => device.stopping run retryable
  | .creating run source, .created id status =>
      match device.createInvestigation run.key source id with
      | (some id, device) => device.goto (.answered run id status)
      | (none, device) => device.stopping run false
  | .creating run source, .lost id retryable =>
      (device.createInvestigation run.key source id).2.stopping run retryable
  | .creating run _, .failed retryable => device.stopping run retryable
  | _, _ => device

end Device

inductive Event
  | proceed
  | retry
  | next
  | answer (answer : Answer)
  | dismissed
  | abandon
  | died
  deriving DecidableEq, Repr

namespace Device

/-- What the process held in memory is lost. -/
def die (device : Device) : Device :=
  { device with
    sheet := none
    position := .idle
    dismissal := if device.dismissal = .abandoning then .kept else device.dismissal }

def step (device : Device) : Event → Device
  | .proceed => device.proceed
  | .retry => device.retry
  | .next => device.next
  | .answer answer => device.answer answer
  | .dismissed => device.reset
  | .abandon => device.abandon
  | .died => device.die

def shared (candidate : ShareCandidate) (key path : String) : Device where
  candidate := candidate
  record := {
    state := .localPending
    idempotencyKey := key
    stagedPath := match candidate with
      | .link _ => none
      | .video => some path }
  file := candidate = .video
  sheet := some ⟨key, {}⟩

end Device

end Ovrly.Shares.Recovery
