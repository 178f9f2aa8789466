import Mathlib
import Ovrly.Evidence.Stages
import Ovrly.Jobs.Owned
import Ovrly.Jobs.Workers

/-!
Reanalysis requests and the jobs that work for them (`evidence/stages.py`, `routes/jobs.py`).

A request points at the job that will finish it. Publishing one of its jobs hands it on to a
successor, and cancelling any of them reaches the one it points at. Both lock the request row
before any job; the cancel route reads its job once before that, without a lock.
-/

namespace Ovrly.Receipts

open Relational Ovrly.Jobs
open Ovrly.Reports (Uuid)
open Ovrly.Evidence (StagePayload ReanalysisPayload RetrievalArtifact Reason Result planned
  maxExpansionPolls)

def retrievalStage : String := "retrieval"

def assessmentStage : String := "assessment"

def reanalysisStage : String := "reanalysis"

def evidenceStages : List String := [retrievalStage, assessmentStage, reanalysisStage]

inductive EvidencePayload (δ : Type)
  | reanalysis (payload : ReanalysisPayload) (ownerId : PrincipalId)
  | stage (payload : StagePayload) (ownerId : PrincipalId) (retrievalJobId : Option JobId)
  | other (document : δ)
  deriving DecidableEq

instance {δ : Type} [EmptyCollection δ] : EmptyCollection (EvidencePayload δ) := ⟨.other ∅⟩

/-- A row of `reanalysis_requests`. -/
structure Request where
  id : Uuid
  ownerId : PrincipalId
  jobId : JobId
  deriving DecidableEq, Repr

instance : Keyed Request Uuid := ⟨Request.id⟩

/-- The digests of the stage keys, each of its own text. -/
structure KeyDigests where
  receipt : Uuid → String
  poll : Uuid → Nat → String
  retrieval : StagePayload → String
  assessment : JobId → String

variable {δ σ ρ : Type} (digests : KeyDigests)

def reanalysisKey (requestId : Uuid) (poll : Nat) : StageKey :=
  ⟨1, reanalysisStage,
    if poll = 0 then digests.receipt requestId else digests.poll requestId poll⟩

def retrievalKey (payload : StagePayload) : StageKey :=
  ⟨1, retrievalStage, digests.retrieval payload⟩

def assessmentKey (retrievalJobId : JobId) : StageKey :=
  ⟨1, assessmentStage, digests.assessment retrievalJobId⟩

/-- `reanalysis_request_of` -/
def requestOf (stage : String) : EvidencePayload δ → Option Uuid
  | .reanalysis payload _ => if stage = reanalysisStage then some payload.requestId else none
  | .stage payload _ _ => if stage = reanalysisStage then none else payload.reanalysisRequestId
  | .other _ => none

/-- `expansion_delay`, in microseconds. -/
def expansionDelay (poll : Nat) : Time := (min (30 * 2 ^ poll) 600 : Nat) * 1000000

section Publish

variable [EmptyCollection σ] (queue : Database (EvidencePayload δ) σ Result)
  (job : ClaimedJob (EvidencePayload δ) σ) (result : Result) (jobId : JobId) (clock : Clock)

/-- The retrieval a reanalysis plans, enqueued before the result that names it. -/
def plannedJob : Option (NewJob (EvidencePayload δ)) :=
  match result, job.payload with
  | .retrieval plan, .reanalysis _ ownerId =>
      if job.key.stage = reanalysisStage then
        some ⟨jobId, retrievalKey digests plan, .stage plan ownerId none, some ownerId⟩
      else none
  | _, _ => none

/-- The assessment or the next check, enqueued after the result is published. -/
def followUp : Option (NewJob (EvidencePayload δ)) :=
  match result, job.payload with
  | .artifact artifact, .stage payload ownerId _ =>
      if job.key.stage = retrievalStage ∧ artifact.claims ≠ [] ∧ artifact.superseded = false then
        some ⟨jobId, assessmentKey digests job.lease.jobId,
          .stage payload ownerId (some job.lease.jobId), some ownerId⟩
      else none
  | .waitingForSource poll, .reanalysis payload ownerId =>
      if job.key.stage = reanalysisStage then
        some ⟨jobId, reanalysisKey digests payload.requestId (poll + 1),
          .reanalysis { payload with poll := poll + 1 } ownerId, some ownerId⟩
      else none
  | _, _ => none

def delayed (poll : Nat) (clock : Clock) (row : Job (EvidencePayload δ) σ) :
    Job (EvidencePayload δ) σ :=
  { row with availableAt := clock.now + expansionDelay poll }

omit [EmptyCollection σ] in
@[simp] theorem delayed_id (poll : Nat) (clock : Clock) (row : Job (EvidencePayload δ) σ) :
    (delayed poll clock row).id = row.id := rfl

omit [EmptyCollection σ] in
def delayFollowUp (enqueued : Enqueued) : Database (EvidencePayload δ) σ Result :=
  match result with
  | .waitingForSource poll =>
      if enqueued.created then
        { queue with
          jobs := queue.jobs.update (·.id == enqueued.jobId) (delayed poll clock)
            (delayed_id poll clock) }
      else queue
  | _ => queue

def enqueueOption (new : Option (NewJob (EvidencePayload δ))) :
    Except EnqueueError (Option Enqueued × Database (EvidencePayload δ) σ Result) :=
  match new with
  | none => .ok (none, queue)
  | some new => (enqueue queue new clock).map fun answer => (some answer.1, answer.2)

def repointed (successor : JobId) (request : Request) : Request :=
  { request with jobId := successor }

theorem repointed_key (successor : JobId) (request : Request) :
    Keyed.key (repointed successor request) = Keyed.key request := rfl

def repoint (requests : Table Request) (requestId : Option Uuid) (successor : Option Enqueued) :
    Table Request :=
  match requestId, successor with
  | some requestId, some enqueued =>
      requests.update (·.id == requestId) (repointed enqueued.jobId)
        (repointed_key enqueued.jobId)
  | _, _ => requests

structure Office (δ σ : Type) where
  requests : Table Request := .empty
  queue : Database (EvidencePayload δ) σ Result := .empty

def publishEvidenceStage (office : Office δ σ) :
    Except PublishError (PublishedResult Result) × Office δ σ :=
  match enqueueOption office.queue clock (plannedJob digests job result jobId) with
  | .error _ => (.error .raised, office)
  | .ok (plan, planning) =>
      match publish planning job.lease result [] {} clock with
      | (.error error, _) => (.error error, office)
      | (.ok published, middle) =>
          match enqueueOption middle clock (followUp digests job result jobId) with
          | .error _ => (.error .raised, office)
          | .ok (followed, next) =>
              let queue := followed.elim next (delayFollowUp next result clock)
              (.ok published,
                { requests := repoint office.requests (requestOf job.key.stage job.payload)
                    (followed.or plan)
                  queue })

/-- `request_reanalysis`: a request with the job that works for it first. -/
def requestReanalysis (office : Office δ σ) (payload : ReanalysisPayload)
    (principal : PrincipalId) : Office δ σ :=
  let first := { payload with poll := 0 }
  match enqueue office.queue
      ⟨jobId, reanalysisKey digests payload.requestId 0, .reanalysis first principal,
        some principal⟩ clock with
  | .error _ => office
  | .ok (enqueued, queue) =>
      match office.requests.insert? ⟨payload.requestId, principal, enqueued.jobId⟩ with
      | none => office
      | some requests => { requests, queue }

end Publish

section Cancel

/-- `_lock_request`: the job the request points at now. -/
def lockRequest (requests : Table Request) (row : Job (EvidencePayload δ) σ) : Option JobId :=
  match requestOf row.key.stage row.payload with
  | none => none
  | some requestId =>
      ((requests.find? requestId).filter fun request =>
        row.ownerId == some request.ownerId).map Request.jobId

/-- `cancel_owned_job` from its lock on; `none` is the 404. `peek` is the row as it was read
before, without a lock. -/
def cancelOwnedJob (office : Office δ σ) (peek : Job (EvidencePayload δ) σ)
    (principal : PrincipalId) (clock : Clock) : Option (CancelOutcome × Office δ σ) :=
  (cancelLoaded office.queue (lockRequest office.requests peek) peek.id principal clock).map
    fun answer => (answer.1, { office with queue := answer.2 })

end Cancel

end Ovrly.Receipts
