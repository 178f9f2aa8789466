import Ovrly.Jobs.Queue
import Ovrly.Runs

/-!
The queue as a system: every method call is one step, taken at any clock reading and with any
lease value a worker may still hold. One lemma says all a call can do to the row of a job.
-/

namespace Ovrly.Jobs

open Relational

variable {π σ ρ : Type}

inductive Call (π σ ρ : Type)
  | enqueue (new : NewJob π)
  | claim (workerId : String) (stages : List String) (leaseSeconds : Time) (locked : JobId → Bool)
  | start (lease : Lease)
  | heartbeat (lease : Lease) (leaseSeconds : Time)
  | saveStageData (lease : Lease) (data : σ)
  | publish (lease : Lease) (result : ρ) (successors : List (NewJob π)) (onPublish : OnPublish π)
  | fail (lease : Lease) (reason : String) (retryClass : Option RetryClass)
  | retry (lease : Lease) (retryClass : RetryClass) (delaySeconds : Time)
  | recordRequestId (lease : Lease) (requestId : String)
  | release (lease : Lease)
  | cancel (lease : Lease)
  | requestCancel (jobId : JobId)
  | delete (jobId : JobId)

def Call.lease? : Call π σ ρ → Option Lease
  | .start lease | .heartbeat lease _ | .saveStageData lease _ | .publish lease _ _ _
  | .fail lease _ _ | .retry lease _ _ | .recordRequestId lease _ | .release lease
  | .cancel lease => some lease
  | .enqueue _ | .claim _ _ _ _ | .requestCancel _ | .delete _ => none

inductive Answer (π σ ρ : Type)
  | enqueued (answer : Except EnqueueError Enqueued)
  | claimed (answer : Option (ClaimedJob π σ))
  | done (answer : Bool)
  | beat (answer : Except LeaseLost Bool)
  | saved (answer : Except LeaseLost Unit)
  | published (answer : Except PublishError (PublishedResult ρ))
  | outcome (answer : CancelOutcome)

variable [EmptyCollection π] [EmptyCollection σ]

def perform (db : Database π σ ρ) (clock : Clock) : Call π σ ρ → Answer π σ ρ × Database π σ ρ
  | .enqueue new =>
      match enqueue db new clock with
      | .error refused => (.enqueued (.error refused), db)
      | .ok (answer, next) => (.enqueued (.ok answer), next)
  | .claim workerId stages leaseSeconds locked =>
      let claimed := claim db workerId stages leaseSeconds locked clock
      (.claimed claimed.1, claimed.2)
  | .start lease => let done := start db lease clock; (.done done.1, done.2)
  | .heartbeat lease leaseSeconds =>
      let beat := heartbeat db lease leaseSeconds clock
      (.beat beat.1, beat.2)
  | .saveStageData lease data =>
      let saved := saveStageData db lease data clock
      (.saved saved.1, saved.2)
  | .publish lease result successors onPublish =>
      let published := publish db lease result successors onPublish clock
      (.published published.1, published.2)
  | .fail lease reason retryClass =>
      let done := fail db lease reason retryClass clock
      (.done done.1, done.2)
  | .retry lease retryClass delaySeconds =>
      let done := retry db lease retryClass delaySeconds clock
      (.done done.1, done.2)
  | .recordRequestId lease requestId =>
      let saved := recordRequestId db lease requestId clock
      (.saved saved.1, saved.2)
  | .release lease => let done := release db lease clock; (.done done.1, done.2)
  | .cancel lease => let done := cancel db lease clock; (.done done.1, done.2)
  | .requestCancel jobId =>
      let outcome := requestCancel db jobId clock
      (.outcome outcome.1, outcome.2)
  | .delete jobId => let done := delete db jobId clock; (.done done.1, done.2)

def step (db : Database π σ ρ) (call : Clock × Call π σ ρ) : Database π σ ρ :=
  (perform db call.1 call.2).2

/-- The row as `claim` finds it once overdue leases have been expired. -/
def settled (clock : Clock) (job : Job π σ) : Job π σ :=
  if overdue clock job then expire clock job else job

omit [EmptyCollection π] [EmptyCollection σ] in
@[simp] theorem settled_id (clock : Clock) (job : Job π σ) : (settled clock job).id = job.id := by
  simp only [settled]
  split <;> rfl

omit [EmptyCollection π] [EmptyCollection σ] in
@[simp] theorem settled_fencingToken (clock : Clock) (job : Job π σ) :
    (settled clock job).fencingToken = job.fencingToken := by
  simp only [settled]
  split <;> rfl

/-- All a call can do to the row of an existing job. -/
inductive RowStep (clock : Clock) : Call π σ ρ → Job π σ → Job π σ → Prop
  | kept {call job} : RowStep clock call job job
  | expired {workerId stages leaseSeconds locked job} : overdue clock job = true →
      RowStep clock (.claim workerId stages leaseSeconds locked) job (expire clock job)
  | claimed {workerId stages leaseSeconds locked job} : (settled clock job).state = .queued →
      RowStep clock (.claim workerId stages leaseSeconds locked) job
        (leaseTo workerId leaseSeconds clock (settled clock job))
  | started {lease job} : owned lease job = true → job.state = .leased →
      job.cancelRequested = false → RowStep clock (.start lease) job (started clock job)
  | extended {lease leaseSeconds job} : owned lease job = true → job.state.isLeased = true →
      RowStep clock (.heartbeat lease leaseSeconds) job (extended leaseSeconds clock job)
  | saved {lease data job} : active lease clock job = true →
      RowStep clock (.saveStageData lease data) job (saved data clock job)
  | published {lease result successors onPublish job} : active lease clock job = true →
      RowStep clock (.publish lease result successors onPublish) job (published clock job)
  | failed {lease reason retryClass job} : owned lease job = true → job.state.isLeased = true →
      RowStep clock (.fail lease reason retryClass) job (failed reason retryClass clock job)
  | retried {lease retryClass delaySeconds job} : owned lease job = true →
      job.state.isLeased = true →
      RowStep clock (.retry lease retryClass delaySeconds) job
        (retried retryClass delaySeconds clock job)
  | recorded {lease requestId job} : owned lease job = true → job.state.isLeased = true →
      RowStep clock (.recordRequestId lease requestId) job (recorded requestId clock job)
  | released {lease job} : owned lease job = true → job.state.isLeased = true →
      RowStep clock (.release lease) job (released clock job)
  | cancelled {lease job} : owned lease job = true → job.state.isLeased = true →
      RowStep clock (.cancel lease) job (cancelled clock job)
  | cancelledQueued {job} : job.state = .queued →
      RowStep clock (.requestCancel job.id) job (cancelled clock job)
  | flagged {job} : job.state.isLeased = true → job.cancelRequested = false →
      RowStep clock (.requestCancel job.id) job (flagged clock job)
  | deleted {job} : job.state ≠ .deleted →
      RowStep clock (.delete job.id) job (tombstone clock job)

section Rows

omit [EmptyCollection π] [EmptyCollection σ]

theorem claim_row {db : Database π σ ρ} (workerId : String) (stages : List String)
    (leaseSeconds : Time) (locked : JobId → Bool) (clock : Clock) {jobId : JobId} {job : Job π σ}
    (found : db.jobs.find? jobId = some job) :
    ∃ next, (claim db workerId stages leaseSeconds locked clock).2.jobs.find? jobId = some next ∧
      (next = job ∨ next = settled clock job ∨
        ((settled clock job).state = .queued ∧
          next = leaseTo workerId leaseSeconds clock (settled clock job) ∧
          (claim db workerId stages leaseSeconds locked clock).1 =
            some (claimedJob workerId leaseSeconds clock next))) := by
  simp only [claim]
  split
  · exact ⟨job, found, Or.inl rfl⟩
  · split
    · refine ⟨settled clock job, ?_, Or.inr (Or.inl rfl)⟩
      simp only [Table.find?_update, found, Option.map_some]
      rfl
    · rename_i candidate chosen
      simp only [Table.find?_update, found, Option.map_some]
      change ∃ next, some (if (settled clock job).id == candidate.id then _ else _) = some next ∧ _
      by_cases same : (settled clock job).id = candidate.id
      · have member := List.mem_filter.mp (earliest_mem chosen)
        have settledFound : (db.jobs.update (overdue clock) (expire clock) (expire_id clock)).find?
            jobId = some (settled clock job) := by
          simp only [Table.find?_update, found, Option.map_some]
          rfl
        have candidateFound := Table.find?_of_mem member.1
        have sameKey : jobId = Keyed.key candidate := by
          rw [← Table.find?_key settledFound]
          exact same
        rw [← sameKey, settledFound, Option.some.injEq] at candidateFound
        subst candidateFound
        refine ⟨leaseTo workerId leaseSeconds clock (settled clock job), ?_,
          Or.inr (Or.inr ⟨?_, rfl, rfl⟩)⟩
        · exact congrArg some (if_pos (beq_self_eq_true _))
        · simp only [claimable, Bool.and_eq_true, beq_iff_eq] at member
          exact member.2.1.1.2
      · exact ⟨settled clock job, congrArg some (if_neg (by simpa using same)), Or.inr (Or.inl rfl)⟩

/-- A granted lease carries the token of the row it was taken on, raised by one. -/
theorem claim_granted {db : Database π σ ρ} {workerId : String} {stages : List String}
    {leaseSeconds : Time} {locked : JobId → Bool} {clock : Clock} {granted : ClaimedJob π σ}
    (claimed : (claim db workerId stages leaseSeconds locked clock).1 = some granted) :
    ∃ job next, db.jobs.find? granted.lease.jobId = some job ∧
      (claim db workerId stages leaseSeconds locked clock).2.jobs.find? granted.lease.jobId =
        some next ∧
      next = leaseTo workerId leaseSeconds clock (settled clock job) ∧
      granted = claimedJob workerId leaseSeconds clock next := by
  simp only [claim] at claimed
  split at claimed
  · simp at claimed
  · split at claimed
    · simp at claimed
    · rename_i candidate chosen
      simp only [Option.some.injEq] at claimed
      have member := List.mem_filter.mp (earliest_mem chosen)
      obtain ⟨job, belongs, isSettled⟩ := List.mem_map.mp member.1
      have isSettled : settled clock job = candidate := isSettled
      have found := Table.find?_of_mem belongs
      have sameId : granted.lease.jobId = job.id := by
        rw [← claimed, ← isSettled]
        exact settled_id clock job
      refine ⟨job, leaseTo workerId leaseSeconds clock (settled clock job), ?_, ?_, rfl, ?_⟩
      · rw [sameId]
        exact found
      · rw [sameId]
        simp only [claim]
        rw [if_neg (by assumption), chosen]
        simp only [Table.find?_update]
        rw [show db.jobs.find? job.id = some job from found]
        change some (if (settled clock job).id == candidate.id then _ else _) = _
        rw [isSettled, if_pos (beq_self_eq_true _)]
        exact congrArg (fun row => some (leaseTo workerId leaseSeconds clock row)) isSettled
      · rw [isSettled, claimed]

end Rows

/-- The row of an existing job after a call: it is still there, and moved by one `RowStep`. -/
theorem step_row {db : Database π σ ρ} (clock : Clock) (call : Call π σ ρ) {jobId : JobId}
    {job : Job π σ} (found : db.jobs.find? jobId = some job) :
    ∃ next, (step db (clock, call)).jobs.find? jobId = some next ∧ RowStep clock call job next := by
  obtain rfl : job.id = jobId := Table.find?_key found
  cases call with
  | enqueue new =>
      simp only [step, perform]
      split
      · exact ⟨job, found, .kept⟩
      · rename_i answer next accepted
        exact ⟨job, find?_enqueue accepted found, .kept⟩
  | claim workerId stages leaseSeconds locked =>
      obtain ⟨next, nextFound, moved⟩ := 
        claim_row workerId stages leaseSeconds locked clock found
      refine ⟨next, nextFound, ?_⟩
      rcases moved with rfl | rfl | ⟨queued, rfl, _⟩
      · exact .kept
      · simp only [settled]
        split
        · rename_i late
          exact .expired late
        · exact .kept
      · exact .claimed queued
  | start lease =>
      simp only [step, perform, start, Table.find?_update, found, Option.map_some]
      split
      · rename_i chosen
        simp only [Bool.and_eq_true, beq_iff_eq, Bool.not_eq_true'] at chosen
        exact ⟨_, rfl, .started chosen.1.1 chosen.1.2 chosen.2⟩
      · exact ⟨job, rfl, .kept⟩
  | heartbeat lease leaseSeconds =>
      simp only [step, perform, heartbeat]
      split
      · exact ⟨job, found, .kept⟩
      · simp only [Table.find?_update, found, Option.map_some]
        split
        · rename_i chosen
          simp only [Bool.and_eq_true] at chosen
          exact ⟨_, rfl, .extended chosen.1.1 chosen.1.2⟩
        · exact ⟨job, rfl, .kept⟩
  | saveStageData lease data =>
      simp only [step, perform, saveStageData]
      split
      · simp only [Table.find?_update, found, Option.map_some]
        split
        · rename_i chosen
          exact ⟨_, rfl, .saved chosen⟩
        · exact ⟨job, rfl, .kept⟩
      · exact ⟨job, found, .kept⟩
  | publish lease result successors onPublish =>
      simp only [step, perform]
      rcases publish_cases db lease result successors onPublish clock with
        ⟨unchanged, _⟩ | ⟨_, results, next, _, _, _, enqueued, performed⟩
      · rw [unchanged]
        exact ⟨job, found, .kept⟩
      · rw [performed]
        by_cases chosen : active lease clock job = true
        · refine ⟨published clock job, find?_enqueueAll enqueued ?_, .published chosen⟩
          simp [found, chosen]
        · refine ⟨job, find?_enqueueAll enqueued ?_, .kept⟩
          simp [found, chosen]
  | fail lease reason retryClass =>
      simp only [step, perform, fail, find?_fencedUpdate, found, Option.map_some]
      split
      · rename_i chosen
        simp only [Bool.and_eq_true] at chosen
        exact ⟨_, rfl, .failed chosen.1 chosen.2⟩
      · exact ⟨job, rfl, .kept⟩
  | retry lease retryClass delaySeconds =>
      simp only [step, perform, retry, find?_fencedUpdate, found, Option.map_some]
      split
      · rename_i chosen
        simp only [Bool.and_eq_true] at chosen
        exact ⟨_, rfl, .retried chosen.1 chosen.2⟩
      · exact ⟨job, rfl, .kept⟩
  | recordRequestId lease requestId =>
      simp only [step, perform, recordRequestId, find?_fencedUpdate, found, Option.map_some]
      split
      · rename_i chosen
        simp only [Bool.and_eq_true] at chosen
        exact ⟨_, rfl, .recorded chosen.1 chosen.2⟩
      · exact ⟨job, rfl, .kept⟩
  | release lease =>
      simp only [step, perform, release, find?_fencedUpdate, found, Option.map_some]
      split
      · rename_i chosen
        simp only [Bool.and_eq_true] at chosen
        exact ⟨_, rfl, .released chosen.1 chosen.2⟩
      · exact ⟨job, rfl, .kept⟩
  | cancel lease =>
      simp only [step, perform, cancel, find?_fencedUpdate, found, Option.map_some]
      split
      · rename_i chosen
        simp only [Bool.and_eq_true] at chosen
        exact ⟨_, rfl, .cancelled chosen.1 chosen.2⟩
      · exact ⟨job, rfl, .kept⟩
  | requestCancel target =>
      simp only [step, perform, requestCancel]
      split
      · exact ⟨job, found, .kept⟩
      · rename_i row targetFound
        by_cases same : job.id = target
        · subst same
          obtain rfl : job = row := Option.some.inj (found.symm.trans targetFound)
          split
          · rename_i queued
            refine ⟨cancelled clock job, ?_, .cancelledQueued queued⟩
            simp only [Table.find?_update, found, Option.map_some, beq_self_eq_true, if_true]
          · split
            · rename_i leased
              split
              · exact ⟨job, found, .kept⟩
              · rename_i unflagged
                refine ⟨flagged clock job, ?_, .flagged leased (by simpa using unflagged)⟩
                simp only [Table.find?_update, found, Option.map_some, beq_self_eq_true, if_true]
            · exact ⟨job, found, .kept⟩
        · refine ⟨job, ?_, .kept⟩
          split
          · simp [found, same]
          · split
            · split
              · exact found
              · simp [found, same]
            · exact found
  | delete target =>
      simp only [step, perform, delete]
      split
      · simp only [Table.find?_update, found, Option.map_some]
        split
        · rename_i chosen
          simp only [Bool.and_eq_true, beq_iff_eq, bne_iff_ne] at chosen
          obtain ⟨rfl, present⟩ := chosen
          exact ⟨_, rfl, .deleted present⟩
        · exact ⟨job, rfl, .kept⟩
      · exact ⟨job, found, .kept⟩

end Ovrly.Jobs
