import Ovrly.Relational
import Ovrly.Jobs.States

/-!
The PostgreSQL job queue of `jobs/queue.py`: the rows of `jobs` and `job_results` and the
transactions of `JobQueue` on them.

Each method is one serialised transaction. It reads two clocks: `func.now()`, fixed when the
transaction starts, and `func.clock_timestamp()`. Payloads, checkpoints and results are JSON
documents the queue never reads, so they stay type variables. Timestamps are microseconds, as
PostgreSQL stores them, and durations too.
-/

namespace Ovrly.Jobs

open Relational

abbrev Time := Int
abbrev JobId := Nat
abbrev PrincipalId := Nat

structure Clock where
  now : Time
  clockTimestamp : Time
  deriving DecidableEq, Repr

inductive RetryClass
  | transient
  | rateLimited
  | nonRetriableInput
  | invalidModelSchema
  | unknownOutcome
  deriving DecidableEq, Repr

inductive CancelOutcome
  | effective
  | requested
  | notCancellable
  deriving DecidableEq, Repr

structure StageKey where
  version : Nat
  stage : String
  inputHash : String
  deriving DecidableEq, Repr

structure Lease where
  jobId : JobId
  workerId : String
  fencingToken : Nat
  generation : Nat
  expiresAt : Time
  deriving DecidableEq, Repr

/-- `retry_counts`: a JSON object from retry class to count. -/
abbrev RetryCounts := List (RetryClass × Nat)

/-- `coalesce(retry_counts -> class, 0)` -/
def RetryCounts.count (counts : RetryCounts) (retryClass : RetryClass) : Nat :=
  (counts.lookup retryClass).getD 0

/-- `jsonb_set(retry_counts, class, count)` -/
def RetryCounts.set (counts : RetryCounts) (retryClass : RetryClass) (count : Nat) : RetryCounts :=
  (retryClass, count) :: counts.filter (·.1 ≠ retryClass)

structure Job (π σ : Type) where
  id : JobId
  ownerId : Option PrincipalId
  cancelOutcome : Option CancelOutcome
  key : StageKey
  state : JobState
  cancelRequested : Bool
  fencingToken : Nat
  generation : Nat
  attempts : Nat
  leaseOwner : Option String
  leaseExpiresAt : Option Time
  availableAt : Time
  payload : π
  stageData : σ
  failure : Option String
  retryClass : Option RetryClass
  retryCounts : RetryCounts
  providerRequestId : Option String
  createdAt : Time
  updatedAt : Time
  deriving DecidableEq

structure JobResult (ρ : Type) where
  jobId : JobId
  key : StageKey
  fencingToken : Nat
  generation : Nat
  result : ρ
  publishedAt : Time
  deriving DecidableEq

instance {π σ : Type} : Keyed (Job π σ) JobId := ⟨Job.id⟩
instance {ρ : Type} : Keyed (JobResult ρ) JobId := ⟨JobResult.jobId⟩

structure Database (π σ ρ : Type) where
  jobs : Table (Job π σ)
  results : Table (JobResult ρ)

def Database.empty {π σ ρ : Type} : Database π σ ρ := ⟨Table.empty, Table.empty⟩

structure ClaimedJob (π σ : Type) where
  lease : Lease
  key : StageKey
  payload : π
  attempts : Nat
  retryCounts : RetryCounts
  providerRequestId : Option String
  stageData : σ
  deriving DecidableEq

structure Enqueued where
  jobId : JobId
  created : Bool
  deriving DecidableEq, Repr

structure PublishedResult (ρ : Type) where
  jobId : JobId
  key : StageKey
  fencingToken : Nat
  generation : Nat
  result : ρ
  deriving DecidableEq

inductive EnqueueError
  | crossOwner
  | duplicateId
  deriving DecidableEq, Repr

/-- Why `publish` raises: the rejections it diagnoses itself, and whatever its callbacks raise. -/
inductive PublishError
  | rejected (reason : String)
  | raised
  deriving DecidableEq, Repr

structure LeaseLost where
  deriving DecidableEq, Repr

variable {π σ ρ : Type}

def Job.status (job : Job π σ) : JobStatus := ⟨job.state, job.cancelRequested⟩

/-- A job to insert: `uuid4()` supplies the id. -/
structure NewJob (π : Type) where
  id : JobId
  key : StageKey
  payload : π
  ownerId : Option PrincipalId
  deriving DecidableEq

def owned (lease : Lease) (job : Job π σ) : Bool :=
  job.id == lease.jobId && job.leaseOwner == some lease.workerId &&
    job.fencingToken == lease.fencingToken && job.generation == lease.generation

theorem owned_id {lease : Lease} {job : Job π σ} (mine : owned lease job = true) :
    job.id = lease.jobId := by
  simp only [owned, Bool.and_eq_true, beq_iff_eq] at mine
  exact mine.1.1.1

def cleared (clock : Clock) (job : Job π σ) : Job π σ :=
  { job with leaseOwner := none, leaseExpiresAt := none, updatedAt := clock.now }

section Enqueue

variable [EmptyCollection σ]

def newRow (new : NewJob π) (clock : Clock) : Job π σ where
  id := new.id
  ownerId := new.ownerId
  cancelOutcome := none
  key := new.key
  state := .queued
  cancelRequested := false
  fencingToken := 0
  generation := 0
  attempts := 0
  leaseOwner := none
  leaseExpiresAt := none
  availableAt := clock.now
  payload := new.payload
  stageData := ∅
  failure := none
  retryClass := none
  retryCounts := []
  providerRequestId := none
  createdAt := clock.now
  updatedAt := clock.now

/-- Inserts a queued job, or returns the job that already holds its stage key. -/
def enqueue (db : Database π σ ρ) (new : NewJob π) (clock : Clock) :
    Except EnqueueError (Enqueued × Database π σ ρ) :=
  match db.jobs.rows.find? (·.key == new.key) with
  | some existing =>
      if existing.ownerId = new.ownerId then .ok (⟨existing.id, false⟩, db)
      else .error .crossOwner
  | none =>
      match db.jobs.insert? (newRow new clock) with
      | none => .error .duplicateId
      | some jobs => .ok (⟨new.id, true⟩, { db with jobs })

def enqueueAll (db : Database π σ ρ) (news : List (NewJob π)) (clock : Clock) :
    Except EnqueueError (Database π σ ρ) :=
  news.foldlM (fun current new => (enqueue current new clock).map (·.2)) db

theorem find?_enqueue {db next : Database π σ ρ} {new : NewJob π} {clock : Clock}
    {answer : Enqueued} (accepted : enqueue db new clock = .ok (answer, next)) {jobId : JobId}
    {job : Job π σ} (found : db.jobs.find? jobId = some job) :
    next.jobs.find? jobId = some job := by
  simp only [enqueue] at accepted
  split at accepted
  · split at accepted
    · simp only [Except.ok.injEq, Prod.mk.injEq] at accepted
      rw [← accepted.2, found]
    · simp at accepted
  · split at accepted
    · simp at accepted
    · rename_i jobs inserted
      simp only [Except.ok.injEq, Prod.mk.injEq] at accepted
      rw [← accepted.2]
      change jobs.find? jobId = some job
      rw [Table.find?_insert? inserted, if_neg, found]
      intro same
      have fresh := Table.insert?_fresh inserted
      rw [same, found] at fresh
      simp at fresh

theorem enqueueAll_nil (db : Database π σ ρ) (clock : Clock) :
    enqueueAll db [] clock = .ok db := rfl

theorem enqueueAll_cons (db : Database π σ ρ) (new : NewJob π) (rest : List (NewJob π))
    (clock : Clock) :
    enqueueAll db (new :: rest) clock =
      match enqueue db new clock with
      | .error refused => .error refused
      | .ok (_, next) => enqueueAll next rest clock := by
  simp only [enqueueAll, List.foldlM_cons]
  cases first : enqueue db new clock with
  | error refused => rfl
  | ok answer => rfl

theorem find?_enqueueAll {db next : Database π σ ρ} {news : List (NewJob π)} {clock : Clock}
    (accepted : enqueueAll db news clock = .ok next) {jobId : JobId} {job : Job π σ}
    (found : db.jobs.find? jobId = some job) : next.jobs.find? jobId = some job := by
  induction news generalizing db with
  | nil =>
      rw [enqueueAll_nil, Except.ok.injEq] at accepted
      rw [← accepted, found]
  | cons new rest ih =>
      rw [enqueueAll_cons] at accepted
      cases first : enqueue db new clock with
      | error refused => simp [first] at accepted
      | ok answer =>
          rw [first] at accepted
          exact ih accepted (find?_enqueue first found)

theorem enqueue_origin {db next : Database π σ ρ} {new : NewJob π} {clock : Clock}
    {answer : Enqueued} (accepted : enqueue db new clock = .ok (answer, next)) {jobId : JobId}
    {job : Job π σ} (found : next.jobs.find? jobId = some job) :
    db.jobs.find? jobId = some job ∨ job = newRow new clock := by
  simp only [enqueue] at accepted
  split at accepted
  · split at accepted
    · simp only [Except.ok.injEq, Prod.mk.injEq] at accepted
      rw [accepted.2]
      exact Or.inl found
    · simp at accepted
  · split at accepted
    · simp at accepted
    · rename_i jobs inserted
      simp only [Except.ok.injEq, Prod.mk.injEq] at accepted
      rw [← accepted.2] at found
      change jobs.find? jobId = some job at found
      rw [Table.find?_insert? inserted] at found
      split at found
      · exact Or.inr (Option.some.inj found).symm
      · exact Or.inl found

theorem enqueueAll_origin {db next : Database π σ ρ} {news : List (NewJob π)} {clock : Clock}
    (accepted : enqueueAll db news clock = .ok next) {jobId : JobId} {job : Job π σ}
    (found : next.jobs.find? jobId = some job) :
    db.jobs.find? jobId = some job ∨ ∃ new ∈ news, job = newRow new clock := by
  induction news generalizing db with
  | nil =>
      rw [enqueueAll_nil, Except.ok.injEq] at accepted
      rw [accepted]
      exact Or.inl found
  | cons new rest ih =>
      rw [enqueueAll_cons] at accepted
      cases first : enqueue db new clock with
      | error refused => simp [first] at accepted
      | ok answer =>
          rw [first] at accepted
          rcases ih accepted with earlier | ⟨later, member, equal⟩
          · rcases enqueue_origin first earlier with kept | inserted
            · exact Or.inl kept
            · exact Or.inr ⟨new, List.mem_cons_self, inserted⟩
          · exact Or.inr ⟨later, List.mem_cons_of_mem _ member, equal⟩

end Enqueue

section Claim

/-- The lease deadline passed: `lease_expires_at < now()`. -/
def overdue (clock : Clock) (job : Job π σ) : Bool :=
  job.state.isLeased && job.leaseExpiresAt.any (· < clock.now)

/-- The state and generation of a lease given back: a requested cancellation wins. -/
def returned (job : Job π σ) : Job π σ :=
  { job with
    state := if job.cancelRequested then .cancelled else .queued
    generation := job.generation + if job.cancelRequested then 1 else 0 }

def expire (clock : Clock) (job : Job π σ) : Job π σ := cleared clock (returned job)

@[simp] theorem expire_id (clock : Clock) (job : Job π σ) : (expire clock job).id = job.id := rfl

def claimable (stages : List String) (clock : Clock) (locked : JobId → Bool) (job : Job π σ) :
    Bool :=
  stages.contains job.key.stage && job.state == .queued && job.availableAt ≤ clock.now &&
    !locked job.id

/-- `ORDER BY available_at, created_at` -/
def before (first second : Job π σ) : Bool :=
  first.availableAt < second.availableAt ||
    (first.availableAt == second.availableAt && first.createdAt ≤ second.createdAt)

/-- `LIMIT 1` -/
def earliest : List (Job π σ) → Option (Job π σ)
  | [] => none
  | job :: rest =>
      match earliest rest with
      | none => some job
      | some best => if before job best then some job else some best

theorem earliest_mem {jobs : List (Job π σ)} {job : Job π σ} (found : earliest jobs = some job) :
    job ∈ jobs := by
  induction jobs generalizing job with
  | nil => simp [earliest] at found
  | cons first rest ih =>
      simp only [earliest] at found
      split at found
      · simp only [Option.some.injEq] at found
        simp [found]
      · rename_i best later
        split at found
        · simp only [Option.some.injEq] at found
          simp [found]
        · exact List.mem_cons_of_mem _ (ih (later.trans found))

def leaseTo (workerId : String) (leaseSeconds : Time) (clock : Clock) (job : Job π σ) :
    Job π σ :=
  { job with
    state := .leased
    leaseOwner := some workerId
    leaseExpiresAt := some (clock.now + leaseSeconds)
    fencingToken := job.fencingToken + 1
    attempts := job.attempts + 1
    updatedAt := clock.now }

@[simp] theorem leaseTo_id (workerId : String) (leaseSeconds : Time) (clock : Clock)
    (job : Job π σ) : (leaseTo workerId leaseSeconds clock job).id = job.id := rfl

def claimedJob (workerId : String) (leaseSeconds : Time) (clock : Clock) (job : Job π σ) :
    ClaimedJob π σ where
  lease := ⟨job.id, workerId, job.fencingToken, job.generation, clock.now + leaseSeconds⟩
  key := job.key
  payload := job.payload
  attempts := job.attempts
  retryCounts := job.retryCounts
  providerRequestId := job.providerRequestId
  stageData := job.stageData

/-- Expires overdue leases, then leases one queued job to a worker. Rows another transaction
holds are skipped (`SKIP LOCKED`). -/
def claim (db : Database π σ ρ) (workerId : String) (stages : List String) (leaseSeconds : Time)
    (locked : JobId → Bool) (clock : Clock) : Option (ClaimedJob π σ) × Database π σ ρ :=
  if stages.isEmpty then (none, db)
  else
    let expired := db.jobs.update (overdue clock) (expire clock) (expire_id clock)
    match earliest (expired.rows.filter (claimable stages clock locked)) with
    | none => (none, { db with jobs := expired })
    | some candidate =>
        (some (claimedJob workerId leaseSeconds clock (leaseTo workerId leaseSeconds clock candidate)),
          { db with
            jobs := expired.update (·.id == candidate.id) (leaseTo workerId leaseSeconds clock)
              (leaseTo_id workerId leaseSeconds clock) })

end Claim

section Fenced

/-! The `SET` clauses of the fenced statements, as functions of the row. -/

def started (clock : Clock) (job : Job π σ) : Job π σ :=
  { job with state := .running, updatedAt := clock.now }

def extended (leaseSeconds : Time) (clock : Clock) (job : Job π σ) : Job π σ :=
  { job with leaseExpiresAt := some (clock.now + leaseSeconds), updatedAt := clock.now }

def saved (data : σ) (clock : Clock) (job : Job π σ) : Job π σ :=
  { job with stageData := data, updatedAt := clock.now }

def published (clock : Clock) (job : Job π σ) : Job π σ :=
  cleared clock { job with state := .published }

def failed (reason : String) (retryClass : Option RetryClass) (clock : Clock) (job : Job π σ) :
    Job π σ :=
  cleared clock { job with state := .failed, failure := some reason, retryClass }

def retried (retryClass : RetryClass) (delaySeconds : Time) (clock : Clock) (job : Job π σ) :
    Job π σ :=
  cleared clock
    { returned job with
      availableAt := clock.now + delaySeconds
      retryClass := some retryClass
      retryCounts := job.retryCounts.set retryClass (job.retryCounts.count retryClass + 1) }

def recorded (requestId : String) (clock : Clock) (job : Job π σ) : Job π σ :=
  { job with providerRequestId := some requestId, updatedAt := clock.now }

def released (clock : Clock) (job : Job π σ) : Job π σ := cleared clock (returned job)

/-- An effective cancellation; the bumped generation fences every late write. -/
def cancelled (clock : Clock) (job : Job π σ) : Job π σ :=
  cleared clock
    { job with state := .cancelled, cancelRequested := true, generation := job.generation + 1 }

@[simp] theorem started_id (clock : Clock) (job : Job π σ) : (started clock job).id = job.id := rfl

@[simp] theorem extended_id (leaseSeconds : Time) (clock : Clock) (job : Job π σ) :
    (extended leaseSeconds clock job).id = job.id := rfl

@[simp] theorem saved_id (data : σ) (clock : Clock) (job : Job π σ) :
    (saved data clock job).id = job.id := rfl

@[simp] theorem published_id (clock : Clock) (job : Job π σ) :
    (published clock job).id = job.id := rfl

@[simp] theorem failed_id (reason : String) (retryClass : Option RetryClass) (clock : Clock)
    (job : Job π σ) : (failed reason retryClass clock job).id = job.id := rfl

@[simp] theorem retried_id (retryClass : RetryClass) (delaySeconds : Time) (clock : Clock)
    (job : Job π σ) : (retried retryClass delaySeconds clock job).id = job.id := rfl

@[simp] theorem recorded_id (requestId : String) (clock : Clock) (job : Job π σ) :
    (recorded requestId clock job).id = job.id := rfl

@[simp] theorem released_id (clock : Clock) (job : Job π σ) :
    (released clock job).id = job.id := rfl

@[simp] theorem cancelled_id (clock : Clock) (job : Job π σ) :
    (cancelled clock job).id = job.id := rfl

def fencedUpdate (db : Database π σ ρ) (lease : Lease) (states : JobState → Bool)
    (values : Job π σ → Job π σ) (keeps : ∀ job, (values job).id = job.id) :
    Bool × Database π σ ρ :=
  let condition := fun job => owned lease job && states job.state
  (db.jobs.rowcount condition == 1, { db with jobs := db.jobs.update condition values keeps })

theorem find?_fencedUpdate (db : Database π σ ρ) (lease : Lease) (states : JobState → Bool)
    (values : Job π σ → Job π σ) (keeps : ∀ job, (values job).id = job.id) (jobId : JobId) :
    (fencedUpdate db lease states values keeps).2.jobs.find? jobId =
      (db.jobs.find? jobId).map fun job =>
        if owned lease job && states job.state then values job else job := by
  simp only [fencedUpdate, Table.find?_update]

/-- Owned, running, not asked to stop and not expired. -/
def active (lease : Lease) (clock : Clock) (job : Job π σ) : Bool :=
  owned lease job && job.state == .running && !job.cancelRequested &&
    job.leaseExpiresAt.any (clock.clockTimestamp < ·)

def start (db : Database π σ ρ) (lease : Lease) (clock : Clock) : Bool × Database π σ ρ :=
  let condition := fun job : Job π σ =>
    owned lease job && job.state == .leased && !job.cancelRequested
  (db.jobs.rowcount condition == 1,
    { db with jobs := db.jobs.update condition (started clock) (started_id clock) })

/-- Extends an owned lease that has not expired and answers whether cancellation was
requested. -/
def heartbeat (db : Database π σ ρ) (lease : Lease) (leaseSeconds : Time) (clock : Clock) :
    Except LeaseLost Bool × Database π σ ρ :=
  let condition := fun job : Job π σ =>
    owned lease job && job.state.isLeased && job.leaseExpiresAt.any (clock.clockTimestamp < ·)
  match db.jobs.rows.find? condition with
  | none => (.error {}, db)
  | some job =>
      (.ok job.cancelRequested,
        { db with
          jobs := db.jobs.update condition (extended leaseSeconds clock)
            (extended_id leaseSeconds clock) })

def saveStageData (db : Database π σ ρ) (lease : Lease) (data : σ) (clock : Clock) :
    Except LeaseLost Unit × Database π σ ρ :=
  if db.jobs.rowcount (active lease clock) = 1 then
    (.ok (),
      { db with
        jobs := db.jobs.update (active lease clock) (saved data clock) (saved_id data clock) })
  else (.error {}, db)

def lockActive (db : Database π σ ρ) (lease : Lease) (clock : Clock) : Except LeaseLost Unit :=
  match db.jobs.rows.find? (active lease clock) with
  | none => .error {}
  | some _ => .ok ()

def stateName : JobState → String
  | .queued => "queued"
  | .leased => "leased"
  | .running => "running"
  | .published => "published"
  | .cancelled => "cancelled"
  | .deleted => "deleted"
  | .failed => "failed"

def rejectionReason (db : Database π σ ρ) (lease : Lease) : String :=
  match db.jobs.find? lease.jobId with
  | none => "the job no longer exists"
  | some job =>
      if job.generation ≠ lease.generation then
        "the job was " ++ stateName job.state ++ " (generation changed)"
      else if job.fencingToken ≠ lease.fencingToken then
        "the lease is stale (fencing token changed)"
      else if !job.state.isLeased then "the job is " ++ stateName job.state
      else if job.leaseOwner ≠ some lease.workerId then "the lease is stale (owner changed)"
      else if job.cancelRequested then "cancellation was requested"
      else "the job is " ++ stateName job.state

def fail (db : Database π σ ρ) (lease : Lease) (reason : String) (retryClass : Option RetryClass)
    (clock : Clock) : Bool × Database π σ ρ :=
  fencedUpdate db lease JobState.isLeased (failed reason retryClass clock)
    (failed_id reason retryClass clock)

def retry (db : Database π σ ρ) (lease : Lease) (retryClass : RetryClass) (delaySeconds : Time)
    (clock : Clock) : Bool × Database π σ ρ :=
  fencedUpdate db lease JobState.isLeased (retried retryClass delaySeconds clock)
    (retried_id retryClass delaySeconds clock)

def recordRequestId (db : Database π σ ρ) (lease : Lease) (requestId : String) (clock : Clock) :
    Except LeaseLost Unit × Database π σ ρ :=
  let updated := fencedUpdate db lease JobState.isLeased (recorded requestId clock)
    (recorded_id requestId clock)
  (if updated.1 then .ok () else .error {}, updated.2)

def release (db : Database π σ ρ) (lease : Lease) (clock : Clock) : Bool × Database π σ ρ :=
  fencedUpdate db lease JobState.isLeased (released clock) (released_id clock)

def cancel (db : Database π σ ρ) (lease : Lease) (clock : Clock) : Bool × Database π σ ρ :=
  fencedUpdate db lease JobState.isLeased (cancelled clock) (cancelled_id clock)

end Fenced

section Publish

variable [EmptyCollection σ]

/-- What the callbacks inside a publication do to the queue: the jobs they enqueue, and
whether they raise. -/
structure OnPublish (π : Type) where
  enqueues : List (NewJob π) := []
  raises : Bool := false
  deriving DecidableEq

/-- Publishes a result and its successors in one transaction, compare-and-set against the
lease. Every exception rolls the transaction back. -/
def publish (db : Database π σ ρ) (lease : Lease) (result : ρ) (successors : List (NewJob π))
    (onPublish : OnPublish π) (clock : Clock) :
    Except PublishError (PublishedResult ρ) × Database π σ ρ :=
  match db.jobs.rows.find? (active lease clock) with
  | none => (.error (.rejected (rejectionReason db lease)), db)
  | some job =>
      let row : JobResult ρ :=
        ⟨lease.jobId, job.key, lease.fencingToken, lease.generation, result, clock.now⟩
      if db.results.rows.any (·.key == job.key) then
        (.error (.rejected "a result for this stage key already exists"), db)
      else
        match db.results.insert? row with
        | none => (.error (.rejected "a result for this stage key already exists"), db)
        | some results =>
            let written : Database π σ ρ :=
              { jobs := db.jobs.update (active lease clock) (published clock) (published_id clock)
                results }
            match enqueueAll written (successors ++ onPublish.enqueues) clock with
            | .error .crossOwner => (.error .raised, db)
            | .error .duplicateId =>
                (.error (.rejected "a result for this stage key already exists"), db)
            | .ok next =>
                if onPublish.raises then (.error .raised, db)
                else (.ok ⟨lease.jobId, job.key, lease.fencingToken, lease.generation, result⟩, next)

/-- A publication either changes nothing and answers an error, or runs whole: the row was
active under the lease, and its result and successors were inserted. -/
theorem publish_cases (db : Database π σ ρ) (lease : Lease) (result : ρ)
    (successors : List (NewJob π)) (onPublish : OnPublish π) (clock : Clock) :
    ((publish db lease result successors onPublish clock).2 = db ∧
      ∃ error, (publish db lease result successors onPublish clock).1 = .error error) ∨
    ∃ job results next,
      db.jobs.find? lease.jobId = some job ∧ active lease clock job = true ∧
      db.results.insert?
        ⟨lease.jobId, job.key, lease.fencingToken, lease.generation, result, clock.now⟩ =
          some results ∧
      enqueueAll
        ⟨db.jobs.update (active lease clock) (published clock) (published_id clock), results⟩
        (successors ++ onPublish.enqueues) clock = .ok next ∧
      publish db lease result successors onPublish clock =
        (.ok ⟨lease.jobId, job.key, lease.fencingToken, lease.generation, result⟩, next) := by
  cases found : db.jobs.rows.find? (active lease clock) with
  | none =>
      left
      simp only [publish, found]
      exact ⟨trivial, _, rfl⟩
  | some job =>
      have chosen : active lease clock job = true := List.find?_some found
      have sameId : job.id = lease.jobId := by
        simp only [active, Bool.and_eq_true] at chosen
        exact owned_id chosen.1.1.1
      have jobFound : db.jobs.find? lease.jobId = some job := by
        rw [← sameId]
        exact Table.find?_of_mem (List.mem_of_find?_eq_some found)
      simp only [publish, found]
      split
      · exact Or.inl ⟨rfl, _, rfl⟩
      · split
        · exact Or.inl ⟨rfl, _, rfl⟩
        · rename_i results inserted
          split
          · exact Or.inl ⟨rfl, _, rfl⟩
          · exact Or.inl ⟨rfl, _, rfl⟩
          · rename_i next enqueued
            split
            · exact Or.inl ⟨rfl, _, rfl⟩
            · exact Or.inr ⟨job, results, next, jobFound, chosen, inserted, enqueued, rfl⟩

end Publish

section Owner

def flagged (clock : Clock) (job : Job π σ) : Job π σ :=
  { job with cancelRequested := true, updatedAt := clock.now }

@[simp] theorem flagged_id (clock : Clock) (job : Job π σ) : (flagged clock job).id = job.id := rfl

/-- Cancels a queued job at once, or flags a leased one for its worker. -/
def requestCancel (db : Database π σ ρ) (jobId : JobId) (clock : Clock) :
    CancelOutcome × Database π σ ρ :=
  match db.jobs.find? jobId with
  | none => (.notCancellable, db)
  | some job =>
      if job.state = .queued then
        (.effective,
          { db with jobs := db.jobs.update (·.id == jobId) (cancelled clock) (cancelled_id clock) })
      else if job.state.isLeased then
        (.requested,
          if job.cancelRequested then db
          else { db with jobs := db.jobs.update (·.id == jobId) (flagged clock) (flagged_id clock) })
      else (.notCancellable, db)

variable [EmptyCollection π] [EmptyCollection σ]

def tombstone (clock : Clock) (job : Job π σ) : Job π σ :=
  cleared clock
    { job with state := .deleted, generation := job.generation + 1, payload := ∅, stageData := ∅ }

@[simp] theorem tombstone_id (clock : Clock) (job : Job π σ) :
    (tombstone clock job).id = job.id := rfl

/-- Leaves a tombstone, bumps the generation and removes any published result. -/
def delete (db : Database π σ ρ) (jobId : JobId) (clock : Clock) : Bool × Database π σ ρ :=
  let condition := fun job : Job π σ => job.id == jobId && job.state != .deleted
  if db.jobs.rowcount condition = 1 then
    (true,
      { jobs := db.jobs.update condition (tombstone clock) (tombstone_id clock)
        results := db.results.delete (·.jobId == jobId) })
  else (false, db)

end Owner

end Ovrly.Jobs
