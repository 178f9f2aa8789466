import Ovrly.Jobs.Refinement

/-!
What an owner may do to a job (`cancel_owned_job` in `routes/jobs.py`).

The route holds the row it answers for. A job that works for a request also names the job its
request points at now; any other job names none.
-/

namespace Ovrly.Jobs

open Relational

variable {π σ ρ : Type}

/-- `load_owned`, for a row that is not deleted. -/
def loadOwned (db : Database π σ ρ) (jobId : JobId) (principal : PrincipalId) :
    Option (Job π σ) :=
  ((db.jobs.find? jobId).filter (·.ownerId == some principal)).filter (·.state != .deleted)

def receipted (outcome : CancelOutcome) (job : Job π σ) : Job π σ :=
  { job with cancelOutcome := some outcome }

@[simp] theorem receipted_id (outcome : CancelOutcome) (job : Job π σ) :
    (receipted outcome job).id = job.id := rfl

/-- The outcome of cancelling a row while its request points at `current`. -/
def cancelRow (db : Database π σ ρ) (current : Option JobId) (row : Job π σ) (clock : Clock) :
    CancelOutcome × Database π σ ρ :=
  if row.state = .cancelled then (.effective, db)
  else
    match current with
    | some successor =>
        if row.state = .published ∧ successor ≠ row.id then
          if (db.jobs.find? successor).any (·.state == .cancelled) then (.effective, db)
          else requestCancel db successor clock
        else requestCancel db row.id clock
    | none => requestCancel db row.id clock

def withReceipt (cancelled : CancelOutcome × Database π σ ρ) (jobId : JobId) : Database π σ ρ :=
  { cancelled.2 with
    jobs := cancelled.2.jobs.update (·.id == jobId) (receipted cancelled.1)
      (receipted_id cancelled.1) }

/-- A stored receipt is replayed; the first one is stored with the cancellation. -/
def cancelLoaded (db : Database π σ ρ) (current : Option JobId) (jobId : JobId)
    (principal : PrincipalId) (clock : Clock) : Option (CancelOutcome × Database π σ ρ) :=
  match loadOwned db jobId principal with
  | none => none
  | some row =>
      match row.cancelOutcome with
      | some outcome => some (outcome, db)
      | none =>
          let cancelled := cancelRow db current row clock
          some (cancelled.1, withReceipt cancelled jobId)

theorem loadOwned_some {db : Database π σ ρ} {jobId : JobId} {principal : PrincipalId}
    {row : Job π σ} (loaded : loadOwned db jobId principal = some row) :
    db.jobs.find? jobId = some row ∧ row.ownerId = some principal ∧ row.state ≠ .deleted := by
  simp only [loadOwned, Option.filter_eq_some_iff, beq_iff_eq, bne_iff_ne] at loaded
  exact ⟨loaded.1.1, loaded.1.2, loaded.2⟩

theorem cancelLoaded_cases {db next : Database π σ ρ} {current : Option JobId} {jobId : JobId}
    {principal : PrincipalId} {clock : Clock} {outcome : CancelOutcome}
    (answered : cancelLoaded db current jobId principal clock = some (outcome, next)) :
    ∃ row, loadOwned db jobId principal = some row ∧
      (row.cancelOutcome = some outcome ∧ next = db ∨
        row.cancelOutcome = none ∧ outcome = (cancelRow db current row clock).1 ∧
          next = withReceipt (cancelRow db current row clock) jobId) := by
  unfold cancelLoaded at answered
  split at answered
  · cases answered
  · rename_i row loaded
    refine ⟨row, loaded, ?_⟩
    split at answered
    · rename_i stored receipt
      simp only [Option.some.injEq, Prod.mk.injEq] at answered
      exact Or.inl ⟨receipt.trans (congrArg some answered.1), answered.2.symm⟩
    · rename_i receipt
      simp only [Option.some.injEq, Prod.mk.injEq] at answered
      exact Or.inr ⟨receipt, answered.1.symm, answered.2.symm⟩

section Rows

def RowsMoved (related : Job π σ → Job π σ → Prop) (db next : Database π σ ρ) : Prop :=
  ∀ jobId,
    (∀ job, db.jobs.find? jobId = some job →
      ∃ later, next.jobs.find? jobId = some later ∧ related job later) ∧
    (db.jobs.find? jobId = none → next.jobs.find? jobId = none)

theorem RowsMoved.of_eq {related : Job π σ → Job π σ → Prop} (reflexive : ∀ job, related job job)
    (db : Database π σ ρ) : RowsMoved related db db :=
  fun _ => ⟨fun job found => ⟨job, found, reflexive job⟩, id⟩

theorem RowsMoved.mono {related wanted : Job π σ → Job π σ → Prop} {db next : Database π σ ρ}
    (moved : RowsMoved related db next)
    (holds : ∀ job later, related job later → wanted job later) : RowsMoved wanted db next := by
  intro jobId
  refine ⟨fun job found => ?_, (moved jobId).2⟩
  obtain ⟨later, laterFound, related⟩ := (moved jobId).1 job found
  exact ⟨later, laterFound, holds job later related⟩

theorem RowsMoved.trans {before after both : Job π σ → Job π σ → Prop}
    {first second third : Database π σ ρ} (moved : RowsMoved before first second)
    (further : RowsMoved after second third)
    (compose : ∀ job ∈ first.jobs.rows, ∀ middle later, before job middle → after middle later →
      both job later) : RowsMoved both first third := by
  intro jobId
  constructor
  · intro job found
    obtain ⟨middle, middleFound, here⟩ := (moved jobId).1 job found
    obtain ⟨later, laterFound, there⟩ := (further jobId).1 middle middleFound
    exact ⟨later, laterFound, compose job (Table.mem_of_find? found) middle later here there⟩
  · exact fun absent => (further jobId).2 ((moved jobId).2 absent)

theorem RowsMoved.earlier {related : Job π σ → Job π σ → Prop} {db next : Database π σ ρ}
    (moved : RowsMoved related db next) {jobId : JobId} {later : Job π σ}
    (found : next.jobs.find? jobId = some later) :
    ∃ job, db.jobs.find? jobId = some job ∧ related job later := by
  cases earlier : db.jobs.find? jobId with
  | none =>
      rw [(moved jobId).2 earlier] at found
      cases found
  | some job =>
      obtain ⟨next, nextFound, holds⟩ := (moved jobId).1 job earlier
      rw [nextFound, Option.some.injEq] at found
      exact ⟨job, rfl, found ▸ holds⟩

theorem update_moved {related : Job π σ → Job π σ → Prop} {db : Database π σ ρ}
    {condition : Job π σ → Bool} {change : Job π σ → Job π σ}
    {keeps : ∀ job, (change job).id = job.id}
    (holds : ∀ job ∈ db.jobs.rows, related job (if condition job then change job else job)) :
    RowsMoved related db { db with jobs := db.jobs.update condition change keeps } := by
  intro jobId
  simp only [Table.find?_update]
  constructor
  · intro job found
    exact ⟨_, by rw [found]; rfl, holds job (Table.mem_of_find? found)⟩
  · intro absent
    rw [absent]
    rfl

abbrev Job.GivenUp (job : Job π σ) : Prop := job.cancelRequested = true

variable [EmptyCollection π] [EmptyCollection σ] {clock : Clock} {call : Call π σ ρ}
  {job later : Job π σ}

theorem RowStep.cancelOutcome (moved : RowStep clock call job later) :
    later.cancelOutcome = job.cancelOutcome := by
  have settledOutcome : (settled clock job).cancelOutcome = job.cancelOutcome := by
    simp only [settled]
    split <;> rfl
  cases moved with
  | claimed _ => exact settledOutcome
  | _ => rfl

theorem RowStep.givenUp (moved : RowStep clock call job later) (givenUp : job.GivenUp) :
    later.GivenUp := by
  have settledFlag : (settled clock job).GivenUp := by
    simp only [settled]
    split <;> exact givenUp
  cases moved with
  | claimed _ => exact settledFlag
  | cancelled _ _ | cancelledQueued _ | flagged _ _ => rfl
  | _ => exact givenUp

theorem RowStep.isActive (moved : RowStep clock call job later)
    (active : later.state.isActive = true) : job.state.isActive = true := by
  have leasedActive : job.state.isLeased = true → job.state.isActive = true := by
    intro leased
    simp [JobState.isActive, leased]
  cases moved with
  | kept | extended _ _ | saved _ | recorded _ _ | flagged _ _ => exact active
  | expired late => exact leasedActive (overdue_leased late)
  | claimed queued =>
      by_cases late : overdue clock job = true
      · exact leasedActive (overdue_leased late)
      · rw [settled, if_neg late] at queued
        simp [JobState.isActive, queued]
  | started _ leased _ => exact leasedActive (by rw [leased]; rfl)
  | retried _ leased | released _ leased | failed _ leased | cancelled _ leased =>
      exact leasedActive leased
  | published _ | cancelledQueued _ | deleted _ =>
      simp [JobState.isActive, JobState.isLeased, Jobs.published, Jobs.cancelled, tombstone,
        cleared] at active

theorem requestCancel_rows (db : Database π σ ρ) (target : JobId) (clock : Clock) :
    RowsMoved (RowStep clock (.requestCancel target : Call π σ ρ)) db
      (requestCancel db target clock).2 := by
  intro jobId
  constructor
  · intro job found
    exact step_row clock (.requestCancel target) found
  · intro absent
    simp only [requestCancel]
    split
    · exact absent
    · split
      · simp [Table.find?_update, absent]
      · split
        · split
          · exact absent
          · simp [Table.find?_update, absent]
        · exact absent

omit [EmptyCollection π] [EmptyCollection σ] in
theorem requestCancel_active {db : Database π σ ρ} (clock : Clock) {job : Job π σ}
    (found : db.jobs.find? job.id = some job) (active : job.state.isActive = true) :
    ((requestCancel db job.id clock).1 = .effective ∨
        (requestCancel db job.id clock).1 = .requested) ∧
      ∃ later, (requestCancel db job.id clock).2.jobs.find? job.id = some later ∧
        later.GivenUp ∧ (later.state.isActive = true →
          (requestCancel db job.id clock).1 = .requested) := by
  by_cases queued : job.state = .queued
  · simp only [requestCancel, found, if_pos queued]
    refine ⟨Or.inl trivial, cancelled clock job, ?_, rfl, ?_⟩
    · simp [Table.find?_update, found]
    · simp [Jobs.cancelled, cleared, JobState.isActive, JobState.isLeased]
  · have leased : job.state.isLeased = true := by
      simpa [JobState.isActive, queued] using active
    simp only [requestCancel, found, if_neg queued, if_pos leased]
    by_cases flag : job.cancelRequested = true
    · exact ⟨Or.inr trivial, job, by rw [if_pos flag]; exact found, flag, fun _ => trivial⟩
    · refine ⟨Or.inr trivial, flagged clock job, ?_, rfl, fun _ => trivial⟩
      rw [if_neg flag]
      simp [Table.find?_update, found]

end Rows

section Receipts

variable [EmptyCollection π] [EmptyCollection σ] {db : Database π σ ρ} {clock : Clock}
  {current : Option JobId}

/-- A stored receipt of an active job says that the cancellation was requested. -/
structure Honest (job : Job π σ) : Prop where
  lawful : job.status.Lawful
  receipt : ∀ outcome, job.cancelOutcome = some outcome → job.state.isActive = true →
    outcome = .requested ∧ job.GivenUp

theorem RowStep.honest {call : Call π σ ρ} {job later : Job π σ}
    (moved : RowStep clock call job later) (honest : Honest job) : Honest later where
  lawful := moved.lawful honest.lawful
  receipt outcome stored active := by
    rw [moved.cancelOutcome] at stored
    obtain ⟨requested, givenUp⟩ := honest.receipt outcome stored (moved.isActive active)
    exact ⟨requested, moved.givenUp givenUp⟩

omit [EmptyCollection π] in
theorem honest_newRow (new : NewJob π) (clock : Clock) : Honest (newRow new clock : Job π σ) where
  lawful := by simp [JobStatus.Lawful, Job.status, newRow]
  receipt outcome stored _ := by simp [newRow] at stored

/-- What a cancel does to a row before it stores its receipt. -/
def Asked (clock : Clock) (job later : Job π σ) : Prop :=
  later = job ∨ ∃ target, RowStep clock (.requestCancel target : Call π σ Unit) job later

theorem requestCancel_asked (db : Database π σ ρ) (target : JobId) (clock : Clock) :
    RowsMoved (Asked clock) db (requestCancel db target clock).2 := by
  refine (requestCancel_rows db target clock).mono fun job later moved => ?_
  cases moved with
  | kept => exact Or.inl rfl
  | cancelledQueued queued => exact Or.inr ⟨job.id, .cancelledQueued queued⟩
  | flagged leased unflagged => exact Or.inr ⟨job.id, .flagged leased unflagged⟩

theorem cancelRow_rows (db : Database π σ ρ) (current : Option JobId) (row : Job π σ)
    (clock : Clock) : RowsMoved (Asked clock) db (cancelRow db current row clock).2 := by
  have kept : RowsMoved (Asked clock) db db := .of_eq (fun job => Or.inl rfl) db
  unfold cancelRow
  split
  · exact kept
  · split
    · split
      · split
        · exact kept
        · exact requestCancel_asked db _ clock
      · exact requestCancel_asked db row.id clock
    · exact requestCancel_asked db row.id clock

omit [EmptyCollection π] [EmptyCollection σ] in
theorem cancelRow_active (current : Option JobId) (clock : Clock) {job : Job π σ} (active : job.state.isActive = true) :
    cancelRow db current job clock = requestCancel db job.id clock := by
  have notCancelled : job.state ≠ .cancelled := by
    intro same
    simp [same, JobState.isActive, JobState.isLeased] at active
  have notPublished : job.state ≠ .published := by
    intro same
    simp [same, JobState.isActive, JobState.isLeased] at active
  unfold cancelRow
  rw [if_neg notCancelled]
  cases current with
  | none => rfl
  | some successor => simp [notPublished]

theorem Asked.isActive {job later : Job π σ} (asked : Asked clock job later)
    (active : later.state.isActive = true) : job.state.isActive = true := by
  rcases asked with rfl | ⟨target, moved⟩
  · exact active
  · exact moved.isActive active

theorem Asked.honest {job later : Job π σ} (asked : Asked clock job later)
    (honest : Honest job) : Honest later := by
  rcases asked with rfl | ⟨target, moved⟩
  · exact honest
  · exact moved.honest honest

theorem cancelRow_receipt {job later : Job π σ} (found : db.jobs.find? job.id = some job)
    (after : (cancelRow db current job clock).2.jobs.find? job.id = some later)
    (active : later.state.isActive = true) :
    (cancelRow db current job clock).1 = .requested ∧ later.GivenUp := by
  obtain ⟨row, rowFound, asked⟩ := (cancelRow_rows db current job clock job.id).1 job found
  rw [after, Option.some.injEq] at rowFound
  subst rowFound
  have before := asked.isActive active
  rw [cancelRow_active current clock before] at after ⊢
  obtain ⟨-, row, rowFound, givenUp, requested⟩ := requestCancel_active clock found before
  rw [after, Option.some.injEq] at rowFound
  exact ⟨requested (rowFound ▸ active), rowFound ▸ givenUp⟩

omit [EmptyCollection π] [EmptyCollection σ] in
theorem withReceipt_find? {cancelled : CancelOutcome × Database π σ ρ} {target jobId : JobId}
    {later : Job π σ} (after : (withReceipt cancelled target).jobs.find? jobId = some later) :
    ∃ job, cancelled.2.jobs.find? jobId = some job ∧
      later = if job.id == target then receipted cancelled.1 job else job := by
  simp only [withReceipt, Table.find?_update, Option.map_eq_some_iff] at after
  obtain ⟨job, found, same⟩ := after
  exact ⟨job, found, same.symm⟩

theorem cancelLoaded_rows {next : Database π σ ρ} {target : JobId} {principal : PrincipalId}
    {outcome : CancelOutcome}
    (answered : cancelLoaded db current target principal clock = some (outcome, next)) :
    RowsMoved (fun job later => ∃ asked, Asked clock job asked ∧
      (later = asked ∨ later = receipted outcome asked)) db next := by
  obtain ⟨row, -, ⟨-, rfl⟩ | ⟨-, rfl, rfl⟩⟩ := cancelLoaded_cases answered
  · exact .of_eq (fun job => ⟨job, Or.inl rfl, Or.inl rfl⟩) next
  · have stored : RowsMoved (fun job later =>
        later = job ∨ later = receipted (cancelRow db current row clock).1 job)
        (cancelRow db current row clock).2
        (withReceipt (cancelRow db current row clock) target) := by
      apply update_moved
      intro job _
      split
      · exact Or.inr rfl
      · exact Or.inl rfl
    exact (cancelRow_rows db current row clock).trans stored
      fun job _ asked later before after => ⟨asked, before, after⟩

theorem cancelLoaded_honest {next : Database π σ ρ} {jobId target : JobId}
    {principal : PrincipalId} {outcome : CancelOutcome} {later : Job π σ}
    (honest : ∀ job ∈ db.jobs.rows, Honest job)
    (answered : cancelLoaded db current target principal clock = some (outcome, next))
    (after : next.jobs.find? jobId = some later) : Honest later := by
  obtain ⟨row, loaded, ⟨-, rfl⟩ | ⟨-, -, rfl⟩⟩ := cancelLoaded_cases answered
  · exact honest later (Table.mem_of_find? after)
  · have rowFound := (loadOwned_some loaded).1
    obtain rfl : row.id = target := Table.find?_key rowFound
    obtain ⟨asked, askedFound, rfl⟩ := withReceipt_find? after
    obtain ⟨job, found, moved⟩ := (cancelRow_rows db current row clock).earlier askedFound
    have kept := moved.honest (honest job (Table.mem_of_find? found))
    by_cases mine : asked.id = row.id
    · rw [if_pos (by simpa using mine)]
      refine ⟨kept.lawful, ?_⟩
      intro stored receipt active
      obtain rfl : asked.id = jobId := Table.find?_key askedFound
      rw [mine] at askedFound
      obtain ⟨requested, givenUp⟩ := cancelRow_receipt rowFound askedFound active
      exact ⟨(Option.some.inj receipt).symm.trans requested, givenUp⟩
    · rw [if_neg (by simpa using mine)]
      exact kept

omit [EmptyCollection π] [EmptyCollection σ] in
/-- A cancel of an active job of the caller is effective or requested, and the job is given up. -/
theorem cancelLoaded_active (current : Option JobId) (clock : Clock) {job : Job π σ}
    {principal : PrincipalId}
    (found : db.jobs.find? job.id = some job) (honest : Honest job)
    (mine : job.ownerId = some principal) (active : job.state.isActive = true) :
    ∃ outcome next, cancelLoaded db current job.id principal clock = some (outcome, next) ∧
      (outcome = .effective ∨ outcome = .requested) ∧
      ∃ later, next.jobs.find? job.id = some later ∧ later.GivenUp := by
  have present : job.state ≠ .deleted := by
    intro same
    simp [same, JobState.isActive, JobState.isLeased] at active
  have loaded : loadOwned db job.id principal = some job := by
    simp [loadOwned, found, Option.filter, mine, present]
  cases receipt : job.cancelOutcome with
  | some outcome =>
      obtain ⟨requested, givenUp⟩ := honest.receipt outcome receipt active
      refine ⟨outcome, db, ?_, Or.inr requested, job, found, givenUp⟩
      simp only [cancelLoaded, loaded, receipt]
  | none =>
      obtain ⟨taken, later, laterFound, givenUp, -⟩ :=
        requestCancel_active clock found active
      rw [← cancelRow_active current clock active] at taken laterFound
      have sameId : later.id = job.id := Table.find?_key laterFound
      refine ⟨(cancelRow db current job clock).1,
        withReceipt (cancelRow db current job clock) job.id, ?_, taken,
        receipted (cancelRow db current job clock).1 later, ?_, givenUp⟩
      · simp only [cancelLoaded, loaded, receipt]
      · simp [withReceipt, Table.find?_update, laterFound, sameId]

end Receipts

end Ovrly.Jobs
