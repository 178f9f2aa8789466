import Ovrly.Jobs.Calls

/-!
Fencing of the job queue over whole runs.

A run is any list of method calls at any clock readings, from the empty database: every
interleaving of any number of workers, owners and lease values is one such list.
-/

namespace Ovrly.Jobs

open Relational Runs

variable {π σ ρ : Type}

def Job.LeaseColumns (job : Job π σ) : Prop :=
  (job.leaseOwner.isSome ↔ job.state.isLeased = true) ∧
    (job.leaseExpiresAt.isSome ↔ job.state.isLeased = true)

/-- Cancelled and deleted jobs never run again. -/
def Job.Withdrawn (job : Job π σ) : Prop :=
  job.state = .cancelled ∨ job.state = .deleted

/-- The lease is not the current one of any row. -/
def Stale (db : Database π σ ρ) (lease : Lease) : Prop :=
  ∀ job, db.jobs.find? lease.jobId = some job →
    job.fencingToken ≠ lease.fencingToken ∨ job.generation ≠ lease.generation ∨
      job.leaseOwner ≠ some lease.workerId

def Answer.granted? : Answer π σ ρ → Option Lease
  | .claimed (some job) => some job.lease
  | _ => none

/-- The call answers that the job is cancelled for good, or deleted. -/
def Withdraws (jobId : JobId) : Call π σ ρ → Answer π σ ρ → Prop
  | .cancel lease, .done done => done = true ∧ lease.jobId = jobId
  | .requestCancel target, .outcome outcome => outcome = .effective ∧ target = jobId
  | .delete target, .done done => done = true ∧ target = jobId
  | _, _ => False

def Answer.published? : Answer π σ ρ → Option (PublishedResult ρ)
  | .published (.ok result) => some result
  | _ => none

variable [EmptyCollection π] [EmptyCollection σ]

theorem step_absent {db : Database π σ ρ} {clock : Clock} {call : Call π σ ρ} {jobId : JobId}
    {next : Job π σ} (absent : db.jobs.find? jobId = none)
    (found : (step db (clock, call)).jobs.find? jobId = some next) :
    ∃ new : NewJob π, next = newRow new clock := by
  cases call with
  | enqueue new =>
      simp only [step, perform] at found
      split at found
      · simp [absent] at found
      · rename_i accepted
        rcases enqueue_origin accepted found with earlier | inserted
        · simp [absent] at earlier
        · exact ⟨new, inserted⟩
  | publish lease result successors onPublish =>
      simp only [step, perform] at found
      rcases publish_cases db lease result successors onPublish clock with
        ⟨unchanged, _⟩ | ⟨_, _, _, _, _, _, enqueued, performed⟩
      · simp [unchanged, absent] at found
      · rw [performed] at found
        rcases enqueueAll_origin enqueued found with earlier | ⟨new, _, inserted⟩
        · simp [absent] at earlier
        · exact ⟨new, inserted⟩
  | claim workerId stages leaseSeconds locked =>
      simp only [step, perform, claim] at found
      repeat' split at found
      all_goals simp [absent] at found
  | start | heartbeat | saveStageData | fail | retry | recordRequestId | release | cancel =>
      simp only [step, perform, start, heartbeat, saveStageData, fail, retry, recordRequestId,
        release, cancel] at found
      repeat' split at found
      all_goals simp [find?_fencedUpdate, absent] at found
  | requestCancel | delete =>
      simp only [step, perform, requestCancel, delete] at found
      repeat' split at found
      all_goals simp [absent] at found

/-- The row of a key after a call comes from the row of that key before it, or was inserted. -/
theorem step_origin {db : Database π σ ρ} {clock : Clock} {call : Call π σ ρ} {jobId : JobId}
    {next : Job π σ} (found : (step db (clock, call)).jobs.find? jobId = some next) :
    (∃ job, db.jobs.find? jobId = some job ∧ RowStep clock call job next) ∨
      ∃ new : NewJob π, next = newRow new clock := by
  cases earlier : db.jobs.find? jobId with
  | some job =>
      obtain ⟨row, rowFound, moved⟩ := step_row clock call earlier
      rw [found, Option.some.injEq] at rowFound
      exact Or.inl ⟨job, rfl, rowFound ▸ moved⟩
  | none => exact Or.inr (step_absent earlier found)

section RowSteps

variable {clock : Clock} {call : Call π σ ρ} {job next : Job π σ}

theorem RowStep.leaseColumns (moved : RowStep clock call job next) (columns : job.LeaseColumns) :
    next.LeaseColumns := by
  obtain ⟨owner, deadline⟩ := columns
  cases moved with
  | kept => exact ⟨owner, deadline⟩
  | extended mine leased =>
      exact ⟨owner, by simp [Jobs.extended, leased]⟩
  | saved active => exact ⟨owner, deadline⟩
  | recorded mine leased => exact ⟨owner, deadline⟩
  | flagged leased unflagged => exact ⟨owner, deadline⟩
  | started mine leased unflagged =>
      simp only [leased, JobState.isLeased, iff_true] at owner deadline
      exact ⟨by simp [Jobs.started, JobState.isLeased, owner],
        by simp [Jobs.started, JobState.isLeased, deadline]⟩
  | claimed queued => exact ⟨by simp [leaseTo, JobState.isLeased], by simp [leaseTo, JobState.isLeased]⟩
  | expired late =>
      constructor <;> simp only [expire, cleared, returned] <;> split <;> simp [JobState.isLeased]
  | retried mine leased =>
      constructor <;> simp only [Jobs.retried, cleared, returned] <;> split <;>
        simp [JobState.isLeased]
  | released mine leased =>
      constructor <;> simp only [Jobs.released, cleared, returned] <;> split <;>
        simp [JobState.isLeased]
  | published _ => exact ⟨by simp [Jobs.published, cleared, JobState.isLeased],
      by simp [Jobs.published, cleared, JobState.isLeased]⟩
  | failed _ _ => exact ⟨by simp [Jobs.failed, cleared, JobState.isLeased],
      by simp [Jobs.failed, cleared, JobState.isLeased]⟩
  | cancelled _ _ | cancelledQueued _ => exact ⟨by simp [Jobs.cancelled, cleared, JobState.isLeased],
      by simp [Jobs.cancelled, cleared, JobState.isLeased]⟩
  | deleted _ => exact ⟨by simp [tombstone, cleared, JobState.isLeased],
      by simp [tombstone, cleared, JobState.isLeased]⟩

theorem RowStep.fencingToken_le (moved : RowStep clock call job next) :
    job.fencingToken ≤ next.fencingToken := by
  cases moved with
  | claimed queued =>
      simp only [leaseTo, settled_fencingToken]
      omega
  | _ => exact Nat.le_refl _

theorem RowStep.withdrawn (moved : RowStep clock call job next) (gone : job.Withdrawn) :
    next.Withdrawn := by
  have idle : job.state.isLeased = false := by
    rcases gone with state | state <;> rw [state] <;> rfl
  have notQueued : job.state ≠ .queued := by
    rcases gone with state | state <;> rw [state] <;> decide
  cases moved with
  | kept => exact gone
  | deleted _ => exact Or.inr rfl
  | expired late => simp [overdue, idle] at late
  | claimed queued => simp [settled, overdue, idle, notQueued] at queued
  | cancelledQueued queued => exact absurd queued notQueued
  | started _ leased _ => rw [leased] at idle; simp [JobState.isLeased] at idle
  | saved active | published active =>
      simp only [Jobs.active, Bool.and_eq_true, beq_iff_eq] at active
      rw [active.1.1.2] at idle
      simp [JobState.isLeased] at idle
  | extended _ leased | failed _ leased | retried _ leased | recorded _ leased
  | released _ leased | cancelled _ leased | flagged leased _ => simp [idle] at leased

end RowSteps

omit [EmptyCollection π] [EmptyCollection σ] in
theorem Stale.not_owned {db : Database π σ ρ} {lease : Lease} (stale : Stale db lease) :
    ∀ job ∈ db.jobs.rows, owned lease job = false := by
  intro job member
  by_contra mine
  simp only [Bool.not_eq_false] at mine
  have found := Table.find?_of_mem member
  rw [show Keyed.key job = lease.jobId from owned_id mine] at found
  simp only [owned, Bool.and_eq_true, beq_iff_eq] at mine
  rcases stale job found with token | generation | owner
  · exact token mine.1.2
  · exact generation mine.2
  · exact owner mine.1.1.2

/-- A call fenced on a stale lease changes nothing. -/
theorem step_stale {db : Database π σ ρ} {clock : Clock} {call : Call π σ ρ} {lease : Lease}
    (fenced : call.lease? = some lease) (stale : Stale db lease) :
    step db (clock, call) = db := by
  have foreign := stale.not_owned
  have inactive : ∀ job ∈ db.jobs.rows, active lease clock job = false := by
    intro job member
    simp [active, foreign job member]
  cases call with
  | enqueue | claim | requestCancel | delete => simp [Call.lease?] at fenced
  | publish =>
      simp only [Call.lease?, Option.some.injEq] at fenced
      subst fenced
      simp only [step, perform, publish]
      rw [List.find?_eq_none.mpr (by simpa using inactive)]
  | saveStageData =>
      simp only [Call.lease?, Option.some.injEq] at fenced
      subst fenced
      simp only [step, perform, saveStageData]
      rw [if_neg]
      rw [Table.rowcount, List.countP_eq_zero.mpr (by simpa using inactive)]
      decide
  | heartbeat =>
      simp only [Call.lease?, Option.some.injEq] at fenced
      subst fenced
      simp only [step, perform, heartbeat]
      rw [List.find?_eq_none.mpr]
      intro job member
      simp [foreign job member]
  | start =>
      simp only [Call.lease?, Option.some.injEq] at fenced
      subst fenced
      simp only [step, perform, start]
      rw [Table.update_eq_self]
      intro job member
      simp [foreign job member]
  | fail | retry | recordRequestId | release | cancel =>
      simp only [Call.lease?, Option.some.injEq] at fenced
      subst fenced
      simp only [step, perform, fail, retry, recordRequestId, release, cancel, fencedUpdate]
      rw [Table.update_eq_self]
      intro job member
      simp [foreign job member]

/-- A published result is fenced on the token, the generation and the owner of that moment. -/
theorem published_fenced {db : Database π σ ρ} {clock : Clock} {call : Call π σ ρ}
    {published : PublishedResult ρ}
    (answered : (perform db clock call).1.published? = some published) :
    ∃ job lease, db.jobs.find? published.jobId = some job ∧ call.lease? = some lease ∧
      lease.jobId = published.jobId ∧ active lease clock job = true ∧
      published.fencingToken = job.fencingToken ∧ published.generation = job.generation := by
  cases call with
  | publish lease result successors onPublish =>
      simp only [perform] at answered
      rcases publish_cases db lease result successors onPublish clock with
        ⟨_, error, refused⟩ | ⟨job, _, _, found, chosen, _, _, performed⟩
      · rw [refused] at answered
        simp [Answer.published?] at answered
      · rw [performed] at answered
        simp only [Answer.published?, Option.some.injEq] at answered
        have mine := chosen
        simp only [active, owned, Bool.and_eq_true, beq_iff_eq] at mine
        subst answered
        exact ⟨job, lease, found, rfl, rfl, chosen, mine.1.1.1.1.2.symm, mine.1.1.1.2.symm⟩
  | enqueue =>
      simp only [perform] at answered
      split at answered <;> simp [Answer.published?] at answered
  | _ => simp [perform, Answer.published?] at answered

theorem granted_fresh {db : Database π σ ρ} {clock : Clock} {call : Call π σ ρ} {lease : Lease}
    (answered : (perform db clock call).1.granted? = some lease) :
    ∃ job next, db.jobs.find? lease.jobId = some job ∧
      (step db (clock, call)).jobs.find? lease.jobId = some next ∧
      lease.fencingToken = job.fencingToken + 1 ∧ next.fencingToken = lease.fencingToken := by
  cases call with
  | claim workerId stages leaseSeconds locked =>
      simp only [perform] at answered
      cases claimed : (claim db workerId stages leaseSeconds locked clock).1 with
      | none => simp [claimed, Answer.granted?] at answered
      | some granted =>
          simp only [claimed, Answer.granted?, Option.some.injEq] at answered
          obtain ⟨job, next, found, nextFound, leased, answer⟩ := claim_granted claimed
          subst answered
          refine ⟨job, next, found, nextFound, ?_, ?_⟩
          · rw [answer, leased]
            simp [claimedJob, leaseTo]
          · rw [answer]
            rfl
  | enqueue =>
      simp only [perform] at answered
      split at answered <;> simp [Answer.granted?] at answered
  | _ => simp [perform, Answer.granted?] at answered

theorem withdraws_row {db : Database π σ ρ} {clock : Clock} {call : Call π σ ρ} {jobId : JobId}
    (answered : Withdraws jobId call (perform db clock call).1) :
    ∃ job, (step db (clock, call)).jobs.find? jobId = some job ∧ job.Withdrawn := by
  cases call with
  | cancel lease =>
      obtain ⟨done, rfl⟩ := answered
      simp only [cancel, fencedUpdate, beq_iff_eq] at done
      have pinned : ∀ row : Job π σ, (owned lease row && row.state.isLeased) = true →
          Keyed.key row = lease.jobId := by
        intro row chosen
        simp only [Bool.and_eq_true] at chosen
        exact owned_id chosen.1
      obtain ⟨job, found, chosen⟩ := (Table.rowcount_eq_one pinned).mp done
      refine ⟨cancelled clock job, ?_, Or.inl rfl⟩
      simp only [step, perform, cancel, find?_fencedUpdate, found, Option.map_some, chosen, if_true]
  | requestCancel target =>
      obtain ⟨effective, rfl⟩ := answered
      simp only [step, perform, requestCancel] at effective ⊢
      split at effective
      · simp at effective
      · rename_i job found
        split at effective
        · rename_i queued
          have sameId : (job.id == target) = true := beq_iff_eq.mpr (Table.find?_key found)
          refine ⟨cancelled clock job, ?_, Or.inl rfl⟩
          simp only [queued, if_true, Table.find?_update, found, Option.map_some, sameId]
        · split at effective <;> simp at effective
  | delete target =>
      obtain ⟨done, rfl⟩ := answered
      simp only [step, perform, delete] at done ⊢
      split at done
      · rename_i counted
        have pinned : ∀ row : Job π σ, (row.id == target && row.state != .deleted) = true →
            Keyed.key row = target := by
          intro row chosen
          simp only [Bool.and_eq_true, beq_iff_eq] at chosen
          exact chosen.1
        obtain ⟨job, found, chosen⟩ := (Table.rowcount_eq_one pinned).mp counted
        refine ⟨tombstone clock job, ?_, Or.inr rfl⟩
        simp only [counted, if_true, Table.find?_update, found, Option.map_some, chosen]
      · simp at done
  | _ => simp [Withdraws] at answered

/-! What one call preserves, a whole run preserves. -/

def history (calls : List (Clock × Call π σ ρ)) : Database π σ ρ :=
  exec step Database.empty calls

theorem history_append (earlier later : List (Clock × Call π σ ρ)) :
    history (earlier ++ later) = exec step (history earlier) later :=
  exec_append _ _ _

/-- Every row of the first database is still there, with no smaller token, and a withdrawn job
is still withdrawn. -/
def Advances (db later : Database π σ ρ) : Prop :=
  ∀ jobId job, db.jobs.find? jobId = some job →
    ∃ next, later.jobs.find? jobId = some next ∧ job.fencingToken ≤ next.fencingToken ∧
      (job.Withdrawn → next.Withdrawn)

omit [EmptyCollection π] [EmptyCollection σ] in
theorem Advances.refl (db : Database π σ ρ) : Advances db db :=
  fun _ job found => ⟨job, found, Nat.le_refl _, id⟩

omit [EmptyCollection π] [EmptyCollection σ] in
theorem Advances.trans {first second third : Database π σ ρ} (before : Advances first second)
    (after : Advances second third) : Advances first third := by
  intro jobId job found
  obtain ⟨middle, middleFound, grows, keeps⟩ := before jobId job found
  obtain ⟨last, lastFound, growsOn, keepsOn⟩ := after jobId middle middleFound
  exact ⟨last, lastFound, Nat.le_trans grows growsOn, keepsOn ∘ keeps⟩

theorem step_advances (db : Database π σ ρ) (call : Clock × Call π σ ρ) :
    Advances db (step db call) := by
  intro jobId job found
  obtain ⟨next, nextFound, moved⟩ := step_row call.1 call.2 found
  exact ⟨next, nextFound, moved.fencingToken_le, moved.withdrawn⟩

theorem exec_advances (db : Database π σ ρ) (calls : List (Clock × Call π σ ρ)) :
    Advances db (exec step db calls) :=
  exec_relation (fun _ => True) Advances.refl Advances.trans
    (fun _ _ _ => trivial) (fun db call _ => step_advances db call) trivial calls

theorem history_leaseColumns (calls : List (Clock × Call π σ ρ)) :
    ∀ jobId job, (history calls).jobs.find? jobId = some job → job.LeaseColumns := by
  refine exec_invariant (fun db : Database π σ ρ =>
    ∀ jobId job, db.jobs.find? jobId = some job → job.LeaseColumns) ?_ ?_ calls
  · rintro db ⟨clock, call⟩ columns jobId next found
    rcases step_origin found with ⟨job, earlier, moved⟩ | ⟨new, inserted⟩
    · exact moved.leaseColumns (columns jobId job earlier)
    · rw [inserted]
      simp [Job.LeaseColumns, newRow, JobState.isLeased]
  · intro jobId job found
    simp [Database.empty, Table.find?_empty] at found

omit [EmptyCollection π] [EmptyCollection σ] in
theorem Job.Withdrawn.not_active {lease : Lease} {clock : Clock} {job : Job π σ}
    (gone : job.Withdrawn) : active lease clock job = false := by
  rcases gone with state | state <;> simp [active, state]

theorem withdrawn_unpublished {db : Database π σ ρ} {jobId : JobId} {gone : Job π σ}
    (found : db.jobs.find? jobId = some gone) (withdrawn : gone.Withdrawn)
    (later : List (Clock × Call π σ ρ)) {clock : Clock} {call : Call π σ ρ}
    {published : PublishedResult ρ}
    (answered : (perform (exec step db later) clock call).1.published? = some published) :
    published.jobId ≠ jobId := by
  intro same
  obtain ⟨job, lease, current, _, _, mine, _⟩ := published_fenced answered
  obtain ⟨last, lastFound, _, keeps⟩ := exec_advances db later jobId gone found
  rw [same, lastFound, Option.some.injEq] at current
  subst current
  rw [(keeps withdrawn).not_active] at mine
  exact absurd mine Bool.false_ne_true

/-- Over every run: tokens of one job grow with each claim, a call under a stale lease changes
nothing, a job has one result at most, published under the lease of that moment and never after
the job was withdrawn, and the lease columns are set exactly while the job is leased. -/
theorem queue_fenced (earlier : List (Clock × Call π σ ρ)) :
    (∀ later clock call lease,
      (perform (history (earlier ++ later)) clock call).1.granted? = some lease →
      ∀ job, (history earlier).jobs.find? lease.jobId = some job →
        job.fencingToken < lease.fencingToken) ∧
    (∀ clock call later clock' call' lease lease',
      (perform (history earlier) clock call).1.granted? = some lease →
      (perform (history (earlier ++ (clock, call) :: later)) clock' call').1.granted? =
        some lease' →
      lease'.jobId = lease.jobId → lease.fencingToken < lease'.fencingToken) ∧
    (∀ clock call lease, call.lease? = some lease → Stale (history earlier) lease →
      step (history earlier) (clock, call) = history earlier) ∧
    (∀ jobId, ((history earlier).results.rows.filter (·.jobId == jobId)).length ≤ 1) ∧
    (∀ clock call published,
      (perform (history earlier) clock call).1.published? = some published →
      ∃ job lease, (history earlier).jobs.find? published.jobId = some job ∧
        call.lease? = some lease ∧ lease.jobId = published.jobId ∧
        active lease clock job = true ∧ published.fencingToken = job.fencingToken ∧
        published.generation = job.generation) ∧
    (∀ clock call jobId, Withdraws jobId call (perform (history earlier) clock call).1 →
      ∀ later clock' call' published,
        (perform (history (earlier ++ (clock, call) :: later)) clock' call').1.published? =
          some published →
        published.jobId ≠ jobId) ∧
    (∀ jobId job, (history earlier).jobs.find? jobId = some job →
      job.state = .cancelled ∨ job.state = .deleted →
      ∀ later clock call published,
        (perform (history (earlier ++ later)) clock call).1.published? = some published →
        published.jobId ≠ jobId) ∧
    (∀ job ∈ (history earlier).jobs.rows,
      (job.leaseOwner.isSome ↔ job.state = .leased ∨ job.state = .running) ∧
      (job.leaseExpiresAt.isSome ↔ job.state = .leased ∨ job.state = .running)) := by
  refine ⟨?_, ?_, ?_, ?_, ?_, ?_, ?_, ?_⟩
  · intro later clock call lease granted job found
    obtain ⟨row, _, rowFound, _, raised, _⟩ := granted_fresh granted
    rw [history_append] at rowFound
    obtain ⟨last, lastFound, grows, _⟩ := exec_advances _ later lease.jobId job found
    rw [lastFound, Option.some.injEq] at rowFound
    subst rowFound
    omega
  · intro clock call later clock' call' lease lease' granted granted' same
    obtain ⟨_, next, _, nextFound, _, token⟩ := granted_fresh granted
    obtain ⟨job, _, found, _, raised, _⟩ := granted_fresh granted'
    rw [history_append, exec_cons, same] at found
    obtain ⟨last, lastFound, grows, _⟩ := exec_advances _ later lease.jobId next nextFound
    rw [found, Option.some.injEq] at lastFound
    subst lastFound
    omega
  · intro clock call lease fenced stale
    exact step_stale fenced stale
  · exact fun jobId => (history earlier).results.length_filter_key jobId
  · intro clock call published answered
    exact published_fenced answered
  · intro clock call jobId answered later clock' call' published answered'
    obtain ⟨gone, found, withdrawn⟩ := withdraws_row answered
    rw [history_append, exec_cons] at answered'
    exact withdrawn_unpublished found withdrawn later answered'
  · intro jobId job found withdrawn later clock call published answered
    rw [history_append] at answered
    exact withdrawn_unpublished found withdrawn later answered
  · intro job member
    have columns := history_leaseColumns earlier _ job (Table.find?_of_mem member)
    have leased : job.state.isLeased = true ↔ job.state = .leased ∨ job.state = .running := by
      cases job.state <;> simp [JobState.isLeased]
    rwa [← leased]

end Ovrly.Jobs
