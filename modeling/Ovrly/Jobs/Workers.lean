import Mathlib
import Ovrly.Jobs.Calls

/-!
The queue together with the jobs its workers were handed.

Publication is orchestrated outside the queue, by functions that lock other rows first and
enqueue successors in the same transaction. What those functions rely on is stated here once:
what the work between enqueueing and publishing can change in a row, and what a transaction
does to the whole table.
-/

namespace Ovrly.Jobs

open Relational

variable {π σ ρ : Type}

structure SameJob (job next : Job π σ) : Prop where
  id : next.id = job.id
  key : next.key = job.key
  payload : next.payload = job.payload
  ownerId : next.ownerId = job.ownerId

/-- The row of one job, whose earlier leases do not become current again. -/
structure Lasting (job next : Job π σ) : Prop extends SameJob job next where
  token : job.fencingToken ≤ next.fencingToken
  fenced : ∀ lease : Lease, lease.fencingToken ≤ job.fencingToken → owned lease next = true →
    owned lease job = true

/-- What a call that neither enqueues, publishes nor deletes can do to a row. -/
structure Works (job next : Job π σ) : Prop extends Lasting job next where
  published : next.state = .published ↔ job.state = .published
  terminal : job.state.isTerminal = true → next.state = job.state
  requested : job.cancelRequested = true → next.cancelRequested = true
  outcome : next.cancelOutcome = job.cancelOutcome

theorem SameJob.refl (job : Job π σ) : SameJob job job := ⟨rfl, rfl, rfl, rfl⟩

theorem SameJob.trans {first second third : Job π σ} (same : SameJob first second)
    (further : SameJob second third) : SameJob first third where
  id := further.id.trans same.id
  key := further.key.trans same.key
  payload := further.payload.trans same.payload
  ownerId := further.ownerId.trans same.ownerId

theorem Lasting.refl (job : Job π σ) : Lasting job job :=
  ⟨.refl job, le_refl _, fun _ _ => id⟩

theorem Lasting.trans {first second third : Job π σ} (lasting : Lasting first second)
    (further : Lasting second third) : Lasting first third where
  toSameJob := lasting.toSameJob.trans further.toSameJob
  token := lasting.token.trans further.token
  fenced lease known mine :=
    lasting.fenced lease known (further.fenced lease (known.trans lasting.token) mine)

theorem owned_leaseOwner {lease : Lease} {job : Job π σ} (mine : owned lease job = true) :
    job.leaseOwner = some lease.workerId := by
  simp only [owned, Bool.and_eq_true, beq_iff_eq] at mine
  exact mine.1.1.2

theorem lasting_of_cleared {job next : Job π σ} (same : SameJob job next)
    (token : next.fencingToken = job.fencingToken) (free : next.leaseOwner = none) :
    Lasting job next where
  toSameJob := same
  token := token.ge
  fenced lease _ mine := by
    have owner := owned_leaseOwner mine
    rw [free] at owner
    cases owner

theorem lasting_of_kept {job next : Job π σ} (same : SameJob job next)
    (token : next.fencingToken = job.fencingToken) (owner : next.leaseOwner = job.leaseOwner)
    (generation : next.generation = job.generation) : Lasting job next where
  toSameJob := same
  token := token.ge
  fenced lease _ mine := by
    unfold owned at mine ⊢
    rwa [same.id, owner, token, generation] at mine

theorem Works.refl (job : Job π σ) : Works job job :=
  ⟨.refl job, Iff.rfl, fun _ => rfl, id, rfl⟩

theorem Works.trans {first second third : Job π σ} (works : Works first second)
    (further : Works second third) : Works first third where
  toLasting := works.toLasting.trans further.toLasting
  published := further.published.trans works.published
  terminal ended := by
    have kept := works.terminal ended
    rw [further.terminal (by rw [kept]; exact ended), kept]
  requested asked := further.requested (works.requested asked)
  outcome := further.outcome.trans works.outcome

/-- The calls of a worker or an owner on a job that is neither enqueued, published nor
deleted by them. -/
def Call.isWork : Call π σ ρ → Bool
  | .enqueue _ | .publish _ _ _ _ | .delete _ => false
  | _ => true

section Rows

variable {clock : Clock} {job next : Job π σ}

theorem isLeased_iff {state : JobState} :
    state.isLeased = true ↔ state = .leased ∨ state = .running := by
  cases state <;> simp [JobState.isLeased]

theorem works_of_ongoing (lasting : Lasting job next) (ongoing : job.state.isTerminal = false)
    (unpublished : next.state ≠ .published)
    (requested : job.cancelRequested = true → next.cancelRequested = true)
    (outcome : next.cancelOutcome = job.cancelOutcome) : Works job next where
  toLasting := lasting
  published := by
    constructor
    · intro published
      exact absurd published unpublished
    · intro published
      rw [published] at ongoing
      cases ongoing
  terminal ended := by
    rw [ongoing] at ended
    cases ended
  requested := requested
  outcome := outcome

theorem not_terminal_of_leased (leased : job.state.isLeased = true) :
    job.state.isTerminal = false := by
  rcases isLeased_iff.mp leased with state | state <;> rw [state] <;> rfl

theorem works_expire (clock : Clock) (leased : job.state.isLeased = true) :
    Works job (expire clock job) := by
  refine works_of_ongoing (lasting_of_cleared ⟨rfl, rfl, rfl, rfl⟩ rfl rfl)
    (not_terminal_of_leased leased) ?_ id rfl
  simp only [expire, cleared, returned]
  split <;> simp

theorem works_settled (clock : Clock) (job : Job π σ) : Works job (settled clock job) := by
  unfold settled
  split
  · rename_i late
    simp only [overdue, Bool.and_eq_true] at late
    exact works_expire clock late.1
  · exact .refl job

/-- Only a new lease becomes current. -/
theorem lasting_leaseTo (workerId : String) (leaseSeconds : Time) (clock : Clock)
    (job : Job π σ) : Lasting job (leaseTo workerId leaseSeconds clock job) where
  toSameJob := ⟨rfl, rfl, rfl, rfl⟩
  token := Nat.le_succ _
  fenced lease known mine := by
    simp only [owned, leaseTo, Bool.and_eq_true, beq_iff_eq] at mine
    omega

theorem RowStep.works [EmptyCollection π] [EmptyCollection σ] {call : Call π σ ρ}
    (moved : RowStep clock call job next)
    (work : call.isWork = true) : Works job next := by
  cases moved with
  | kept => exact .refl job
  | expired late =>
      have settles := works_settled clock job
      rwa [settled, if_pos late] at settles
  | @claimed workerId stages leaseSeconds locked _ queued =>
      apply (works_settled clock job).trans
      exact works_of_ongoing (lasting_leaseTo workerId leaseSeconds clock _) (by rw [queued]; rfl)
        (by simp [leaseTo]) id rfl
  | started _ leased _ =>
      exact works_of_ongoing (lasting_of_kept ⟨rfl, rfl, rfl, rfl⟩ rfl rfl rfl)
        (by rw [leased]; rfl) (by simp [Jobs.started]) id rfl
  | extended _ leased =>
      exact ⟨lasting_of_kept ⟨rfl, rfl, rfl, rfl⟩ rfl rfl rfl, Iff.rfl, fun _ => rfl, id, rfl⟩
  | saved _ =>
      exact ⟨lasting_of_kept ⟨rfl, rfl, rfl, rfl⟩ rfl rfl rfl, Iff.rfl, fun _ => rfl, id, rfl⟩
  | published _ => cases work
  | failed _ leased =>
      exact works_of_ongoing (lasting_of_cleared ⟨rfl, rfl, rfl, rfl⟩ rfl rfl)
        (not_terminal_of_leased leased) (by simp [Jobs.failed, cleared]) id rfl
  | retried _ leased =>
      refine works_of_ongoing (lasting_of_cleared ⟨rfl, rfl, rfl, rfl⟩ rfl rfl)
        (not_terminal_of_leased leased) ?_ id rfl
      simp only [Jobs.retried, cleared, returned]
      split <;> simp
  | recorded _ _ =>
      exact ⟨lasting_of_kept ⟨rfl, rfl, rfl, rfl⟩ rfl rfl rfl, Iff.rfl, fun _ => rfl, id, rfl⟩
  | released _ leased => exact works_expire clock leased
  | cancelled _ leased =>
      exact works_of_ongoing (lasting_of_cleared ⟨rfl, rfl, rfl, rfl⟩ rfl rfl)
        (not_terminal_of_leased leased) (by simp [Jobs.cancelled, cleared]) (fun _ => rfl) rfl
  | cancelledQueued queued =>
      exact works_of_ongoing (lasting_of_cleared ⟨rfl, rfl, rfl, rfl⟩ rfl rfl)
        (by rw [queued]; rfl) (by simp [Jobs.cancelled, cleared]) (fun _ => rfl) rfl
  | flagged leased _ =>
      exact ⟨lasting_of_kept ⟨rfl, rfl, rfl, rfl⟩ rfl rfl rfl, Iff.rfl, fun _ => rfl,
        fun _ => rfl, rfl⟩
  | deleted _ => cases work

end Rows

section Tables

def Moved (related : Job π σ → Job π σ → Prop) (db later : Database π σ ρ) : Prop :=
  List.Forall₂ related db.jobs.rows later.jobs.rows

theorem Moved.refl {related : Job π σ → Job π σ → Prop} (reflexive : ∀ job, related job job)
    (db : Database π σ ρ) : Moved related db db :=
  List.forall₂_same.mpr fun job _ => reflexive job

theorem Moved.trans {related : Job π σ → Job π σ → Prop} {first second third : Database π σ ρ}
    (transitive : ∀ {one two three}, related one two → related two three → related one three)
    (moved : Moved related first second) (further : Moved related second third) :
    Moved related first third := by
  unfold Moved at moved further ⊢
  generalize first.jobs.rows = one at moved
  generalize second.jobs.rows = two at moved further
  generalize third.jobs.rows = three at further
  induction moved generalizing three with
  | nil =>
      cases further
      exact .nil
  | cons step _ ih =>
      cases further with
      | cons next rest => exact .cons (transitive step next) (ih _ rest)

variable [EmptyCollection π] [EmptyCollection σ]

theorem work_ids {db : Database π σ ρ} {clock : Clock} {call : Call π σ ρ}
    (work : call.isWork = true) :
    (step db (clock, call)).jobs.rows.map Keyed.key = db.jobs.rows.map Keyed.key := by
  cases call with
  | enqueue _ | publish _ _ _ _ | delete _ => cases work
  | claim workerId stages leaseSeconds locked =>
      have expired := Table.keys_update db.jobs (overdue clock) (expire clock) (expire_id clock)
      simp only [step, perform, claim]
      split
      · rfl
      · split
        · exact expired
        · rename_i best _
          exact (Table.keys_update _ (fun row => row.id == best.id)
            (leaseTo workerId leaseSeconds clock) (leaseTo_id workerId leaseSeconds clock)).trans
            expired
  | heartbeat lease leaseSeconds =>
      simp only [step, perform, heartbeat]
      split
      · rfl
      · exact Table.keys_update _ _ (extended leaseSeconds clock) (extended_id leaseSeconds clock)
  | saveStageData lease data =>
      simp only [step, perform, saveStageData]
      split
      · exact Table.keys_update _ _ (saved data clock) (saved_id data clock)
      · rfl
  | requestCancel jobId =>
      simp only [step, perform, requestCancel]
      split
      · rfl
      · split
        · exact Table.keys_update _ _ (cancelled clock) (cancelled_id clock)
        · split
          · split
            · rfl
            · exact Table.keys_update _ _ (flagged clock) (flagged_id clock)
          · rfl
  | start lease => exact Table.keys_update _ _ (started clock) (started_id clock)
  | fail lease reason retryClass =>
      exact Table.keys_update _ _ (failed reason retryClass clock)
        (failed_id reason retryClass clock)
  | retry lease retryClass delaySeconds =>
      exact Table.keys_update _ _ (retried retryClass delaySeconds clock)
        (retried_id retryClass delaySeconds clock)
  | recordRequestId lease requestId =>
      exact Table.keys_update _ _ (recorded requestId clock) (recorded_id requestId clock)
  | release lease => exact Table.keys_update _ _ (released clock) (released_id clock)
  | cancel lease => exact Table.keys_update _ _ (cancelled clock) (cancelled_id clock)

theorem work_moved {db : Database π σ ρ} {clock : Clock} {call : Call π σ ρ}
    (work : call.isWork = true) : Moved Works db (step db (clock, call)) := by
  apply Table.forall₂_of_find? (work_ids work)
  intro job member
  obtain ⟨next, found, moved⟩ := step_row clock call (Table.find?_of_mem member)
  exact ⟨next, found, moved.works work⟩

theorem requestCancel_moved (db : Database π σ ρ) (jobId : JobId) (clock : Clock) :
    Moved Works db (requestCancel db jobId clock).2 := by
  have work : (Call.requestCancel jobId : Call π σ ρ).isWork = true := rfl
  exact work_moved work

end Tables

section Insertions

variable [EmptyCollection σ] {db next : Database π σ ρ} {clock : Clock}

/-- No two jobs have the same stage key (`uq_jobs_stage_key`). -/
def Database.KeysUnique (db : Database π σ ρ) : Prop := (db.jobs.rows.map Job.key).Nodup

omit [EmptyCollection σ] in
theorem Database.KeysUnique.eq (unique : db.KeysUnique) {first second : Job π σ}
    (member : first ∈ db.jobs.rows) (other : second ∈ db.jobs.rows)
    (same : first.key = second.key) : first = second :=
  List.inj_on_of_nodup_map unique member other same

theorem enqueue_rows {new : NewJob π} {answer : Enqueued}
    (accepted : enqueue db new clock = .ok (answer, next)) :
    (∃ existing ∈ db.jobs.rows, existing.key = new.key ∧ answer = ⟨existing.id, false⟩ ∧
        next = db) ∨
      (∀ job ∈ db.jobs.rows, job.key ≠ new.key) ∧ answer = ⟨new.id, true⟩ ∧
        next.jobs.rows = db.jobs.rows ++ [newRow new clock] := by
  unfold enqueue at accepted
  cases found : db.jobs.rows.find? (·.key == new.key) with
  | some existing =>
      simp only [found] at accepted
      split at accepted
      · simp only [Except.ok.injEq, Prod.mk.injEq] at accepted
        left
        exact ⟨existing, List.mem_of_find?_eq_some found, by simpa using List.find?_some found,
          accepted.1.symm, accepted.2.symm⟩
      · cases accepted
  | none =>
      simp only [found] at accepted
      split at accepted
      · cases accepted
      · rename_i jobs inserted
        simp only [Except.ok.injEq, Prod.mk.injEq] at accepted
        right
        refine ⟨?_, accepted.1.symm, ?_⟩
        · intro job member
          simpa using List.find?_eq_none.mp found job member
        · rw [← accepted.2]
          exact Table.rows_insert? inserted

theorem enqueue_keysUnique {new : NewJob π} {answer : Enqueued} (unique : db.KeysUnique)
    (accepted : enqueue db new clock = .ok (answer, next)) : next.KeysUnique := by
  rcases enqueue_rows accepted with ⟨_, _, _, _, rfl⟩ | ⟨fresh, -, rows⟩
  · exact unique
  · unfold Database.KeysUnique
    rw [rows, List.map_append, List.nodup_append]
    refine ⟨unique, List.nodup_singleton _, ?_⟩
    intro key member other last same
    obtain ⟨job, belongs, rfl⟩ := List.mem_map.mp member
    rw [List.map_singleton, List.mem_singleton] at last
    rw [last] at same
    exact fresh job belongs same

structure Enqueues (clock : Clock) (news : List (NewJob π)) (db next : Database π σ ρ) :
    Prop where
  rows : ∃ added, next.jobs.rows = db.jobs.rows ++ added ∧
    ∀ job ∈ added, ∃ new ∈ news, job = newRow new clock
  taken : ∀ new ∈ news, ∃ job ∈ next.jobs.rows, job.key = new.key
  unique : db.KeysUnique → next.KeysUnique

theorem enqueueAll_rows {news : List (NewJob π)}
    (accepted : enqueueAll db news clock = .ok next) : Enqueues clock news db next := by
  induction news generalizing db with
  | nil =>
      rw [enqueueAll_nil, Except.ok.injEq] at accepted
      rw [← accepted]
      exact ⟨⟨[], by simp, by simp⟩, by simp, id⟩
  | cons new rest ih =>
      rw [enqueueAll_cons] at accepted
      cases first : enqueue db new clock with
      | error refused => simp [first] at accepted
      | ok answer =>
          rw [first] at accepted
          have tail := ih accepted
          obtain ⟨added, rows, origin⟩ := tail.rows
          have unique : db.KeysUnique → next.KeysUnique :=
            fun before => tail.unique (enqueue_keysUnique before first)
          rcases enqueue_rows first with ⟨existing, member, key, -, same⟩ | ⟨-, -, inserted⟩
          · rw [same] at rows
            refine ⟨⟨added, rows, ?_⟩, ?_, unique⟩
            · intro job belongs
              obtain ⟨other, listed, equal⟩ := origin job belongs
              exact ⟨other, List.mem_cons_of_mem _ listed, equal⟩
            · intro other listed
              rcases List.mem_cons.mp listed with rfl | later
              · exact ⟨existing, by rw [rows]; exact List.mem_append_left _ member, key⟩
              · exact tail.taken other later
          · rw [inserted, List.append_assoc] at rows
            refine ⟨⟨[newRow new clock] ++ added, rows, ?_⟩, ?_, unique⟩
            · intro job belongs
              rcases List.mem_append.mp belongs with first | later
              · exact ⟨new, List.mem_cons_self, List.mem_singleton.mp first⟩
              · obtain ⟨other, listed, equal⟩ := origin job later
                exact ⟨other, List.mem_cons_of_mem _ listed, equal⟩
            · intro other listed
              rcases List.mem_cons.mp listed with rfl | later
              · exact ⟨newRow other clock, by rw [rows]; simp, rfl⟩
              · exact tail.taken other later

theorem enqueue_enqueues {new : NewJob π} {answer : Enqueued}
    (accepted : enqueue db new clock = .ok (answer, next)) : Enqueues clock [new] db next := by
  apply enqueueAll_rows
  rw [enqueueAll_cons, accepted]
  exact enqueueAll_nil next clock

def publishedRow (lease : Lease) (clock : Clock) (job : Job π σ) : Job π σ :=
  if active lease clock job then published clock job else job

omit [EmptyCollection σ] in
theorem publishedRow_lasting (lease : Lease) (clock : Clock) (job : Job π σ) :
    Lasting job (publishedRow lease clock job) := by
  unfold publishedRow
  split
  · exact lasting_of_cleared ⟨rfl, rfl, rfl, rfl⟩ rfl rfl
  · exact .refl job

structure Publishes (lease : Lease) (clock : Clock) (news : List (NewJob π))
    (db next : Database π σ ρ) : Prop where
  holder : ∃ job ∈ db.jobs.rows, active lease clock job = true
  rows : ∃ added, next.jobs.rows = db.jobs.rows.map (publishedRow lease clock) ++ added ∧
    ∀ job ∈ added, ∃ new ∈ news, job = newRow new clock
  taken : ∀ new ∈ news, ∃ job ∈ next.jobs.rows, job.key = new.key
  unique : db.KeysUnique → next.KeysUnique

theorem publish_rows {lease : Lease} {result : ρ} {successors : List (NewJob π)}
    {onPublish : OnPublish π} {answer : PublishedResult ρ}
    (accepted : publish db lease result successors onPublish clock = (.ok answer, next)) :
    Publishes lease clock (successors ++ onPublish.enqueues) db next := by
  rcases publish_cases db lease result successors onPublish clock with
    ⟨-, error, refused⟩ | ⟨job, results, later, found, holds, -, enqueued, performed⟩
  · rw [accepted] at refused
    cases refused
  · rw [accepted, Prod.mk.injEq] at performed
    obtain ⟨-, rfl⟩ := performed
    have added := enqueueAll_rows enqueued
    refine ⟨⟨job, Table.mem_of_find? found, holds⟩, added.rows, added.taken, ?_⟩
    intro unique
    apply added.unique
    have keys : (db.jobs.rows.map (publishedRow lease clock)).map Job.key =
        db.jobs.rows.map Job.key := by
      rw [List.map_map]
      apply List.map_congr_left
      intro row _
      exact (publishedRow_lasting lease clock row).key
    exact (congrArg List.Nodup keys).mpr unique

/-- A publication without successors publishes one row. -/
theorem publish_alone {lease : Lease} {result : ρ} {answer : PublishedResult ρ}
    (accepted : publish db lease result [] {} clock = (.ok answer, next)) :
    (∃ job ∈ db.jobs.rows, active lease clock job = true) ∧
      next.jobs.rows = db.jobs.rows.map (publishedRow lease clock) ∧
      (db.KeysUnique → next.KeysUnique) := by
  have publishes := publish_rows accepted
  obtain ⟨added, rows, origin⟩ := publishes.rows
  have nothing : added = [] := by
    apply List.eq_nil_iff_forall_not_mem.mpr
    intro job member
    obtain ⟨new, listed, -⟩ := origin job member
    simp at listed
  rw [nothing, List.append_nil] at rows
  exact ⟨publishes.holder, rows, publishes.unique⟩

omit [EmptyCollection σ] in
theorem active_running {lease : Lease} {job : Job π σ} (holds : active lease clock job = true) :
    job.id = lease.jobId ∧ job.state = .running ∧ job.cancelRequested = false := by
  simp only [active, Bool.and_eq_true, beq_iff_eq, Bool.not_eq_true'] at holds
  exact ⟨owned_id holds.1.1.1, holds.1.1.2, holds.1.2⟩

theorem publishedRow_new (lease : Lease) (new : NewJob π) (clock other : Clock) :
    publishedRow lease clock (newRow (σ := σ) new other) = newRow new other := by
  unfold publishedRow
  rw [if_neg]
  intro holds
  have running := (active_running holds).2.1
  simp [newRow] at running

theorem publish_refused {lease : Lease} {result : ρ} {successors : List (NewJob π)}
    {onPublish : OnPublish π} {error : PublishError}
    (refused : (publish db lease result successors onPublish clock).1 = .error error) :
    (publish db lease result successors onPublish clock).2 = db := by
  rcases publish_cases db lease result successors onPublish clock with
    ⟨same, -⟩ | ⟨job, results, later, -, -, -, -, performed⟩
  · exact same
  · rw [performed] at refused
    cases refused

end Insertions

section Claims

/-- The queue and the jobs its workers were handed, also those whose lease is lost since. -/
structure Workers (π σ ρ : Type) where
  queue : Database π σ ρ
  claims : List (ClaimedJob π σ) := []

def Answer.claims : Answer π σ ρ → List (ClaimedJob π σ)
  | .claimed (some job) => [job]
  | _ => []

/-- A handed job is the row it was taken from, under a lease that is not ahead of it. -/
structure Handed (claim : ClaimedJob π σ) (job : Job π σ) : Prop where
  id : job.id = claim.lease.jobId
  key : job.key = claim.key
  payload : job.payload = claim.payload
  token : claim.lease.fencingToken ≤ job.fencingToken

structure Workers.Faithful (workers : Workers π σ ρ) : Prop where
  unique : workers.queue.KeysUnique
  handed : ∀ claim ∈ workers.claims, ∃ job ∈ workers.queue.jobs.rows, Handed claim job

variable {workers : Workers π σ ρ} {next : Database π σ ρ}

theorem keys_of_same {rows kept : List (Job π σ)} (moved : List.Forall₂ SameJob rows kept) :
    kept.map Job.key = rows.map Job.key := by
  induction moved with
  | nil => rfl
  | cons same _ ih => rw [List.map_cons, List.map_cons, same.key, ih]

theorem mem_left {related : Job π σ → Job π σ → Prop} {rows kept : List (Job π σ)}
    (moved : List.Forall₂ related rows kept) {job : Job π σ} (member : job ∈ rows) :
    ∃ later ∈ kept, related job later := by
  induction moved with
  | nil => cases member
  | cons step _ ih =>
      rcases List.mem_cons.mp member with rfl | rest
      · exact ⟨_, List.mem_cons_self, step⟩
      · obtain ⟨later, belongs, same⟩ := ih rest
        exact ⟨later, List.mem_cons_of_mem _ belongs, same⟩

theorem mem_right {related : Job π σ → Job π σ → Prop} {rows kept : List (Job π σ)}
    (moved : List.Forall₂ related rows kept) {later : Job π σ} (member : later ∈ kept) :
    ∃ job ∈ rows, related job later := by
  induction moved with
  | nil => cases member
  | cons step _ ih =>
      rcases List.mem_cons.mp member with rfl | rest
      · exact ⟨_, List.mem_cons_self, step⟩
      · obtain ⟨job, belongs, same⟩ := ih rest
        exact ⟨job, List.mem_cons_of_mem _ belongs, same⟩

theorem Handed.later {claim : ClaimedJob π σ} {job later : Job π σ} (handed : Handed claim job)
    (lasting : Lasting job later) : Handed claim later where
  id := lasting.id.trans handed.id
  key := lasting.key.trans handed.key
  payload := lasting.payload.trans handed.payload
  token := handed.token.trans lasting.token

theorem Workers.Faithful.evolve {kept added : List (Job π σ)} (faithful : workers.Faithful)
    (rows : next.jobs.rows = kept ++ added)
    (moved : List.Forall₂ Lasting workers.queue.jobs.rows kept) (unique : next.KeysUnique) :
    Workers.Faithful { workers with queue := next } where
  unique := unique
  handed claim member := by
    obtain ⟨job, belongs, handed⟩ := faithful.handed claim member
    obtain ⟨later, listed, lasting⟩ := mem_left moved belongs
    refine ⟨later, ?_, handed.later lasting⟩
    rw [rows]
    exact List.mem_append_left _ listed

variable [EmptyCollection σ] {clock : Clock}

theorem Workers.Faithful.enqueues {news : List (NewJob π)} (faithful : workers.Faithful)
    (enqueued : Enqueues clock news workers.queue next) :
    Workers.Faithful { workers with queue := next } := by
  obtain ⟨added, rows, -⟩ := enqueued.rows
  exact faithful.evolve rows (List.forall₂_same.mpr fun job _ => .refl job)
    (enqueued.unique faithful.unique)

theorem Workers.Faithful.publishes {lease : Lease} {news : List (NewJob π)}
    (faithful : workers.Faithful) (published : Publishes lease clock news workers.queue next) :
    Workers.Faithful { workers with queue := next } := by
  obtain ⟨added, rows, -⟩ := published.rows
  apply faithful.evolve rows _ (published.unique faithful.unique)
  rw [List.forall₂_map_right_iff]
  exact List.forall₂_same.mpr fun job _ => publishedRow_lasting lease clock job

variable [EmptyCollection π]

/-- A call on the queue; a claim hands its job to a worker. -/
def Workers.work (workers : Workers π σ ρ) (clock : Clock) (call : Call π σ ρ) : Workers π σ ρ :=
  if call.isWork then
    let answer := perform workers.queue clock call
    ⟨answer.2, workers.claims ++ answer.1.claims⟩
  else workers

theorem Workers.work_moved (workers : Workers π σ ρ) (clock : Clock) (call : Call π σ ρ) :
    Moved Works workers.queue (workers.work clock call).queue := by
  unfold Workers.work
  split
  · rename_i work
    exact Jobs.work_moved work
  · exact Moved.refl Works.refl _

theorem Workers.work_claims (workers : Workers π σ ρ) (clock : Clock) (call : Call π σ ρ) :
    ∀ job ∈ workers.claims, job ∈ (workers.work clock call).claims := by
  intro job handed
  unfold Workers.work
  split
  · exact List.mem_append_left _ handed
  · exact handed

omit [EmptyCollection σ] [EmptyCollection π] in
theorem Moved.lasting {db : Database π σ ρ} (moved : Moved Works db next) :
    Moved Lasting db next :=
  List.Forall₂.imp (fun _ _ works => works.toLasting) moved

omit [EmptyCollection σ] [EmptyCollection π] in
theorem keysUnique_of_lasting {db : Database π σ ρ} (unique : db.KeysUnique)
    (moved : Moved Lasting db next) : next.KeysUnique := by
  unfold Database.KeysUnique
  rw [keys_of_same (List.Forall₂.imp (fun _ _ lasting => lasting.toSameJob) moved)]
  exact unique

theorem perform_claims {db : Database π σ ρ} {call : Call π σ ρ} {claim : ClaimedJob π σ}
    (granted : claim ∈ (perform db clock call).1.claims) :
    ∃ job ∈ (perform db clock call).2.jobs.rows, Handed claim job := by
  cases call with
  | claim workerId stages leaseSeconds locked =>
      simp only [perform] at granted ⊢
      cases answer : (Jobs.claim db workerId stages leaseSeconds locked clock).1 with
      | none =>
          rw [answer] at granted
          cases granted
      | some job =>
          rw [answer] at granted
          obtain rfl := List.mem_singleton.mp granted
          obtain ⟨_, next, _, found, _, same⟩ := claim_granted answer
          refine ⟨next, Table.mem_of_find? found, Table.find?_key found, ?_, ?_, ?_⟩
          · rw [same]
            rfl
          · rw [same]
            rfl
          · rw [same]
            exact le_refl _
  | enqueue new =>
      simp only [perform] at granted
      split at granted <;> cases granted
  | start _ | heartbeat _ _ | saveStageData _ _ | publish _ _ _ _ | fail _ _ _ | retry _ _ _
  | recordRequestId _ _ | release _ | cancel _ | requestCancel _ | delete _ => cases granted

theorem Workers.Faithful.work (faithful : workers.Faithful) (clock : Clock)
    (call : Call π σ ρ) : (workers.work clock call).Faithful := by
  have moved := (workers.work_moved clock call).lasting
  have kept : Workers.Faithful { workers with queue := (workers.work clock call).queue } :=
    faithful.evolve (List.append_nil _).symm moved (keysUnique_of_lasting faithful.unique moved)
  refine ⟨kept.unique, ?_⟩
  intro claim member
  by_cases work : call.isWork = true
  · have same : workers.work clock call =
        ⟨(perform workers.queue clock call).2,
          workers.claims ++ (perform workers.queue clock call).1.claims⟩ := by
      simp only [Workers.work, work, if_true]
    rw [same] at member kept ⊢
    rcases List.mem_append.mp member with earlier | granted
    · exact kept.handed claim earlier
    · exact perform_claims granted
  · have same : workers.work clock call = workers := by
      simp only [Workers.work, work, Bool.false_eq_true, if_false]
    rw [same] at member ⊢
    exact faithful.handed claim member

end Claims

end Ovrly.Jobs
