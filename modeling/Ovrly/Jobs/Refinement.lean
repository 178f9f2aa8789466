import Ovrly.Jobs.Fencing

/-!
The SQL queue refines the pure state machine.

What a call does to a row is matched with the events it stands for: the row moves as `apply`
says for one of these event sequences, or its state, flag and generation stay as they are.
-/

namespace Ovrly.Jobs

open Relational Runs

variable {π σ ρ : Type}

/-- The event sequences a call stands for on a row. -/
def Call.events (clock : Clock) (job : Job π σ) : Call π σ ρ → List (List JobEvent)
  | .claim _ _ _ _ => if overdue clock job then [[.expire], [.expire, .claim]] else [[.claim]]
  | .start _ => [[.start]]
  | .publish _ _ _ _ => [[.publish]]
  | .fail _ _ _ => [[.fail]]
  | .retry _ _ _ => [[.retry]]
  | .release _ => [[.release]]
  | .cancel _ => [[.cancel]]
  | .requestCancel _ => [[.requestCancel]]
  | .delete _ => [[.delete]]
  | .enqueue _ | .heartbeat _ _ | .saveStageData _ _ | .recordRequestId _ _ => []

def BecomesWithdrawn (job next : Job π σ) : Prop :=
  next.state ≠ job.state ∧ next.Withdrawn

instance (job next : Job π σ) : Decidable (BecomesWithdrawn job next) :=
  inferInstanceAs (Decidable (next.state ≠ job.state ∧
    (next.state = .cancelled ∨ next.state = .deleted)))

@[simp] theorem applyAll_nil (status : JobStatus) : applyAll status [] = .ok status := rfl

theorem applyAll_cons {status next : JobStatus} {event : JobEvent} (rest : List JobEvent)
    (accepted : apply status event = .ok next) :
    applyAll status (event :: rest) = applyAll next rest := by
  simp only [applyAll, List.foldlM_cons, accepted]
  rfl

theorem applyAll_singleton {status next : JobStatus} {event : JobEvent}
    (accepted : apply status event = .ok next) : applyAll status [event] = .ok next := by
  rw [applyAll_cons [] accepted, applyAll_nil]

section RowSteps

variable {clock : Clock} {job next : Job π σ}

theorem apply_returned {event : JobEvent} (leased : job.state.isLeased = true)
    (gives : event = .release ∨ event = .retry ∨ event = .expire) :
    apply job.status event = .ok (returned job).status := by
  rcases gives with rfl | rfl | rfl <;>
    cases flag : job.cancelRequested <;>
    simp [apply, Job.status, returned, leased, flag]

theorem overdue_leased (late : overdue clock job = true) : job.state.isLeased = true := by
  simp only [overdue, Bool.and_eq_true] at late
  exact late.1

theorem apply_claim (queued : job.state = .queued) (workerId : String) (leaseSeconds : Time) :
    apply job.status .claim = .ok (leaseTo workerId leaseSeconds clock job).status := by
  simp [apply, Job.status, leaseTo, queued]

variable [EmptyCollection π] [EmptyCollection σ]

/-- What a call does to a row is an event sequence the call stands for, accepted by `apply`. -/
theorem RowStep.refines {call : Call π σ ρ} (moved : RowStep clock call job next) :
    (next = job ∨ call.events clock job = [] ∧ next.status = job.status) ∨
      ∃ events ∈ call.events clock job, applyAll job.status events = .ok next.status := by
  cases moved with
  | kept => exact Or.inl (Or.inl rfl)
  | extended _ _ | saved _ | recorded _ _ => exact Or.inl (Or.inr ⟨rfl, rfl⟩)
  | expired late =>
      refine Or.inr ⟨[.expire], by simp [Call.events, late], ?_⟩
      exact applyAll_singleton (apply_returned (overdue_leased late) (Or.inr (Or.inr rfl)))
  | @claimed workerId _ leaseSeconds _ _ queued =>
      right
      by_cases late : overdue clock job = true
      · refine ⟨[.expire, .claim], by simp [Call.events, late], ?_⟩
        rw [settled, if_pos late] at queued ⊢
        rw [applyAll_cons _ (apply_returned (overdue_leased late) (Or.inr (Or.inr rfl)))]
        exact applyAll_singleton (apply_claim queued workerId leaseSeconds)
      · refine ⟨[.claim], by simp [Call.events, late], ?_⟩
        rw [settled, if_neg late] at queued ⊢
        exact applyAll_singleton (apply_claim queued workerId leaseSeconds)
  | started mine leased unflagged =>
      refine Or.inr ⟨[.start], by simp [Call.events], applyAll_singleton ?_⟩
      simp [apply, Job.status, Jobs.started, leased, unflagged]
  | published active =>
      simp only [Jobs.active, Bool.and_eq_true, beq_iff_eq, Bool.not_eq_true'] at active
      refine Or.inr ⟨[.publish], by simp [Call.events], applyAll_singleton ?_⟩
      simp [apply, Job.status, Jobs.published, cleared, active.1.1.2, active.1.2]
  | failed mine leased =>
      refine Or.inr ⟨[.fail], by simp [Call.events], applyAll_singleton ?_⟩
      simp [apply, Job.status, Jobs.failed, cleared, leased]
  | retried mine leased =>
      refine Or.inr ⟨[.retry], by simp [Call.events], applyAll_singleton ?_⟩
      exact apply_returned leased (Or.inr (Or.inl rfl))
  | released mine leased =>
      refine Or.inr ⟨[.release], by simp [Call.events], applyAll_singleton ?_⟩
      exact apply_returned leased (Or.inl rfl)
  | cancelled mine leased =>
      refine Or.inr ⟨[.cancel], by simp [Call.events], applyAll_singleton ?_⟩
      simp [apply, Job.status, Jobs.cancelled, cleared, JobState.isActive, leased]
  | cancelledQueued queued =>
      refine Or.inr ⟨[.requestCancel], by simp [Call.events], applyAll_singleton ?_⟩
      simp [apply, Job.status, Jobs.cancelled, cleared, queued]
  | flagged leased unflagged =>
      have notQueued : job.state ≠ .queued := by
        intro queued
        simp [queued, JobState.isLeased] at leased
      refine Or.inr ⟨[.requestCancel], by simp [Call.events], applyAll_singleton ?_⟩
      simp [apply, Job.status, Jobs.flagged, leased, notQueued]
  | deleted present =>
      refine Or.inr ⟨[.delete], by simp [Call.events], applyAll_singleton ?_⟩
      simp [apply, Job.status, tombstone, cleared, present]

theorem RowStep.lawful {call : Call π σ ρ} (moved : RowStep clock call job next)
    (lawful : job.status.Lawful) : next.status.Lawful := by
  rcases moved.refines with (same | ⟨_, same⟩) | ⟨events, _, accepted⟩
  · rwa [same]
  · rwa [same]
  · exact applyAll_lawful lawful accepted

omit [EmptyCollection π] [EmptyCollection σ] in
/-- A lease given back bumps the generation exactly when that cancels the job. -/
theorem returned_generation (leased : job.state.isLeased = true) :
    (returned job).generation = job.generation +
      if BecomesWithdrawn job (returned job) then 1 else 0 := by
  have notCancelled : job.state ≠ .cancelled := by
    intro state
    simp [state, JobState.isLeased] at leased
  cases flag : job.cancelRequested
  · simp [returned, flag, BecomesWithdrawn, Job.Withdrawn]
  · simp [returned, flag, BecomesWithdrawn, Job.Withdrawn, Ne.symm notCancelled]

omit [EmptyCollection π] [EmptyCollection σ] in
theorem settled_generation (queued : (settled clock job).state = .queued) :
    (settled clock job).generation = job.generation := by
  by_cases late : overdue clock job = true
  · rw [settled, if_pos late] at queued ⊢
    cases flag : job.cancelRequested
    · simp [expire, cleared, returned, flag]
    · simp [expire, cleared, returned, flag] at queued
  · rw [settled, if_neg late]

theorem RowStep.generation {call : Call π σ ρ} (moved : RowStep clock call job next) :
    next.generation = job.generation + if BecomesWithdrawn job next then 1 else 0 := by
  have cancels : job.state.isLeased = true ∨ job.state = .queued → job.state ≠ .cancelled := by
    rintro (leased | queued) state
    · simp [state, JobState.isLeased] at leased
    · simp [state] at queued
  cases moved with
  | kept => simp [BecomesWithdrawn]
  | extended | saved | recorded | flagged =>
      simp [BecomesWithdrawn, Jobs.extended, Jobs.saved, Jobs.recorded, Jobs.flagged]
  | started | published | failed =>
      simp [BecomesWithdrawn, Job.Withdrawn, Jobs.started, Jobs.published, Jobs.failed, cleared]
  | expired late => exact returned_generation (overdue_leased late)
  | retried mine leased => exact returned_generation leased
  | released mine leased => exact returned_generation leased
  | claimed queued =>
      simp [BecomesWithdrawn, Job.Withdrawn, leaseTo, settled_generation queued]
  | cancelled mine leased =>
      simp [BecomesWithdrawn, Job.Withdrawn, Jobs.cancelled, cleared,
        Ne.symm (cancels (Or.inl leased))]
  | cancelledQueued queued =>
      simp [BecomesWithdrawn, Job.Withdrawn, Jobs.cancelled, cleared,
        Ne.symm (cancels (Or.inr queued))]
  | deleted present =>
      simp [BecomesWithdrawn, Job.Withdrawn, tombstone, cleared, Ne.symm present]

end RowSteps

variable [EmptyCollection π] [EmptyCollection σ]

/-- A call on a row that meets the assertions leaves its state, flag and generation, or moves
them as `apply` says for an event sequence of the call; the row changes under a call with
events only if `apply` accepts one; the assertions hold afterwards; and the generation grows by
one exactly when the job becomes cancelled or deleted. -/
theorem queue_refines {db : Database π σ ρ} (clock : Clock) (call : Call π σ ρ) {jobId : JobId}
    {job : Job π σ} (found : db.jobs.find? jobId = some job)
    (checked : checkInvariants job.status = .ok ()) :
    ∃ next, (step db (clock, call)).jobs.find? jobId = some next ∧
      ((next.status = job.status ∧ next.generation = job.generation) ∨
        ∃ events ∈ call.events clock job, applyAll job.status events = .ok next.status) ∧
      (next ≠ job → call.events clock job ≠ [] →
        ∃ events ∈ call.events clock job, applyAll job.status events = .ok next.status) ∧
      checkInvariants next.status = .ok () ∧
      next.generation = job.generation + (if BecomesWithdrawn job next then 1 else 0) := by
  obtain ⟨next, nextFound, moved⟩ := step_row clock call found
  have lawful := moved.lawful ((checkInvariants_iff _).mp checked)
  have generation := moved.generation
  refine ⟨next, nextFound, ?_, ?_, (checkInvariants_iff _).mpr lawful, generation⟩
  · rcases moved.refines with (same | ⟨_, same⟩) | accepted
    · exact Or.inl ⟨by rw [same], by rw [same]⟩
    · refine Or.inl ⟨same, ?_⟩
      have sameState : next.state = job.state := congrArg JobStatus.state same
      rw [generation, if_neg (fun becomes => becomes.1 sameState), Nat.add_zero]
    · exact Or.inr accepted
  · intro changed hasEvents
    rcases moved.refines with (same | ⟨none, _⟩) | accepted
    · exact absurd same changed
    · exact absurd none hasEvents
    · exact accepted

/-- A queued job that a worker claims. -/
theorem queue_refines_claim :
    ∃ next, (history ([(⟨0, 0⟩, .enqueue ⟨1, ⟨1, "acquire", "a"⟩, [], none⟩),
        (⟨0, 0⟩, .claim "w" ["acquire"] 60 fun _ => false)] :
          List (Clock × Call (List Unit) (List Unit) Unit))).jobs.find? 1 = some next ∧
      next.state = .leased ∧ checkInvariants next.status = .ok () := by
  have found : (history ([(⟨0, 0⟩, .enqueue ⟨1, ⟨1, "acquire", "a"⟩, [], none⟩)] :
      List (Clock × Call (List Unit) (List Unit) Unit))).jobs.find? 1 =
        some (newRow ⟨1, ⟨1, "acquire", "a"⟩, [], none⟩ ⟨0, 0⟩) := rfl
  obtain ⟨next, nextFound, _, _, lawful, _⟩ :=
    queue_refines ⟨0, 0⟩ (.claim "w" ["acquire"] 60 fun _ => false) found rfl
  have leased := Option.some.inj nextFound
  exact ⟨next, nextFound, by rw [← leased]; rfl, lawful⟩

end Ovrly.Jobs
