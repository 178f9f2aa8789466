/-!
The pure job state machine of `jobs/states.py`.

A job status is the persisted state plus the `cancel_requested` flag, which tells a requested
cancellation (a worker still owns the lease) from an effective one (the `cancelled` state).
-/

namespace Ovrly.Jobs

inductive JobState
  | queued
  | leased
  | running
  | published
  | cancelled
  | deleted
  | failed
  deriving DecidableEq, Repr

inductive JobEvent
  | claim
  | start
  | publish
  | fail
  | release
  | retry
  | expire
  | requestCancel
  | cancel
  | delete
  deriving DecidableEq, Repr

structure JobStatus where
  state : JobState
  cancelRequested : Bool := false
  deriving DecidableEq, Repr

structure IllegalTransition where
  status : JobStatus
  event : JobEvent
  deriving DecidableEq, Repr

/-- `TERMINAL` -/
def JobState.isTerminal : JobState → Bool
  | .published | .cancelled | .deleted | .failed => true
  | _ => false

/-- `LEASED_STATES` -/
def JobState.isLeased : JobState → Bool
  | .leased | .running => true
  | _ => false

/-- `ACTIVE` -/
def JobState.isActive (state : JobState) : Bool :=
  state = .queued || state.isLeased

def apply (status : JobStatus) (event : JobEvent) : Except IllegalTransition JobStatus :=
  let illegal := Except.error { status, event }
  match event with
  | .claim =>
      if status.state = .queued then .ok { status with state := .leased } else illegal
  | .start =>
      if status.state = .leased ∧ status.cancelRequested = false then
        .ok { status with state := .running }
      else illegal
  | .publish =>
      if status.state = .running ∧ status.cancelRequested = false then
        .ok { status with state := .published }
      else illegal
  | .fail =>
      if status.state.isLeased then .ok { status with state := .failed } else illegal
  | .release | .retry | .expire =>
      if status.state.isLeased then
        if status.cancelRequested then .ok { status with state := .cancelled }
        else .ok { status with state := .queued }
      else illegal
  | .requestCancel =>
      if status.state = .queued then .ok { state := .cancelled, cancelRequested := true }
      else if status.state.isLeased then .ok { status with cancelRequested := true }
      else illegal
  | .cancel =>
      if status.state.isActive then .ok { state := .cancelled, cancelRequested := true }
      else illegal
  | .delete =>
      if status.state ≠ .deleted then .ok { status with state := .deleted } else illegal

def applyAll (status : JobStatus) (events : List JobEvent) : Except IllegalTransition JobStatus :=
  events.foldlM apply status

def checkInvariants (status : JobStatus) : Except String Unit :=
  if status.state = .published ∧ status.cancelRequested then
    .error "A published job cannot carry a cancellation request"
  else if status.state = .queued ∧ status.cancelRequested then
    .error "A queued cancellation request must be effective immediately"
  else if status.state = .cancelled ∧ status.cancelRequested = false then
    .error "Effective cancellation must record the request"
  else .ok ()

/-- What `checkInvariants` asserts: the flag is off on a published or queued job and on for a
cancelled one. -/
def JobStatus.Lawful (status : JobStatus) : Prop :=
  (status.state = .published → status.cancelRequested = false) ∧
  (status.state = .queued → status.cancelRequested = false) ∧
  (status.state = .cancelled → status.cancelRequested = true)

theorem checkInvariants_iff (status : JobStatus) :
    checkInvariants status = .ok () ↔ status.Lawful := by
  rcases status with ⟨state, flag⟩
  cases state <;> cases flag <;> simp [checkInvariants, JobStatus.Lawful]

theorem apply_lawful {status next : JobStatus} {event : JobEvent} (lawful : status.Lawful)
    (accepted : apply status event = .ok next) : next.Lawful := by
  rcases status with ⟨state, flag⟩
  obtain ⟨published, queued, cancelled⟩ := lawful
  cases event <;> cases state <;>
    simp [apply, JobState.isLeased, JobState.isActive] at accepted <;>
    cases flag <;> simp_all <;> subst accepted <;> simp [JobStatus.Lawful]

theorem applyAll_lawful {status next : JobStatus} {events : List JobEvent}
    (lawful : status.Lawful) (accepted : applyAll status events = .ok next) : next.Lawful := by
  induction events generalizing status with
  | nil =>
      simp only [applyAll, List.foldlM_nil, pure, Except.pure, Except.ok.injEq] at accepted
      exact accepted ▸ lawful
  | cons event rest ih =>
      simp only [applyAll, List.foldlM_cons] at accepted
      cases first : apply status event with
      | error refused => simp [first, bind, Except.bind] at accepted
      | ok middle =>
          rw [first] at accepted
          exact ih (apply_lawful lawful first) accepted

end Ovrly.Jobs
