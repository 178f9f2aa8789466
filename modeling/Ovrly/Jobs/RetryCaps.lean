import Ovrly.Jobs.Retries

/-!
The retry caps over every history.

Workers claim, crash, lose leases and come back in any order. While a lease still owns its row,
the row has the counts that were read when it was claimed, so that the retry decided from them is
within the cap also where the counter is raised later.
-/

namespace Ovrly.Jobs

open Relational Runs

variable {π σ ρ : Type}

structure Verdict where
  error : RetryableError
  recorded : Bool
  jitter : Jitter

/-- A claimed job in the hands of a worker. -/
structure Hand (π σ : Type) where
  claim : ClaimedJob π σ
  verdict : Option Verdict := none

/-- The queue, and the jobs its workers were handed. -/
structure Crew (π σ ρ : Type) where
  queue : Database π σ ρ
  hands : List (Hand π σ) := []

def Crew.empty : Crew π σ ρ := ⟨Database.empty, []⟩

/-- `timedelta(seconds=...)`: whole microseconds, half to even. -/
def timedelta (seconds : Rat) : Time :=
  let scaled := seconds * 1000000
  let whole := scaled.floor
  if scaled - whole < 1 / 2 then whole
  else if 1 / 2 < scaled - whole then whole + 1
  else if whole % 2 = 0 then whole
  else whole + 1

/-- A worker looks at the row again where its claim predates the request id. -/
def requestIdRecorded (queue : Database π σ ρ) (claim : ClaimedJob π σ) (outcome : Outcome) :
    Bool :=
  claim.providerRequestId.isSome ||
    (outcome.retryClass == .unknownOutcome &&
      (queue.jobs.find? claim.lease.jobId).any (·.providerRequestId.isSome))

/-- The statement that ends `_retry`. -/
def conclusion (policy : RetryPolicy) (claim : ClaimedJob π σ) (verdict : Verdict) :
    Call π σ ρ :=
  let decision := policy.decide verdict.error.outcome claim.retryCounts verdict.recorded
    verdict.jitter
  match decision.delaySeconds with
  | none => .fail claim.lease verdict.error.name (some decision.retryClass)
  | some seconds => .retry claim.lease decision.retryClass (timedelta seconds)

/-- The calls of `_retry`. -/
def Call.concludes : Call π σ ρ → Bool
  | .retry _ _ _ => true
  | .fail _ _ retryClass => retryClass.isSome
  | _ => false

/-- A handler that has raised records no request id any more. -/
def Crew.permits (crew : Crew π σ ρ) (call : Call π σ ρ) : Bool :=
  !call.concludes &&
    match call with
    | .recordRequestId lease _ => crew.hands.all fun hand =>
        hand.verdict.isNone || hand.claim.lease.jobId != lease.jobId ||
          hand.claim.lease.fencingToken != lease.fencingToken
    | _ => true

inductive Event (π σ ρ : Type)
  | call (clock : Clock) (call : Call π σ ρ)
  | raised (hand : Nat) (error : RetryableError) (jitter : Jitter)
  | settle (hand : Nat) (clock : Clock)

section Rows

variable {clock : Clock} {call : Call π σ ρ} {job next : Job π σ} {lease : Lease}

theorem RowStep.retryCounts [EmptyCollection π] [EmptyCollection σ]
    (moved : RowStep clock call job next) (quiet : call.concludes = false) :
    next.retryCounts = job.retryCounts := by
  cases moved with
  | retried mine leased => cases quiet
  | claimed queued =>
      simp only [leaseTo, settled]
      split <;> rfl
  | _ => rfl

theorem not_owned_cleared (row : Job π σ) : owned lease (cleared clock row) = false := by
  simp [owned, cleared]

theorem owned_iff {row : Job π σ} : owned lease row = true ↔ row.id = lease.jobId ∧
    row.leaseOwner = some lease.workerId ∧ row.fencingToken = lease.fencingToken ∧
    row.generation = lease.generation := by
  simp [owned, and_assoc]

theorem RowStep.owned_back [EmptyCollection π] [EmptyCollection σ]
    (moved : RowStep clock call job next) (token : lease.fencingToken ≤ job.fencingToken)
    (mine : owned lease next = true) :
    owned lease job = true ∧ next.retryCounts = job.retryCounts ∧
      (next.providerRequestId = job.providerRequestId ∨
        ∃ other requestId, call = .recordRequestId other requestId ∧ other.jobId = lease.jobId ∧
          other.fencingToken = lease.fencingToken ∧ next.providerRequestId.isSome) := by
  cases moved with
  | kept => exact ⟨mine, rfl, Or.inl rfl⟩
  | expired late => rw [expire, not_owned_cleared] at mine; cases mine
  | published _ => rw [Jobs.published, not_owned_cleared] at mine; cases mine
  | failed _ _ => rw [Jobs.failed, not_owned_cleared] at mine; cases mine
  | retried _ _ => rw [Jobs.retried, not_owned_cleared] at mine; cases mine
  | released _ _ => rw [Jobs.released, not_owned_cleared] at mine; cases mine
  | cancelled _ _ => rw [Jobs.cancelled, not_owned_cleared] at mine; cases mine
  | cancelledQueued _ => rw [Jobs.cancelled, not_owned_cleared] at mine; cases mine
  | deleted _ => rw [tombstone, not_owned_cleared] at mine; cases mine
  | claimed queued =>
      have raised := (owned_iff.mp mine).2.2.1
      simp only [leaseTo, settled_fencingToken] at raised
      omega
  | started _ _ _ => exact ⟨mine, rfl, Or.inl rfl⟩
  | extended _ _ => exact ⟨mine, rfl, Or.inl rfl⟩
  | saved _ => exact ⟨mine, rfl, Or.inl rfl⟩
  | flagged _ _ => exact ⟨mine, rfl, Or.inl rfl⟩
  | @recorded other requestId _ theirs leased =>
      have before : owned lease job = true := mine
      have first := owned_iff.mp before
      have second := owned_iff.mp theirs
      exact ⟨before, rfl, Or.inr ⟨other, requestId, rfl, second.1.symm.trans first.1,
        second.2.2.1.symm.trans first.2.2.1, rfl⟩⟩

theorem RowStep.failed_class [EmptyCollection π] [EmptyCollection σ]
    (moved : RowStep clock call job next) (quiet : call.concludes = false)
    (failed : next.state = .failed) (classed : next.retryClass ≠ none) : next = job := by
  cases moved with
  | kept => rfl
  | @failed lease reason retryClass _ mine leased =>
      have none : retryClass = none := by simpa [Call.concludes] using quiet
      exact absurd none classed
  | expired late =>
      simp only [expire, cleared, returned] at failed
      split at failed <;> cases failed
  | released _ _ =>
      simp only [Jobs.released, cleared, returned] at failed
      split at failed <;> cases failed
  | retried _ _ => cases quiet
  | claimed _ => cases failed
  | started _ _ _ => cases failed
  | published _ => cases failed
  | cancelled _ _ => cases failed
  | cancelledQueued _ => cases failed
  | deleted _ => cases failed
  | extended _ leased =>
      have state : job.state = .failed := failed
      rw [state] at leased
      cases leased
  | recorded _ leased =>
      have state : job.state = .failed := failed
      rw [state] at leased
      cases leased
  | flagged leased _ =>
      have state : job.state = .failed := failed
      rw [state] at leased
      cases leased
  | saved active =>
      have state : job.state = .failed := failed
      have running := (active_running active).2.1
      rw [state] at running
      cases running

end Rows

section Runs

variable [EmptyCollection π] [EmptyCollection σ]

/-- A call of a worker, of an owner or of a route; a handler that raises; the end of its
attempt. -/
def Crew.step (policy : RetryPolicy) (crew : Crew π σ ρ) : Event π σ ρ → Crew π σ ρ
  | .call clock call =>
      if crew.permits call then
        let answer := perform crew.queue clock call
        ⟨answer.2, crew.hands ++ answer.1.claims.map (⟨·, none⟩)⟩
      else crew
  | .raised index error jitter =>
      match crew.hands[index]? with
      | some ⟨claim, none⟩ =>
          { crew with
            hands := crew.hands.set index ⟨claim, some
              ⟨error, requestIdRecorded crew.queue claim error.outcome, jitter⟩⟩ }
      | _ => crew
  | .settle index clock =>
      match crew.hands[index]? with
      | some ⟨claim, some verdict⟩ =>
          { crew with queue := Jobs.step crew.queue (clock, conclusion policy claim verdict) }
      | _ => crew

/-- What a hand holds against the row of its job. -/
structure Hand.Stands (hand : Hand π σ) (job : Job π σ) : Prop where
  token : hand.claim.lease.fencingToken ≤ job.fencingToken
  counts : owned hand.claim.lease job = true → job.retryCounts = hand.claim.retryCounts
  claimed : owned hand.claim.lease job = true → hand.claim.providerRequestId.isSome →
    job.providerRequestId.isSome
  recorded : ∀ verdict, hand.verdict = some verdict →
    verdict.error.outcome.retryClass = .unknownOutcome → owned hand.claim.lease job = true →
    verdict.recorded = job.providerRequestId.isSome

structure Crew.Sound (policy : RetryPolicy) (crew : Crew π σ ρ) : Prop where
  capped : ∀ id job, crew.queue.jobs.find? id = some job →
    ∀ retryClass, job.retryCounts.count retryClass ≤ policy.cap retryClass
  stands : ∀ hand ∈ crew.hands, ∃ job, crew.queue.jobs.find? hand.claim.lease.jobId = some job ∧
    hand.Stands job

variable {policy : RetryPolicy} {crew : Crew π σ ρ}

omit [EmptyCollection π] [EmptyCollection σ] in
theorem sound_empty : Crew.Sound policy (Crew.empty : Crew π σ ρ) where
  capped _ _ found := by cases found
  stands _ member := by cases member

theorem Hand.Stands.step {hand : Hand π σ} {job next : Job π σ} {clock : Clock}
    {call : Call π σ ρ} (stands : hand.Stands job) (moved : RowStep clock call job next)
    (silent : hand.verdict.isSome → ∀ lease requestId, call = .recordRequestId lease requestId →
      lease.jobId = hand.claim.lease.jobId →
      lease.fencingToken ≠ hand.claim.lease.fencingToken) : hand.Stands next where
  token := stands.token.trans moved.fencingToken_le
  counts mine := by
    obtain ⟨before, same, -⟩ := moved.owned_back stands.token mine
    rw [same]
    exact stands.counts before
  claimed mine known := by
    obtain ⟨before, -, same | ⟨_, _, _, _, _, some⟩⟩ := moved.owned_back stands.token mine
    · rw [same]
      exact stands.claimed before known
    · exact some
  recorded verdict raised unknown mine := by
    obtain ⟨before, -, same | ⟨other, requestId, recording, job, token, -⟩⟩ :=
      moved.owned_back stands.token mine
    · rw [same]
      exact stands.recorded verdict raised unknown before
    · exact absurd token (silent (by rw [raised]; rfl) other requestId recording job)

theorem Crew.Sound.stands_step (sound : crew.Sound policy) {clock : Clock} {call : Call π σ ρ}
    {hand : Hand π σ} (member : hand ∈ crew.hands)
    (silent : hand.verdict.isSome → ∀ lease requestId, call = .recordRequestId lease requestId →
      lease.jobId = hand.claim.lease.jobId →
      lease.fencingToken ≠ hand.claim.lease.fencingToken) :
    ∃ job, (Jobs.step crew.queue (clock, call)).jobs.find? hand.claim.lease.jobId = some job ∧
      hand.Stands job := by
  obtain ⟨job, found, stands⟩ := sound.stands hand member
  obtain ⟨next, nextFound, moved⟩ := step_row clock call found
  exact ⟨next, nextFound, stands.step moved silent⟩

omit [EmptyCollection π] [EmptyCollection σ] in
theorem Crew.permits_silent {call : Call π σ ρ} (permitted : crew.permits call = true)
    {hand : Hand π σ} (member : hand ∈ crew.hands) (raised : hand.verdict.isSome)
    (lease : Lease) (requestId : String) (recording : call = .recordRequestId lease requestId)
    (sameJob : lease.jobId = hand.claim.lease.jobId) :
    lease.fencingToken ≠ hand.claim.lease.fencingToken := by
  subst recording
  simp only [Crew.permits, Call.concludes, Bool.not_false, Bool.true_and, List.all_eq_true] at permitted
  have allowed := permitted hand member
  intro sameToken
  rcases Option.isSome_iff_exists.mp raised with ⟨verdict, known⟩
  simp [known, sameJob, sameToken] at allowed

theorem claim_stands {queue : Database π σ ρ} {clock : Clock} {call : Call π σ ρ}
    {claim : ClaimedJob π σ} (granted : claim ∈ (perform queue clock call).1.claims) :
    ∃ job, (perform queue clock call).2.jobs.find? claim.lease.jobId = some job ∧
      Hand.Stands ⟨claim, none⟩ job := by
  cases call with
  | claim workerId stages leaseSeconds locked =>
      simp only [perform] at granted ⊢
      cases answer : (Jobs.claim queue workerId stages leaseSeconds locked clock).1 with
      | none =>
          rw [answer] at granted
          cases granted
      | some job =>
          rw [answer] at granted
          obtain rfl := List.mem_singleton.mp granted
          obtain ⟨_, next, _, found, _, same⟩ := claim_granted answer
          refine ⟨next, found, ?_, ?_, ?_, ?_⟩
          · rw [same]
            exact le_refl _
          · intro _
            rw [same]
            rfl
          · intro _ known
            rw [same] at known
            exact known
          · intro _ raised
            cases raised
  | enqueue new =>
      simp only [perform] at granted
      split at granted <;> cases granted
  | start _ | heartbeat _ _ | saveStageData _ _ | publish _ _ _ _ | fail _ _ _ | retry _ _ _
  | recordRequestId _ _ | release _ | cancel _ | requestCancel _ | delete _ => cases granted

/-- A retry that a worker decided is refused when the class of the row is spent, or when the
request id is missing from it. -/
def Exhausted (policy : RetryPolicy) (job : Job π σ) (retryClass : RetryClass) : Prop :=
  policy.cap retryClass ≤ job.retryCounts.count retryClass ∨
    retryClass = .unknownOutcome ∧ job.providerRequestId = none

inductive Concludes (settings : RetrySettings) (verdict : Verdict) (clock : Clock)
    (job later : Job π σ) : Prop
  | exhausted :
      Exhausted (.fromSettings settings) job verdict.error.outcome.retryClass →
      later = failed verdict.error.name (some verdict.error.outcome.retryClass) clock job →
      Concludes settings verdict clock job later
  | retried (seconds : Rat) :
      ¬Exhausted (.fromSettings settings) job verdict.error.outcome.retryClass →
      verdict.error.outcome.retryClass ≠ .nonRetriableInput →
      Bounded settings verdict.error.outcome seconds →
      later = Jobs.retried verdict.error.outcome.retryClass (timedelta seconds) clock job →
      Concludes settings verdict clock job later

omit [EmptyCollection π] [EmptyCollection σ] in
/-- What the worker decided from its claim is what the row it owns calls for. -/
theorem decide_stands {claim : ClaimedJob π σ} {verdict : Verdict} {job : Job π σ}
    (stands : Hand.Stands ⟨claim, some verdict⟩ job) (mine : owned claim.lease job = true) :
    (policy.decide verdict.error.outcome claim.retryCounts verdict.recorded
        verdict.jitter).delaySeconds = none ↔
      Exhausted policy job verdict.error.outcome.retryClass := by
  rw [RetryPolicy.decide_exhausted, Exhausted, stands.counts mine]
  refine or_congr Iff.rfl (and_congr_right fun unknown => ?_)
  rw [stands.recorded verdict rfl unknown mine]
  cases job.providerRequestId <;> simp

theorem settle_row (settings : RetrySettings) {claim : ClaimedJob π σ} {verdict : Verdict}
    {job : Job π σ} {queue : Database π σ ρ} (clock : Clock)
    (found : queue.jobs.find? claim.lease.jobId = some job)
    (stands : Hand.Stands ⟨claim, some verdict⟩ job) :
    ∃ later, (Jobs.step queue (clock, conclusion (.fromSettings settings) claim verdict)).jobs.find?
        claim.lease.jobId = some later ∧
      (owned claim.lease job = true ∧ job.state.isLeased = true →
        Concludes settings verdict clock job later) ∧
      (¬(owned claim.lease job = true ∧ job.state.isLeased = true) → later = job) := by
  have ends : owned claim.lease job = true →
      (((RetryPolicy.fromSettings settings).decide verdict.error.outcome claim.retryCounts
          verdict.recorded verdict.jitter).delaySeconds = none ↔
        Exhausted (.fromSettings settings) job verdict.error.outcome.retryClass) :=
    decide_stands stands
  unfold conclusion
  dsimp only
  split
  · rename_i spent
    simp only [Jobs.step, perform, fail, find?_fencedUpdate, found, Option.map_some]
    refine ⟨_, rfl, fun mine => .exhausted ((ends mine.1).mp spent) ?_, fun other => ?_⟩
    · rw [if_pos (by simp [mine])]
      rfl
    · exact if_neg (by simpa using other)
  · rename_i seconds scheduled
    simp only [Jobs.step, perform, retry, find?_fencedUpdate, found, Option.map_some]
    obtain ⟨left, -, wait⟩ := RetryPolicy.decide_delay scheduled
    refine ⟨_, rfl, fun mine => .retried seconds ?_ ?_ ?_ ?_, fun other => ?_⟩
    · intro spent
      rw [(ends mine.1).mpr spent] at scheduled
      cases scheduled
    · intro input
      rw [input] at left
      exact absurd left (Nat.not_lt_zero _)
    · rw [wait]
      exact delay_bounded settings _ _ _
    · rw [if_pos (by simp [mine])]
      rfl
    · exact if_neg (by simpa using other)

omit [EmptyCollection π] in
theorem count_newRow (new : NewJob π) (clock : Clock) (retryClass : RetryClass) :
    (newRow new clock : Job π σ).retryCounts.count retryClass = 0 := rfl

theorem capped_step {queue : Database π σ ρ} {clock : Clock} {call : Call π σ ρ}
    {id : JobId} {next : Job π σ}
    (found : (Jobs.step queue (clock, call)).jobs.find? id = some next)
    (same : ∀ job, queue.jobs.find? id = some job → RowStep clock call job next →
      ∀ retryClass, next.retryCounts.count retryClass ≤ policy.cap retryClass)
    (retryClass : RetryClass) : next.retryCounts.count retryClass ≤ policy.cap retryClass := by
  rcases step_origin found with ⟨job, before, moved⟩ | ⟨new, rfl⟩
  · exact same job before moved retryClass
  · rw [count_newRow]
    exact Nat.zero_le _

theorem Crew.Sound.settle_capped (sound : crew.Sound policy) {claim : ClaimedJob π σ}
    {verdict : Verdict} (member : ⟨claim, some verdict⟩ ∈ crew.hands) {clock : Clock} {id : JobId}
    {job next : Job π σ} (before : crew.queue.jobs.find? id = some job)
    (moved : RowStep clock (conclusion (ρ := ρ) policy claim verdict) job next)
    (retryClass : RetryClass) : next.retryCounts.count retryClass ≤ policy.cap retryClass := by
  have capped := sound.capped id job before retryClass
  unfold conclusion at moved
  dsimp only at moved
  split at moved
  · cases moved with
    | kept => exact capped
    | failed _ _ => exact capped
  · rename_i seconds scheduled
    cases moved with
    | kept => exact capped
    | retried mine leased =>
        obtain ⟨row, found, stands⟩ := sound.stands _ member
        have sameId : id = claim.lease.jobId := by
          rw [← (show job.id = id from Table.find?_key before)]
          exact owned_id mine
        rw [← sameId, before, Option.some.injEq] at found
        subst found
        obtain ⟨left, -, -⟩ := RetryPolicy.decide_delay scheduled
        change (job.retryCounts.set verdict.error.outcome.retryClass
          (job.retryCounts.count verdict.error.outcome.retryClass + 1)).count retryClass ≤ _
        rw [count_set]
        by_cases sameClass : retryClass = verdict.error.outcome.retryClass
        · rw [if_pos sameClass, sameClass, stands.counts mine]
          exact left
        · rw [if_neg sameClass]
          exact capped

omit [EmptyCollection π] [EmptyCollection σ] in
theorem Hand.Stands.raised {claim : ClaimedJob π σ} {job : Job π σ} {queue : Database π σ ρ}
    (stands : Hand.Stands ⟨claim, none⟩ job)
    (found : queue.jobs.find? claim.lease.jobId = some job) (error : RetryableError)
    (jitter : Jitter) :
    Hand.Stands ⟨claim, some ⟨error, requestIdRecorded queue claim error.outcome, jitter⟩⟩ job where
  token := stands.token
  counts := stands.counts
  claimed := stands.claimed
  recorded verdict same unknown mine := by
    cases same
    have known := stands.claimed mine
    simp only [requestIdRecorded, unknown, found, Option.any_some, beq_self_eq_true, Bool.true_and]
    cases claimed : claim.providerRequestId.isSome with
    | false => rw [Bool.false_or]
    | true => rw [Bool.true_or, known claimed]

theorem Crew.Sound.step (sound : crew.Sound policy) (event : Event π σ ρ) :
    (crew.step policy event).Sound policy := by
  cases event with
  | call clock call =>
      simp only [Crew.step]
      by_cases permitted : crew.permits call = true
      · rw [if_pos permitted]
        have quiet : call.concludes = false := by
          have both := permitted
          simp only [Crew.permits, Bool.and_eq_true, Bool.not_eq_true'] at both
          exact both.1
        refine ⟨fun id next found => capped_step found fun job before moved retryClass => ?_,
          fun hand member => ?_⟩
        · rw [moved.retryCounts quiet]
          exact sound.capped id job before retryClass
        · rcases List.mem_append.mp member with earlier | granted
          · exact sound.stands_step earlier (crew.permits_silent permitted earlier)
          · obtain ⟨claim, handed, rfl⟩ := List.mem_map.mp granted
            exact claim_stands handed
      · rw [if_neg permitted]
        exact sound
  | raised index error jitter =>
      simp only [Crew.step]
      split
      · rename_i claim here
        refine ⟨sound.capped, fun hand member => ?_⟩
        rcases List.mem_or_eq_of_mem_set member with earlier | rfl
        · exact sound.stands hand earlier
        · obtain ⟨job, found, stands⟩ := sound.stands _ (List.mem_of_getElem? here)
          exact ⟨job, found, stands.raised found error jitter⟩
      · exact sound
  | settle index clock =>
      simp only [Crew.step]
      split
      · rename_i claim verdict here
        have member := List.mem_of_getElem? here
        refine ⟨fun id next found => capped_step found fun job before moved =>
          sound.settle_capped member before moved, fun hand handed => ?_⟩
        refine sound.stands_step handed fun _ lease requestId recording => ?_
        unfold conclusion at recording
        dsimp only at recording
        split at recording <;> cases recording
      · exact sound

theorem crew_sound (events : List (Event π σ ρ)) :
    (exec (Crew.step policy) Crew.empty events).Sound policy :=
  exec_invariant (Crew.Sound policy) (fun _ event sound => sound.step event) sound_empty events

/-- The step ends an attempt of the job while its lease still owns the row. -/
def Settles (crew : Crew π σ ρ) (event : Event π σ ρ) (job : Job π σ) (verdict : Verdict)
    (clock : Clock) : Prop :=
  ∃ index claim, event = .settle index clock ∧
    crew.hands[index]? = some ⟨claim, some verdict⟩ ∧ owned claim.lease job = true ∧
    job.state.isLeased = true

/-- What one step does to the row of a job. -/
structure Moves (settings : RetrySettings) (crew : Crew π σ ρ) (event : Event π σ ρ)
    (job later : Job π σ) : Prop where
  ended : ∀ verdict clock, Settles crew event job verdict clock →
    Concludes settings verdict clock job later
  other : (∀ verdict clock, ¬Settles crew event job verdict clock) →
    later.retryCounts = job.retryCounts ∧
      (later.state = .failed → later.retryClass ≠ none → later = job)

theorem Crew.step_moves {settings : RetrySettings} (sound : crew.Sound (.fromSettings settings))
    (event : Event π σ ρ) {id : JobId} {job : Job π σ}
    (found : crew.queue.jobs.find? id = some job) :
    ∃ later, (crew.step (.fromSettings settings) event).queue.jobs.find? id = some later ∧
      Moves settings crew event job later := by
  have idle : (∀ verdict clock, ¬Settles crew event job verdict clock) →
      Moves settings crew event job job := fun none =>
    ⟨fun verdict clock settles => absurd settles (none verdict clock), fun _ =>
      ⟨rfl, fun _ _ => rfl⟩⟩
  cases event with
  | call clock call =>
      have none : ∀ verdict time, ¬Settles crew (.call clock call) job verdict time := by
        rintro verdict time ⟨_, _, ⟨⟩, -⟩
      simp only [Crew.step]
      by_cases permitted : crew.permits call = true
      · rw [if_pos permitted]
        have quiet : call.concludes = false := by
          have both := permitted
          simp only [Crew.permits, Bool.and_eq_true, Bool.not_eq_true'] at both
          exact both.1
        obtain ⟨later, laterFound, moved⟩ := step_row clock call found
        exact ⟨later, laterFound, fun verdict time settles => absurd settles (none verdict time),
          fun _ => ⟨moved.retryCounts quiet, moved.failed_class quiet⟩⟩
      · rw [if_neg permitted]
        exact ⟨job, found, idle none⟩
  | raised index error jitter =>
      have none : ∀ verdict time, ¬Settles crew (.raised index error jitter) job verdict time := by
        rintro verdict time ⟨_, _, ⟨⟩, -⟩
      refine ⟨job, ?_, idle none⟩
      simp only [Crew.step]
      split
      · exact found
      · exact found
  | settle index clock =>
      by_cases settles : ∃ verdict, Settles crew (.settle index clock) job verdict clock
      · obtain ⟨verdict, _, claim, ⟨⟩, here, mine, leased⟩ := settles
        have member := List.mem_of_getElem? here
        obtain ⟨row, rowFound, stands⟩ := sound.stands _ member
        have sameId : id = claim.lease.jobId := by
          rw [← (show job.id = id from Table.find?_key found)]
          exact owned_id mine
        subst sameId
        rw [found, Option.some.injEq] at rowFound
        subst rowFound
        obtain ⟨later, laterFound, concludes, -⟩ := settle_row settings clock found stands
        refine ⟨later, ?_, ?_, fun none => absurd ⟨_, claim, rfl, here, mine, leased⟩ (none verdict clock)⟩
        · simp only [Crew.step, here]
          exact laterFound
        · rintro again time ⟨_, other, ⟨⟩, there, -, -⟩
          rw [here] at there
          cases there
          exact concludes ⟨mine, leased⟩
      · have none : ∀ verdict time, ¬Settles crew (.settle index clock) job verdict time := by
          rintro verdict time ⟨_, claim, ⟨⟩, rest⟩
          exact settles ⟨verdict, _, claim, rfl, rest⟩
        refine ⟨job, ?_, idle none⟩
        simp only [Crew.step]
        split
        · rename_i claim verdict here
          by_cases sameId : id = claim.lease.jobId
          · subst sameId
            obtain ⟨row, rowFound, stands⟩ := sound.stands _ (List.mem_of_getElem? here)
            rw [found, Option.some.injEq] at rowFound
            subst rowFound
            obtain ⟨later, laterFound, -, same⟩ := settle_row settings clock found stands
            rw [laterFound, same fun mine => none verdict clock ⟨_, claim, rfl, here, mine⟩]
          · -- the row of another job
            have elsewhere : owned claim.lease job = false := by
              rw [Bool.eq_false_iff]
              intro mine
              exact sameId ((show id = job.id from (Table.find?_key found).symm).trans
                (owned_id mine))
            simp only [conclusion]
            split
            · simp only [Jobs.step, perform, fail, find?_fencedUpdate, found, Option.map_some,
                elsewhere, Bool.false_and, Bool.false_eq_true, if_false]
            · simp only [Jobs.step, perform, retry, find?_fencedUpdate, found, Option.map_some,
                elsewhere, Bool.false_and, Bool.false_eq_true, if_false]
        · exact found

omit [EmptyCollection π] [EmptyCollection σ] in
/-- The counters of a job after a step: a retry of a class raises that one by one. -/
theorem Moves.counts {settings : RetrySettings} {event : Event π σ ρ} {job later : Job π σ}
    (moves : Moves settings crew event job later) (retryClass : RetryClass) :
    later.retryCounts.count retryClass = job.retryCounts.count retryClass ∨
      later.retryCounts.count retryClass = job.retryCounts.count retryClass + 1 ∧
        ∃ verdict clock seconds, Settles crew event job verdict clock ∧
          verdict.error.outcome.retryClass = retryClass ∧
          later = retried retryClass (timedelta seconds) clock job := by
  by_cases settles : ∃ verdict clock, Settles crew event job verdict clock
  · obtain ⟨verdict, clock, settles⟩ := settles
    cases moves.ended verdict clock settles with
    | exhausted _ same =>
        left
        rw [same]
        rfl
    | retried seconds _ _ _ same =>
        have raised : later.retryCounts.count retryClass =
            if retryClass = verdict.error.outcome.retryClass then
              job.retryCounts.count verdict.error.outcome.retryClass + 1
            else job.retryCounts.count retryClass := by
          rw [same]
          exact count_set _ _ _ _
        by_cases mine : retryClass = verdict.error.outcome.retryClass
        · subst mine
          rw [if_pos rfl] at raised
          exact Or.inr ⟨raised, verdict, clock, seconds, settles, rfl, same⟩
        · rw [if_neg mine] at raised
          exact Or.inl raised
  · left
    rw [(moves.other fun verdict clock ends => settles ⟨verdict, clock, ends⟩).1]

/-- In every history no counter passes the cap of its class, and a step changes a counter only by
the retry of an attempt of that class, by one. An attempt that ends while its lease owns the row
fails with its class when the class is spent or the request id is missing, and otherwise waits a
bounded delay in the queue; nothing else records the class of a failure. -/
theorem retry_caps (settings : RetrySettings) (events : List (Event π σ ρ))
    (event : Event π σ ρ) :
    let policy := RetryPolicy.fromSettings settings
    let crew := exec (Crew.step policy) Crew.empty events
    ∀ id job, crew.queue.jobs.find? id = some job →
      (∀ retryClass, job.retryCounts.count retryClass ≤ policy.cap retryClass) ∧
      ∃ later, (crew.step policy event).queue.jobs.find? id = some later ∧
        (∀ retryClass,
          later.retryCounts.count retryClass = job.retryCounts.count retryClass ∨
          later.retryCounts.count retryClass = job.retryCounts.count retryClass + 1 ∧
            ∃ verdict clock seconds, Settles crew event job verdict clock ∧
              verdict.error.outcome.retryClass = retryClass ∧
              later = retried retryClass (timedelta seconds) clock job) ∧
        (∀ verdict clock, Settles crew event job verdict clock →
          Concludes settings verdict clock job later) ∧
        ((∀ verdict clock, ¬Settles crew event job verdict clock) →
          later.state = .failed → later.retryClass ≠ none → later = job) := by
  intro policy crew id job found
  have sound : crew.Sound policy := crew_sound events
  obtain ⟨later, laterFound, moves⟩ := Crew.step_moves sound event found
  exact ⟨sound.capped id job found, later, laterFound, moves.counts, moves.ended,
    fun none => (moves.other none).2⟩

def defaultSettings : RetrySettings where
  bounded := by decide
  positive := by decide
  ordered := by decide

def exampleHour : Cooldown := ⟨3600, by decide⟩

def exampleJitter : Jitter := ⟨1 / 2, by norm_num, by norm_num⟩

def cooldownEvents : List (Event (List Nat) (List Nat) Nat) :=
  [.call ⟨0, 0⟩ (.enqueue ⟨1, ⟨1, "asr", ""⟩, ∅, none⟩),
    .call ⟨0, 0⟩ (.claim "w" ["asr"] 60 fun _ => false),
    .raised 0 ⟨"ProviderCooldown", .providerCooldown (some exampleHour)⟩ exampleJitter,
    .settle 0 ⟨0, 0⟩]

/-- The hint of a cooldown is waited in full, above the ceiling of every other delay. -/
example :
    ((exec (Crew.step (RetryPolicy.fromSettings defaultSettings)) Crew.empty
      cooldownEvents).queue.jobs.find? 1).map
        (fun job => (job.state, job.retryCounts, job.availableAt)) =
      some (JobState.queued, [(RetryClass.rateLimited, 1)], 3600000000) := by
  decide +kernel

end Runs

end Ovrly.Jobs
