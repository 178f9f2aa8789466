import Ovrly.Asr.Retry
import Ovrly.Jobs.Refinement

/-!
Cancelling a job whose failed speech its owner may put back in the queue.

A cancel stores its outcome with the job and later cancels repeat it. An owner retry leaves that
column as it is, so a job that had failed before it was cancelled goes on with a receipt that
says it cannot be cancelled. Where no retry meets such a receipt every cancel of an active job
takes effect.
-/

namespace Ovrly.Asr

open Relational Runs Ovrly.Jobs

variable {δ σ : Type}

section Rows

variable {π ρ : Type}

def Noted (job next : Job π σ) : Prop :=
  next = { job with providerRequestId := next.providerRequestId }

theorem Noted.refl (job : Job π σ) : Noted job job := rfl

theorem Noted.trans {first second third : Job π σ} (noted : Noted first second)
    (further : Noted second third) : Noted first third := by
  unfold Noted at *
  rw [further, noted]

theorem reserveIn_moved {store next : Store π σ ρ} {settings : Settings} {call : Reservation}
    {id : RequestId} (reserved : reserveIn store settings call = .ok (id, next)) :
    RowsMoved Noted store.queue next.queue := by
  rw [(reserveIn_ok reserved).2.2.2]
  apply update_moved
  intro job _
  split
  · rfl
  · exact .refl job

end Rows

section Retry

variable {store next : SpeechStore δ σ (StageResult δ)}

theorem reserveEither_moved {settings : RetrySettings} {draw : Draw} {jobId : JobId}
    {seconds : Rat} {index : Nat}
    (reserved : reserveEither settings draw store jobId seconds index = .ok next) :
    RowsMoved Noted store.queue next.queue := by
  unfold reserveEither at reserved
  split at reserved
  · rename_i id primary answered
    simp only [Except.ok.injEq] at reserved
    exact reserved ▸ reserveIn_moved answered
  · cases reserved
  · cases fallback : reserveIn store settings.toSettings
        { id := draw.fallbackId, jobId, durationSeconds := seconds, index
          model := some settings.groqFallbackModel, timestamp := draw.fallbackTime } with
    | error refused => simp [fallback, Except.map] at reserved
    | ok answered =>
        rw [fallback] at reserved
        simp only [Except.map, Except.ok.injEq] at reserved
        exact reserved ▸ reserveIn_moved fallback

theorem reserveTargets_moved {call : RetryCall} {targets : List (SpeechJob δ σ × Rat)}
    (reserved : reserveTargets call store targets = .ok next) :
    RowsMoved Noted store.queue next.queue := by
  induction targets generalizing store with
  | nil =>
      simp only [reserveTargets, Except.ok.injEq] at reserved
      exact reserved ▸ .of_eq .refl store.queue
  | cons target rest ih =>
      simp only [reserveTargets] at reserved
      split at reserved
      · cases reserved
      · rename_i middle first
        exact (reserveEither_moved first).trans (ih reserved) fun _ _ _ _ => Noted.trans

structure Requeued (job next : SpeechJob δ σ) : Prop where
  id : next.id = job.id
  ownerId : next.ownerId = job.ownerId
  queued : next.state = .queued
  cancelRequested : next.cancelRequested = job.cancelRequested
  cancelOutcome : next.cancelOutcome = job.cancelOutcome

theorem requeued_requeued (number : Nat) (job : SpeechJob δ σ) :
    Requeued job (requeued number job) := ⟨rfl, rfl, rfl, rfl, rfl⟩

theorem Requeued.trans {first second third : SpeechJob δ σ} (before : Requeued first second)
    (after : Requeued second third) : Requeued first third where
  id := after.id.trans before.id
  ownerId := after.ownerId.trans before.ownerId
  queued := after.queued
  cancelRequested := after.cancelRequested.trans before.cancelRequested
  cancelOutcome := after.cancelOutcome.trans before.cancelOutcome

def PutBack (rows : List (SpeechJob δ σ)) (job later : SpeechJob δ σ) : Prop :=
  later = job ∨ (∃ row ∈ rows, row.id = job.id) ∧ Requeued job later

theorem PutBack.cons {row : SpeechJob δ σ} {rest : List (SpeechJob δ σ)}
    {job middle later : SpeechJob δ σ}
    (first : middle = if job.id == row.id then requeued (retryNumber row) job else job)
    (further : PutBack rest middle later) : PutBack (row :: rest) job later := by
  by_cases mine : job.id = row.id
  · rw [if_pos (by simpa using mine)] at first
    have back : Requeued job middle := first ▸ requeued_requeued _ job
    refine Or.inr ⟨⟨row, List.mem_cons_self, mine.symm⟩, ?_⟩
    rcases further with rfl | ⟨_, again⟩
    · exact back
    · exact back.trans again
  · rw [if_neg (by simpa using mine)] at first
    subst first
    refine further.imp_right ?_
    rintro ⟨⟨other, member, same⟩, again⟩
    exact ⟨⟨other, List.mem_cons_of_mem _ member, same⟩, again⟩

theorem requeueTargets_moved (rows : List (SpeechJob δ σ))
    (queue : Database (SpeechPayload δ) σ (StageResult δ)) :
    RowsMoved (PutBack rows) queue (rows.foldl requeue queue) := by
  induction rows generalizing queue with
  | nil => exact .of_eq (fun job => Or.inl rfl) queue
  | cons row rest ih =>
      have first : RowsMoved
          (fun job later => later = if job.id == row.id then requeued (retryNumber row) job else job)
          queue (requeue queue row) := update_moved fun job _ => rfl
      exact first.trans (ih (requeue queue row)) fun _ _ _ _ => PutBack.cons

variable {digests : Digests} {speech : Speech δ σ} {call : RetryCall}

structure Failed (speech : Speech δ σ) (job : SpeechJob δ σ) : Prop where
  stored : job ∈ speech.store.queue.jobs.rows
  failed : job.state = .failed
  unflagged : job.cancelRequested = false

theorem unlessReplayed_blocked {decision : Decision δ σ} {targets : List (SpeechJob δ σ × Rat)}
    (decided : unlessReplayed speech call decision = .blocked targets) :
    decision = .blocked targets := by
  unfold unlessReplayed at decided
  split at decided
  · exact decided
  · split at decided <;> cases decided

theorem unflagged_of_stopped {rows : List (SpeechJob δ σ)} (going : stopped rows = false)
    {job : SpeechJob δ σ} (member : job ∈ rows) : job.cancelRequested = false := by
  have alive := List.any_eq_false.mp going job member
  simp only [Bool.or_eq_true, not_or, Bool.not_eq_true] at alive
  exact alive.1.1

theorem quotaBlocked_failed {settings : RetrySettings} {job : SpeechJob δ σ}
    (blocked : quotaBlocked speech settings job = true) : job.state = .failed := by
  simp only [quotaBlocked, Bool.and_eq_true, beq_iff_eq] at blocked
  exact blocked.1.1.1.1

theorem decideUpload_failed {investigation : Investigation}
    {targets : List (SpeechJob δ σ × Rat)}
    (decided : decideUpload digests speech call investigation = .blocked targets) :
    ∀ target ∈ targets, Failed speech target.1 := by
  have decided := unlessReplayed_blocked decided
  split at decided
  · cases decided
  · rename_i eligible
    simp only [Bool.or_eq_true, not_or, Bool.not_eq_true] at eligible
    split at decided
    · cases decided
    · rename_i row chosen
      have member := List.mem_of_find?_eq_some chosen
      split at decided
      · cases decided
      split at decided
      · cases decided
      split at decided
      · cases decided
      split at decided
      · rename_i blocked
        split at decided
        · cases decided
        split at decided
        · cases decided
        simp only [Decision.blocked.injEq] at decided
        simp only [Bool.and_eq_true] at blocked
        simp only [← decided, List.mem_singleton, forall_eq]
        exact ⟨(List.mem_filter.mp member).1, quotaBlocked_failed blocked.1.1,
          unflagged_of_stopped eligible.1.2 member⟩
      · cases decided

theorem chunkSpeech_target {rows : List (SpeechJob δ σ)} {chunk : RetryChunk}
    {target : SpeechJob δ σ × Rat}
    (found : (chunkSpeech digests speech call rows chunk).target = some target) :
    target.1 ∈ rows ∧ target.1.state = .failed := by
  unfold chunkSpeech at found
  dsimp only at found
  split at found
  · cases found
  split at found
  · split at found <;> cases found
  split at found
  · cases found
  rename_i chosen
  split at found
  · cases found
  split at found
  · split at found
    · rename_i blocked
      simp only [ChunkSpeech.target, Option.some.injEq] at found
      simp only [Bool.and_eq_true] at blocked
      exact found ▸ ⟨List.mem_of_find?_eq_some chosen, quotaBlocked_failed blocked.1⟩
    · cases found
  · cases found

theorem decideCapture_failed {investigation : Investigation}
    {targets : List (SpeechJob δ σ × Rat)}
    (decided : decideCapture digests speech call investigation = .blocked targets) :
    ∀ target ∈ targets, Failed speech target.1 := by
  have decided := unlessReplayed_blocked decided
  split at decided
  · cases decided
  · cases decided
  · split at decided
    · cases decided
    · rename_i eligible
      simp only [Bool.or_eq_true, not_or, Bool.not_eq_true] at eligible
      unfold captureOutcome at decided
      dsimp only at decided
      split at decided
      · split at decided
        · cases decided
        · split at decided <;> cases decided
      · simp only [Decision.blocked.injEq] at decided
        subst decided
        intro target member
        obtain ⟨standing, listed, found⟩ := List.mem_filterMap.mp member
        obtain ⟨chunk, _, rfl⟩ := List.mem_map.mp listed
        obtain ⟨row, failed⟩ := chunkSpeech_target found
        exact ⟨(List.mem_filter.mp row).1, failed, unflagged_of_stopped eligible.2 row⟩

theorem decideRetry_failed {targets : List (SpeechJob δ σ × Rat)}
    (decided : decideRetry digests speech call = .blocked targets) :
    ∀ target ∈ targets, Failed speech target.1 := by
  unfold decideRetry at decided
  split at decided
  · cases decided
  · split at decided
    · exact decideCapture_failed decided
    · exact decideUpload_failed decided
    · exact decideUpload_failed decided

variable (digests speech call) in
def retried : List (SpeechJob δ σ) :=
  match decideRetry digests speech call with
  | .blocked targets =>
      match reserveTargets call speech.store targets with
      | .ok _ => targets.map Prod.fst
      | .error _ => []
  | .refused | .answered _ | .recorded _ => []

theorem retried_failed {job : SpeechJob δ σ} (member : job ∈ retried digests speech call) :
    Failed speech job := by
  unfold retried at member
  split at member
  · rename_i targets decided
    split at member
    · obtain ⟨target, listed, rfl⟩ := List.mem_map.mp member
      exact decideRetry_failed decided target listed
    · cases member
  all_goals cases member

def Retried (digests : Digests) (speech : Speech δ σ) (call : RetryCall)
    (job later : SpeechJob δ σ) : Prop :=
  Noted job later ∨ job ∈ retried digests speech call ∧ Requeued job later

theorem record_store {next written : Speech δ σ} {outcome : SpeechRetryOutcome}
    (recorded : next.record call outcome = some written) : written.store = next.store := by
  obtain ⟨retries, _, rfl⟩ := Option.map_eq_some_iff.mp recorded
  rfl

theorem targets_moved {targets : List (SpeechJob δ σ × Rat)}
    {store : SpeechStore δ σ (StageResult δ)}
    (decided : decideRetry digests speech call = .blocked targets)
    (reserved : reserveTargets call speech.store targets = .ok store) :
    RowsMoved (Retried digests speech call) speech.store.queue
      (requeueTargets store.queue targets) := by
  have listed : retried digests speech call = targets.map Prod.fst := by
    simp only [retried, decided, reserved]
  refine (reserveTargets_moved reserved).trans
    (requeueTargets_moved (targets.map Prod.fst) store.queue) ?_
  rintro job stored middle later noted (rfl | ⟨⟨row, member, same⟩, back⟩)
  · exact Or.inl noted
  · right
    rw [← listed] at member
    rw [noted] at same back
    have mine : row = job := Table.eq_of_key (retried_failed member).stored stored same
    exact ⟨mine ▸ member, back.id, back.ownerId, back.queued, back.cancelRequested,
      back.cancelOutcome⟩

theorem retrySpeech_moved :
    RowsMoved (Retried digests speech call) speech.store.queue
      (retrySpeech digests speech call).2.store.queue := by
  have kept : RowsMoved (Retried digests speech call) speech.store.queue speech.store.queue :=
    .of_eq (fun job => Or.inl (.refl job)) speech.store.queue
  unfold retrySpeech
  dsimp only
  split
  · exact kept
  · exact kept
  · split
    · exact kept
    · rename_i written recorded
      rw [record_store recorded]
      exact kept
  · rename_i targets decided
    split
    · exact kept
    · split
      · exact kept
      · rename_i written recorded
        rw [record_store recorded]
        exact kept
    · rename_i store reserved
      split
      · exact kept
      · rename_i written recorded
        rw [record_store recorded]
        exact targets_moved decided reserved

end Retry

section History

/-- What happens to the jobs and the speech ledger. A cancel names the job that the request of
its job points at, if it works for one. -/
inductive Event (δ σ : Type)
  | queue (clock : Clock) (call : Call (SpeechPayload δ) σ (StageResult δ))
  | begin (settings : Settings) (job : SpeechClaim δ σ) (model : String) (durationSeconds : Rat)
      (id : RequestId) (timestamp : Time) (clock : Clock)
  | complete (job : SpeechClaim δ σ) (requestId : RequestId) (outcome : Outcome)
      (result : Option (StageResult δ)) (retryAfter : Option Int) (clock : Clock)
  | retry (call : RetryCall)
  | cancel (current : Option JobId) (jobId : JobId) (principal : PrincipalId) (clock : Clock)

def Speech.empty : Speech δ σ := ⟨⟨Database.empty, Table.empty⟩, Table.empty⟩

variable [EmptyCollection δ] [EmptyCollection σ]

def Speech.step (digests : Digests) (speech : Speech δ σ) : Event δ σ → Speech δ σ
  | .queue clock call =>
      { speech with
        store := { speech.store with queue := Jobs.step speech.store.queue (clock, call) } }
  | .begin settings job model durationSeconds id timestamp clock =>
      match Asr.begin speech.store settings job model durationSeconds id timestamp clock with
      | .error _ => speech
      | .ok (_, store) => { speech with store }
  | .complete job requestId outcome result retryAfter clock =>
      match Asr.complete speech.store job requestId outcome result retryAfter clock with
      | .error _ => speech
      | .ok store => { speech with store }
  | .retry call => (retrySpeech digests speech call).2
  | .cancel current jobId principal clock =>
      match cancelLoaded speech.store.queue current jobId principal clock with
      | none => speech
      | some (_, queue) => { speech with store := { speech.store with queue } }

variable {digests : Digests} {speech : Speech δ σ}

/-- What an event does to the row of a job. -/
inductive Changed (digests : Digests) (speech : Speech δ σ) (event : Event δ σ)
    (job : SpeechJob δ σ) : SpeechJob δ σ → Prop
  | noted {later} : Noted job later → Changed digests speech event job later
  | moved {clock call later} :
      RowStep clock (call : Call (SpeechPayload δ) σ (StageResult δ)) job later →
      Changed digests speech event job later
  | asked {clock asked outcome later} : Asked clock job asked →
      later = asked ∨ later = receipted outcome asked → Changed digests speech event job later
  | requeued {call later} : event = .retry call → job ∈ retried digests speech call →
      Requeued job later →
      Changed digests speech event job later

omit [EmptyCollection δ] [EmptyCollection σ] in
theorem begin_moved {store next : SpeechStore δ σ (StageResult δ)} {settings : Settings}
    {job : SpeechClaim δ σ} {model : String} {seconds : Rat} {id requestId : RequestId}
    {timestamp : Time} {clock : Clock}
    (began : Asr.begin store settings job model seconds id timestamp clock =
      .ok (requestId, next)) : RowsMoved Noted store.queue next.queue := by
  unfold Asr.begin at began
  split at began
  · cases began
  · split at began
    · split at began
      · cases began
      · simp only [Except.ok.injEq, Prod.mk.injEq] at began
        exact began.2 ▸ .of_eq .refl store.queue
    · cases reserved : reserveIn store settings
        { id, jobId := job.lease.jobId, durationSeconds := seconds, index := retryIndex job
          model := some model, timestamp, outcome := .uncertain } with
      | error refused => simp [reserved, Except.mapError] at began
      | ok answer =>
          simp only [reserved, Except.mapError, Except.ok.injEq] at began
          subst began
          exact reserveIn_moved reserved

omit [EmptyCollection δ] [EmptyCollection σ] in
theorem complete_queue {store next : SpeechStore δ σ (StageResult δ)} {job : SpeechClaim δ σ}
    {requestId : RequestId} {outcome : Outcome} {result : Option (StageResult δ)}
    {retryAfter : Option Int} {clock : Clock}
    (completed : Asr.complete store job requestId outcome result retryAfter clock = .ok next) :
    next.queue = store.queue := by
  unfold Asr.complete at completed
  split at completed
  · cases completed
  · simp only [Except.ok.injEq] at completed
    rw [← completed]

theorem step_moved (digests : Digests) (speech : Speech δ σ) {event : Event δ σ}
    (other : ∀ clock call, event ≠ .queue clock call) :
    RowsMoved (Changed digests speech event) speech.store.queue
      (speech.step digests event).store.queue := by
  have kept : RowsMoved (Changed digests speech event) speech.store.queue speech.store.queue :=
    .of_eq (fun job => .noted (.refl job)) speech.store.queue
  cases event with
  | queue clock call => exact absurd rfl (other clock call)
  | begin settings job model seconds id timestamp clock =>
      simp only [Speech.step]
      split
      · exact kept
      · rename_i requestId store began
        exact (begin_moved began).mono fun job later noted => .noted noted
  | complete job requestId outcome result retryAfter clock =>
      simp only [Speech.step]
      split
      · exact kept
      · rename_i store completed
        rw [complete_queue completed]
        exact kept
  | retry call =>
      refine retrySpeech_moved.mono fun job later retried => ?_
      rcases retried with noted | ⟨member, back⟩
      · exact .noted noted
      · exact .requeued rfl member back
  | cancel current jobId principal clock =>
      simp only [Speech.step]
      split
      · exact kept
      · rename_i outcome queue answered
        refine (cancelLoaded_rows answered).mono fun job later changed => ?_
        obtain ⟨asked, before, after⟩ := changed
        exact .asked before after

theorem step_later (digests : Digests) (event : Event δ σ) {jobId : JobId}
    {job : SpeechJob δ σ} (found : speech.store.queue.jobs.find? jobId = some job) :
    ∃ later, (speech.step digests event).store.queue.jobs.find? jobId = some later ∧
      Changed digests speech event job later := by
  by_cases onQueue : ∃ clock call, event = .queue clock call
  · obtain ⟨clock, call, rfl⟩ := onQueue
    obtain ⟨later, laterFound, moved⟩ := step_row clock call found
    exact ⟨later, laterFound, .moved moved⟩
  · push Not at onQueue
    exact (step_moved digests speech onQueue jobId).1 job found

theorem Changed.givenUp {event : Event δ σ} {job later : SpeechJob δ σ} (changed : Changed digests speech event job later)
    (givenUp : job.GivenUp) : later.GivenUp := by
  cases changed with
  | noted noted =>
      rw [noted]
      exact givenUp
  | moved moved => exact moved.givenUp givenUp
  | requeued _ _ back => exact back.cancelRequested.trans givenUp
  | asked asked after =>
      rename_i clock middle outcome
      have kept : middle.GivenUp := by
        rcases asked with rfl | ⟨target, moved⟩
        · exact givenUp
        · exact moved.givenUp givenUp
      rcases after with rfl | rfl <;> exact kept

theorem givenUp_run (digests : Digests) (events : List (Event δ σ)) {speech : Speech δ σ}
    {jobId : JobId} {job : SpeechJob δ σ}
    (found : speech.store.queue.jobs.find? jobId = some job) (givenUp : job.GivenUp) :
    ∃ later, (exec (Speech.step digests) speech events).store.queue.jobs.find? jobId =
      some later ∧ later.GivenUp := by
  induction events generalizing speech job with
  | nil => exact ⟨job, found, givenUp⟩
  | cons event rest ih =>
      obtain ⟨later, laterFound, changed⟩ := step_later digests event found
      exact ih laterFound (changed.givenUp givenUp)

/-- No publication of a job that was given up succeeds. -/
theorem givenUp_publish (digests : Digests) (speech : Speech δ σ) {jobId : JobId}
    {job : SpeechJob δ σ} (found : speech.store.queue.jobs.find? jobId = some job)
    (givenUp : job.GivenUp) (events : List (Event δ σ)) (lease : Lease)
    (result : StageResult δ) (successors : List (NewJob (SpeechPayload δ)))
    (onPublish : OnPublish (SpeechPayload δ)) (clock : Clock) (same : lease.jobId = jobId) :
    ∃ error, (publish (exec (Speech.step digests) speech events).store.queue lease result
      successors onPublish clock).1 = .error error := by
  obtain ⟨last, lastFound, stays⟩ := givenUp_run digests events found givenUp
  rcases publish_cases (exec (Speech.step digests) speech events).store.queue lease result
      successors onPublish clock with
    ⟨-, refused⟩ | ⟨row, _, _, publishing, holds, -⟩
  · exact refused
  · rw [same, lastFound, Option.some.injEq] at publishing
    subst publishing
    simp only [Jobs.active, Bool.and_eq_true, Bool.not_eq_true'] at holds
    rw [stays] at holds
    cases holds.1.2

/-- Every job that the event puts back in the queue holds no receipt. -/
def Unanswered (digests : Digests) (speech : Speech δ σ) : Event δ σ → Prop
  | .retry call => ∀ job ∈ retried digests speech call, job.cancelOutcome = none
  | .queue _ _ | .begin _ _ _ _ _ _ _ | .complete _ _ _ _ _ _ | .cancel _ _ _ _ => True

def Speech.Honest (speech : Speech δ σ) : Prop :=
  ∀ job ∈ speech.store.queue.jobs.rows, Jobs.Honest job

omit [EmptyCollection δ] [EmptyCollection σ] in
theorem Noted.honest {job later : SpeechJob δ σ} (noted : Noted job later)
    (honest : Jobs.Honest job) : Jobs.Honest later := by
  rw [noted]
  exact ⟨honest.lawful, honest.receipt⟩

omit [EmptyCollection δ] [EmptyCollection σ] in
theorem Requeued.honest {job later : SpeechJob δ σ} (back : Requeued job later)
    (failed : Failed speech job) (unanswered : job.cancelOutcome = none) :
    Jobs.Honest later where
  lawful := by
    have unflagged := back.cancelRequested.trans failed.unflagged
    simp [JobStatus.Lawful, Job.status, back.queued, unflagged]
  receipt outcome stored _ := by
    rw [back.cancelOutcome, unanswered] at stored
    cases stored

theorem step_honest (event : Event δ σ) (unanswered : Unanswered digests speech event)
    (honest : speech.Honest) : (speech.step digests event).Honest := by
  intro later member
  have found := Table.find?_of_mem member
  cases event with
  | queue clock call =>
      rcases step_origin found with ⟨job, earlier, moved⟩ | ⟨new, inserted⟩
      · exact moved.honest (honest job (Table.mem_of_find? earlier))
      · exact inserted ▸ honest_newRow new clock
  | begin settings job model seconds id timestamp clock =>
      simp only [Speech.step] at member found
      split at found
      · exact honest later (Table.mem_of_find? found)
      · rename_i requestId store began
        obtain ⟨job, earlier, noted⟩ := (begin_moved began).earlier found
        exact noted.honest (honest job (Table.mem_of_find? earlier))
  | complete job requestId outcome result retryAfter clock =>
      simp only [Speech.step] at member found
      split at found
      · exact honest later (Table.mem_of_find? found)
      · rename_i store completed
        rw [complete_queue completed] at found
        exact honest later (Table.mem_of_find? found)
  | retry call =>
      obtain ⟨job, earlier, noted | ⟨put, back⟩⟩ := retrySpeech_moved.earlier found
      · exact noted.honest (honest job (Table.mem_of_find? earlier))
      · exact back.honest (retried_failed put) (unanswered job put)
  | cancel current jobId principal clock =>
      simp only [Speech.step] at member found
      split at found
      · exact honest later (Table.mem_of_find? found)
      · rename_i outcome queue answered
        exact cancelLoaded_honest honest answered found

/-- A job becomes active again only by an owner retry. -/
theorem Changed.reactivated {event : Event δ σ} {job later : SpeechJob δ σ}
    (changed : Changed digests speech event job later) (inactive : job.state.isActive = false)
    (active : later.state.isActive = true) :
    (∃ call, event = .retry call ∧ job ∈ retried digests speech call) ∧
      later.cancelOutcome = job.cancelOutcome := by
  cases changed with
  | noted noted =>
      rw [noted] at active
      rw [inactive] at active
      cases active
  | moved moved =>
      rw [moved.isActive active] at inactive
      cases inactive
  | requeued retry put back => exact ⟨⟨_, retry, put⟩, back.cancelOutcome⟩
  | asked asked after =>
      have before : job.state.isActive = true := by
        rcases after with rfl | rfl
        · exact asked.isActive active
        · exact asked.isActive active
      rw [before] at inactive
      cases inactive

/-- Where no owner retry puts back a job that holds the receipt of a cancel, every cancel of an
active job is effective or requested and no later publication of the job succeeds, and a job
that becomes active again holds no receipt from before. -/
theorem cancellation_honoured (digests : Digests) (events : List (Event δ σ))
    (unanswered : Meets (Speech.step digests) (Unanswered digests) .empty events) :
    let after (run : List (Event δ σ)) := exec (Speech.step digests) .empty run
    (∀ jobId job principal current clock,
      (after events).store.queue.jobs.find? jobId = some job → job.ownerId = some principal →
      job.state.isActive = true →
      ∃ outcome next,
        cancelLoaded (after events).store.queue current jobId principal clock =
          some (outcome, next) ∧
        (outcome = .effective ∨ outcome = .requested) ∧
        (∃ row, next.jobs.find? jobId = some row ∧
          (row.state = .cancelled ∨ row.cancelRequested = true)) ∧
        ∀ (later : List (Event δ σ)) lease result successors onPublish time,
          lease.jobId = jobId →
          ∃ error, (publish
            (exec (Speech.step digests)
              { after events with store := { (after events).store with queue := next } }
              later).store.queue lease result successors onPublish time).1 = .error error) ∧
    ∀ before event rest, events = before ++ event :: rest → ∀ jobId job next,
      (after before).store.queue.jobs.find? jobId = some job → job.state.isActive = false →
      (after (before ++ [event])).store.queue.jobs.find? jobId = some next →
      next.state.isActive = true → job.cancelOutcome = none ∧ next.cancelOutcome = none := by
  intro after
  constructor
  · intro jobId job principal current clock found mine active
    obtain rfl : job.id = jobId := Table.find?_key found
    have honest : (after events).Honest :=
      exec_invariant_of_meets Speech.Honest (fun _ event met honest => step_honest event met honest)
        (by intro job member; cases member) unanswered
    obtain ⟨outcome, next, answered, taken, row, rowFound, givenUp⟩ :=
      cancelLoaded_active current clock found
        (honest job (Table.mem_of_find? found)) mine active
    refine ⟨outcome, next, answered, taken, ⟨row, rowFound, Or.inr givenUp⟩, ?_⟩
    exact fun later lease result successors onPublish time same =>
      givenUp_publish digests
        { after events with store := { (after events).store with queue := next } } rowFound givenUp
        later lease result successors onPublish time same
  · rintro before event rest rfl jobId job next found inactive nextFound active
    rw [meets_append] at unanswered
    rw [show after (before ++ [event]) = (after before).step digests event from
      exec_concat _ _ _] at nextFound
    obtain ⟨later, laterFound, changed⟩ := step_later digests event found
    rw [nextFound, Option.some.injEq] at laterFound
    subst laterFound
    obtain ⟨⟨call, rfl, put⟩, receipt⟩ := changed.reactivated inactive active
    have none : job.cancelOutcome = none := unanswered.2.1 job put
    exact ⟨none, receipt.trans none⟩

end History

section Example

def exampleSettings : RetrySettings where
  groqAccountId := "account"
  groqModel := "primary"
  groqFallbackModel := "fallback"
  asrRequestsPerMinute := some 1
  asrRequestsPerDay := some 1
  asrAudioSecondsPerHour := some 10
  asrAudioSecondsPerDay := some 10
  asrMinimumBillableSeconds := none
  asrEnabled := true
  asrConfigured := true
  uploadMaxBytes := 10
  maxSharedDurationSeconds := 10
  speechSettingsHash := "settings"

def exampleDigests : Digests := ⟨fun _ => "upload", fun _ _ => "chunk"⟩

def exampleRetry : RetryCall where
  principal := 1
  key := "key"
  investigationId := 7
  settings := exampleSettings
  investigation := some ⟨.upload, false⟩
  textMedia := none
  upload := some ⟨true, "source", 5, true, true⟩
  session := none
  chunks := []
  draw _ := ⟨1, 100, 2, 100⟩

abbrev ExampleEvent := Event (List Unit) (List Unit)

def exampleFailure : List ExampleEvent :=
  [.queue ⟨0, 0⟩ (.enqueue ⟨1, ⟨1, "media_validation", "upload"⟩, ∅, some 1⟩),
    .queue ⟨0, 0⟩ (.claim "worker" ["media_validation"] 60 fun _ => false),
    .queue ⟨0, 0⟩ (.start ⟨1, "worker", 1, 0, 60⟩),
    .queue ⟨0, 0⟩ (.publish ⟨1, "worker", 1, 0, 60⟩ ⟨some ⟨"source", 1000, some 1⟩, none, []⟩
      [⟨2, ⟨1, "upload_asr", "upload"⟩, ⟨none, some "settings", []⟩, some 1⟩] {}),
    .queue ⟨0, 0⟩ (.claim "worker" ["upload_asr"] 60 fun _ => false),
    .queue ⟨0, 0⟩ (.start ⟨2, "worker", 1, 0, 60⟩),
    .queue ⟨0, 0⟩ (.fail ⟨2, "worker", 1, 0, 60⟩ "ASRQuotaExhausted" none)]

def exampleSpeech (events : List ExampleEvent) : Speech (List Unit) (List Unit) :=
  exec (Speech.step exampleDigests) .empty events

/-- A retried job that holds no receipt is cancelled. -/
theorem cancellation_honoured_retried :
    ∃ outcome next,
      cancelLoaded (exampleSpeech (exampleFailure ++ [.retry exampleRetry])).store.queue none 2 1
        ⟨0, 0⟩ = some (outcome, next) ∧ (outcome = .effective ∨ outcome = .requested) := by
  have unanswered : Meets (Speech.step exampleDigests) (Unanswered exampleDigests) .empty
      (exampleFailure ++ [.retry exampleRetry]) := by
    refine meets_append.mpr ⟨by simp [exampleFailure, Meets, Unanswered], ?_, trivial⟩
    change ∀ job ∈ retried exampleDigests (exampleSpeech exampleFailure) exampleRetry,
      job.cancelOutcome = none
    decide +kernel
  have queued : ((exampleSpeech (exampleFailure ++ [.retry exampleRetry])).store.queue.jobs.find?
      2).any (fun job => job.ownerId == some 1 && job.state.isActive) = true := by
    decide +kernel
  obtain ⟨job, found, holds⟩ := (Option.any_eq_true _ _).mp queued
  simp only [Bool.and_eq_true, beq_iff_eq] at holds
  obtain ⟨outcome, next, answered, taken, -⟩ :=
    (cancellation_honoured exampleDigests _ unanswered).1 2 job 1 none ⟨0, 0⟩ found holds.1 holds.2
  exact ⟨outcome, next, answered, taken⟩

/-- A job that failed before it was cancelled is queued again with the receipt of that cancel,
which the next cancel repeats. -/
theorem cancellation_not_honoured :
    let speech := exampleSpeech (exampleFailure ++ [.cancel none 2 1 ⟨0, 0⟩, .retry exampleRetry])
    ∃ job, speech.store.queue.jobs.find? 2 = some job ∧ job.ownerId = some 1 ∧
      job.state = .queued ∧ job.cancelRequested = false ∧
      cancelLoaded speech.store.queue none 2 1 ⟨0, 0⟩ =
        some (.notCancellable, speech.store.queue) := by
  intro speech
  have revived : (speech.store.queue.jobs.find? 2).any (fun job =>
      job.ownerId == some 1 && job.state == .queued && job.cancelRequested == false &&
        job.cancelOutcome == some .notCancellable) = true := by
    decide +kernel
  obtain ⟨job, found, holds⟩ := (Option.any_eq_true _ _).mp revived
  simp only [Bool.and_eq_true, beq_iff_eq] at holds
  obtain ⟨⟨⟨mine, queued⟩, unflagged⟩, receipt⟩ := holds
  refine ⟨job, found, mine, queued, unflagged, ?_⟩
  have loaded : loadOwned speech.store.queue 2 1 = some job := by
    simp [loadOwned, found, Option.filter, mine, queued]
  simp only [cancelLoaded, loaded, receipt]

end Example

end Ovrly.Asr
