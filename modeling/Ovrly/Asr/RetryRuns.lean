import Ovrly.Asr.CaptureRetry

/-!
Runs of capture intake, the job queue, hosted speech and owner retries.

A retry for a capture reads the session and its received chunks from the rows that intake writes.
A closed session stays closed, a received chunk stays received and a job that was given up is not
put back, so whoever gave a capture up has done so for good.
-/

namespace Ovrly.Asr

open Relational Runs Ovrly.Jobs
open Ovrly.Reports (Uuid)
open Ovrly.Captures (Intake CaptureSession CaptureChunk CaptureSettings Station Validation
  isReceived)

variable {δ σ : Type}

section Model

/-- The digests in the stage keys, where those of different chunks differ. -/
structure Stages (δ : Type) extends Digests where
  /-- `UUID.int` -/
  number : Uuid → Nat
  payload : Uuid → Nat → SpeechPayload δ
  number_injective : Function.Injective number
  chunk_injective : ∀ {id other seq otherSeq}, chunk id seq = chunk other otherSeq →
    id = other ∧ seq = otherSeq

/-- `stage_key` of the validation of a chunk. -/
def Stages.validation (stages : Stages δ) : Validation (SpeechPayload δ) where
  key captureId seq := ⟨1, "media_validation", stages.chunk (stages.number captureId) seq⟩
  payload := stages.payload
  injective same :=
    have apart := stages.chunk_injective (StageKey.mk.inj same).2.2
    ⟨stages.number_injective apart.1, apart.2⟩

/-- A call of `retry_speech` for a capture, with what it reads beside the rows. -/
structure RetryRequest where
  principal : PrincipalId
  key : String
  captureId : Uuid
  settings : RetrySettings
  /-- A close without research cancels the investigation, which may run again after. -/
  stillCancelled : Bool
  /-- `store.digest` is that of the chunk. -/
  intact : Nat → Bool
  draw : JobId → Draw
  /-- The order of a `SELECT` without `ORDER BY`. -/
  order : List CaptureChunk → List CaptureChunk
  permutes : ∀ chunks, (order chunks).Perm chunks

structure Captured (δ σ : Type) where
  intake : Intake
  speech : Speech δ σ
  decided : ∀ session ∈ intake.sessions.rows, session.continueResearch = some false →
    session.closed = true

variable (stages : Stages δ) (world : Captured δ σ) (request : RetryRequest)

def Captured.callOf : RetryCall :=
  let session := (world.intake.loadOwned request.captureId request.principal).toOption
  { principal := request.principal
    key := request.key
    investigationId := stages.number request.captureId
    settings := request.settings
    investigation := session.map fun row =>
      ⟨.capture, request.stillCancelled && row.continueResearch == some false⟩
    textMedia := none
    upload := none
    session := session.map (·.continueResearch)
    chunks := (request.order ((world.intake.rowsFor request.captureId).filter isReceived)).map
      fun chunk => ⟨chunk.seq, request.intact chunk.seq⟩
    draw := request.draw }

def Captured.retry : Option SpeechRetryOutcome × Captured δ σ :=
  let answer := retrySpeech stages.toDigests world.speech (world.callOf stages request)
  (answer.1, { world with speech := answer.2 })

/-- What happens to captures and their speech. Other retries name no capture. -/
inductive CaptureEvent (δ σ : Type)
  | intake (event : Captures.Event)
  | retry (request : RetryRequest)
  | speech (event : Event δ σ)

/-- The event is no retry for a capture. -/
def Captured.foreign : Event δ σ → Bool
  | .retry call =>
      world.intake.sessions.rows.all fun session =>
        stages.number session.id != call.investigationId
  | .queue _ _ | .begin _ _ _ _ _ _ _ | .complete _ _ _ _ _ _ | .cancel _ _ _ _ => true

end Model

section Sessions

variable {π ρ : Type} [EmptyCollection σ] {settings : CaptureSettings}
  {validation : Validation π} {captureId : Uuid} {session : CaptureSession}

variable (settings validation)

theorem sessions_step (station : Station π σ ρ) (event : Captures.Event) :
    let later := station.step settings validation event
    ∀ session ∈ later.intake.sessions.rows, session ∈ station.intake.sessions.rows ∨
      session.closed = true := by
  intro later session member
  cases event with
  | reserve call =>
      simp only [later, Station.step] at member
      split at member
      · exact .inl member
      · rename_i reserved
        rcases Captures.reserve_ok reserved with ⟨-, rfl⟩ | ⟨-, same, -⟩
        · exact .inl member
        · exact .inl (same ▸ member)
  | store call =>
      simp only [later, Station.step] at member
      split at member
      · exact .inl member
      · rename_i stored
        rcases Captures.store_ok stored with ⟨rfl, -⟩ | ⟨_, _, _, _, _, _, _, _, _, rfl⟩
        · exact .inl member
        · exact .inl member
  | close call =>
      simp only [later, Station.step] at member
      split at member
      · exact .inl member
      · rename_i closed
        rcases Captures.closeCapture_ok closed with ⟨rfl, -⟩ | ⟨_, _, _, _, _, rfl, -⟩
        · exact .inl member
        · obtain ⟨before, listed, rfl⟩ := List.mem_map.mp member
          split
          · exact .inr rfl
          · exact .inl listed

theorem session_step (station : Station π σ ρ) (event : Captures.Event)
    (found : station.intake.sessions.find? captureId = some session) :
    ∃ next, (station.step settings validation event).intake.sessions.find? captureId =
        some next ∧
      next.ownerId = session.ownerId ∧ (session.closed = true → next = session) := by
  obtain ⟨next, later, change⟩ := Captures.step_change settings validation station event found
  refine ⟨next, later, ?_⟩
  generalize eq : (station.step settings validation event).view validation captureId next = after
    at change
  have same : after.session = next := by rw [← eq]; rfl
  rw [← same]
  cases change with
  | kept | reserved _ _ _ _ _ | received _ _ _ _ _ => exact ⟨rfl, fun _ => rfl⟩
  | closed open_ _ =>
      refine ⟨rfl, fun closed => ?_⟩
      rw [show session.closed = false from open_] at closed
      cases closed

theorem received_step (station : Station π σ ρ) (event : Captures.Event)
    (found : station.intake.sessions.find? captureId = some session) {chunk : CaptureChunk}
    (member : chunk ∈ station.intake.rowsFor captureId) (received : isReceived chunk = true) :
    ∃ later ∈ (station.step settings validation event).intake.rowsFor captureId,
      later.seq = chunk.seq ∧ isReceived later = true := by
  obtain ⟨next, -, change⟩ := Captures.step_change settings validation station event found
  generalize eq : (station.step settings validation event).view validation captureId next = after
    at change
  have same : after.chunks =
      (station.step settings validation event).intake.rowsFor captureId := by
    rw [← eq]
    rfl
  rw [← same]
  cases change with
  | kept | closed _ _ => exact ⟨chunk, member, rfl, received⟩
  | reserved _ _ _ _ _ => exact ⟨chunk, List.mem_append_left _ member, rfl, received⟩
  | received _ _ _ _ _ =>
      refine ⟨_, List.mem_map_of_mem member, ?_⟩
      split
      · exact ⟨rfl, rfl⟩
      · exact ⟨rfl, received⟩

end Sessions

section Jobs

def Stopped (job : SpeechJob δ σ) : Prop := job.GivenUp ∨ job.Withdrawn

structure StaysStopped (job later : SpeechJob δ σ) : Prop where
  key : later.key = job.key
  ownerId : later.ownerId = job.ownerId
  stopped : Stopped later

theorem stopped_iff {rows : List (SpeechJob δ σ)} :
    stopped rows = true ↔ ∃ job ∈ rows, Stopped job := by
  rw [stopped, List.any_eq_true]
  refine exists_congr fun job => and_congr_right fun _ => ?_
  simp only [Bool.or_eq_true, beq_iff_eq, Stopped, Job.Withdrawn]
  rw [or_assoc, or_comm (a := job.state = .deleted)]

variable [EmptyCollection δ] [EmptyCollection σ] {digests : Digests} {speech : Speech δ σ}
  {clock : Clock} {job later : SpeechJob δ σ}

theorem staysStopped_of_moved {ρ : Type} {call : Call (SpeechPayload δ) σ ρ}
    (moved : RowStep clock call job later) (stopped : Stopped job) : StaysStopped job later where
  key := by
    have settledKey : (settled clock job).key = job.key := by
      simp only [settled]
      split <;> rfl
    cases moved with
    | claimed _ => exact settledKey
    | _ => rfl
  ownerId := by
    have settledOwner : (settled clock job).ownerId = job.ownerId := by
      simp only [settled]
      split <;> rfl
    cases moved with
    | claimed _ => exact settledOwner
    | _ => rfl
  stopped := stopped.imp moved.givenUp moved.withdrawn

omit [EmptyCollection δ] [EmptyCollection σ] in
theorem StaysStopped.trans {first second third : SpeechJob δ σ}
    (before : StaysStopped first second) (after : StaysStopped second third) :
    StaysStopped first third :=
  ⟨after.key.trans before.key, after.ownerId.trans before.ownerId, after.stopped⟩

theorem Changed.staysStopped {event : Event δ σ} (changed : Changed digests speech event job later)
    (stopped : Stopped job) : StaysStopped job later := by
  cases changed with
  | noted noted =>
      rw [noted]
      exact ⟨rfl, rfl, stopped⟩
  | moved moved => exact staysStopped_of_moved moved stopped
  | requeued _ put _ =>
      -- A retry puts back only failed rows that nobody gave up.
      have failed := retried_failed put
      rcases stopped with flagged | cancelled | deleted
      · exact absurd (failed.unflagged.symm.trans flagged) Bool.false_ne_true
      · rw [failed.failed] at cancelled
        cases cancelled
      · rw [failed.failed] at deleted
        cases deleted
  | asked asked after =>
      rename_i clock middle outcome
      have kept : StaysStopped job middle := by
        rcases asked with rfl | ⟨target, moved⟩
        · exact ⟨rfl, rfl, stopped⟩
        · exact staysStopped_of_moved moved stopped
      rcases after with rfl | rfl
      · exact kept
      · exact ⟨kept.key, kept.ownerId, kept.stopped⟩

theorem stopped_requestCancelAll {ρ : Type} (identifiers : List JobId) (clock : Clock)
    {queue : Database (SpeechPayload δ) σ ρ} {jobId : JobId} {job : SpeechJob δ σ}
    (found : queue.jobs.find? jobId = some job) (stopped : Stopped job) :
    ∃ later, (Captures.requestCancelAll queue clock identifiers).jobs.find? jobId = some later ∧
      StaysStopped job later := by
  unfold Captures.requestCancelAll
  induction identifiers generalizing queue job with
  | nil => exact ⟨job, found, rfl, rfl, stopped⟩
  | cons target rest ih =>
      obtain ⟨middle, middleFound, moved⟩ := (requestCancel_rows queue target clock jobId).1 job found
      have first := staysStopped_of_moved moved stopped
      obtain ⟨later, laterFound, further⟩ := ih middleFound first.stopped
      exact ⟨later, laterFound, first.trans further⟩

theorem stopped_intake (settings : CaptureSettings) (validation : Validation (SpeechPayload δ))
    (station : Station (SpeechPayload δ) σ (StageResult δ)) (event : Captures.Event)
    {jobId : JobId} (found : station.queue.jobs.find? jobId = some job) (stopped : Stopped job) :
    ∃ later, (station.step settings validation event).queue.jobs.find? jobId = some later ∧
      StaysStopped job later := by
  have kept : ∃ later, station.queue.jobs.find? jobId = some later ∧ StaysStopped job later :=
    ⟨job, found, rfl, rfl, stopped⟩
  cases event with
  | reserve call =>
      simp only [Station.step]
      split
      · exact kept
      · exact kept
  | store call =>
      simp only [Station.step]
      split
      · exact kept
      · rename_i stored
        rcases Captures.store_ok stored with ⟨-, rfl⟩ | ⟨_, _, _, _, _, _, _, _, accepted, -⟩
        · exact kept
        · exact ⟨job, find?_enqueue accepted found, rfl, rfl, stopped⟩
  | close call =>
      simp only [Station.step]
      split
      · exact kept
      · rename_i closed
        rcases Captures.closeCapture_ok closed with ⟨-, rfl⟩ | ⟨_, _, _, _, _, _, rfl⟩
        · exact kept
        · dsimp only
          split
          · exact kept
          · exact stopped_requestCancelAll call.captureJobs call.clock found stopped

end Jobs

section Receipts

variable {digests : Digests} {speech : Speech δ σ} {call : RetryCall}

theorem record_retries {next written : Speech δ σ} {outcome : SpeechRetryOutcome}
    (recorded : next.record call outcome = some written) :
    next.retries.insert? ⟨call.principal, call.key, call.investigationId, outcome⟩ =
      some written.retries := by
  obtain ⟨retries, inserted, rfl⟩ := Option.map_eq_some_iff.mp recorded
  exact inserted

theorem retrySpeech_retries (digests : Digests) (speech : Speech δ σ) (call : RetryCall) :
    (retrySpeech digests speech call).2.retries = speech.retries ∨
      ∃ outcome, speech.retries.insert?
        ⟨call.principal, call.key, call.investigationId, outcome⟩ =
          some (retrySpeech digests speech call).2.retries := by
  have kept : speech.retries = speech.retries ∨ ∃ outcome, speech.retries.insert?
      ⟨call.principal, call.key, call.investigationId, outcome⟩ = some speech.retries := .inl rfl
  unfold retrySpeech
  dsimp only
  split
  · exact kept
  · exact kept
  · split
    · exact kept
    · rename_i written recorded
      exact .inr ⟨_, record_retries recorded⟩
  · split
    · exact kept
    · split
      · exact kept
      · rename_i written recorded
        exact .inr ⟨_, record_retries recorded⟩
    · split
      · exact kept
      · rename_i written recorded
        have inserted := record_retries recorded
        exact .inr ⟨_, inserted⟩

variable [EmptyCollection δ] [EmptyCollection σ]

theorem step_retries (digests : Digests) (speech : Speech δ σ) (event : Event δ σ) :
    (speech.step digests event).retries = speech.retries ∨
      ∃ call outcome, event = .retry call ∧ speech.retries.insert?
        ⟨call.principal, call.key, call.investigationId, outcome⟩ =
          some (speech.step digests event).retries := by
  cases event with
  | queue clock call => exact .inl rfl
  | begin settings job model seconds id timestamp clock =>
      left
      simp only [Speech.step]
      split <;> rfl
  | complete job requestId outcome result retryAfter clock =>
      left
      simp only [Speech.step]
      split <;> rfl
  | cancel current jobId principal clock =>
      left
      simp only [Speech.step]
      split <;> rfl
  | retry call =>
      rcases retrySpeech_retries digests speech call with same | ⟨outcome, inserted⟩
      · exact .inl same
      · exact .inr ⟨call, outcome, rfl, inserted⟩

end Receipts

section World

variable {stages : Stages δ} {settings : CaptureSettings} {world : Captured δ σ}
  {request : RetryRequest} {captureId : Uuid} {principal : PrincipalId}
  {session : CaptureSession}

section Step

variable [EmptyCollection δ] [EmptyCollection σ]

def Captured.station (world : Captured δ σ) : Station (SpeechPayload δ) σ (StageResult δ) :=
  ⟨world.intake, world.speech.store.queue⟩

def Captured.step (stages : Stages δ) (settings : CaptureSettings) (world : Captured δ σ) :
    CaptureEvent δ σ → Captured δ σ
  | .intake event =>
      let later := world.station.step settings stages.validation event
      { intake := later.intake
        speech := { world.speech with store := { world.speech.store with queue := later.queue } }
        decided := fun session member refused =>
          (sessions_step settings stages.validation world.station event session member).elim
            (fun before => world.decided session before refused) id }
  | .retry request => (world.retry stages request).2
  | .speech event =>
      if world.foreign stages event then
        { world with speech := world.speech.step stages.toDigests event }
      else world

end Step

structure ChunkJob (stages : Stages δ) (captureId : Uuid) (principal : PrincipalId) (seq : Nat)
    (job : SpeechJob δ σ) : Prop where
  version : job.key.version = 1
  stage : ["media_validation", "asr", "device_text", "claim_extraction"].contains job.key.stage
  hash : job.key.inputHash = stages.chunk (stages.number captureId) seq
  ownerId : job.ownerId = some principal

theorem ChunkJob.stays {seq : Nat} {job later : SpeechJob δ σ}
    (chunkJob : ChunkJob stages captureId principal seq job) (stays : StaysStopped job later) :
    ChunkJob stages captureId principal seq later where
  version := stays.key ▸ chunkJob.version
  stage := stays.key ▸ chunkJob.stage
  hash := stays.key ▸ chunkJob.hash
  ownerId := stays.ownerId.trans chunkJob.ownerId

/-- The owner closed the capture without research, or gave up a job of it. -/
inductive Abandoned (stages : Stages δ) (world : Captured δ σ) (captureId : Uuid)
    (principal : PrincipalId) : Prop
  | closed {row : CaptureSession} : world.intake.sessions.find? captureId = some row →
      row.continueResearch = some false → Abandoned stages world captureId principal
  | stopped {chunk jobId job} : chunk ∈ world.intake.rowsFor captureId →
      isReceived chunk = true → world.speech.store.queue.jobs.find? jobId = some job →
      ChunkJob stages captureId principal chunk.seq job → Stopped job →
      Abandoned stages world captureId principal

theorem loadOwned_iff {intake : Intake} :
    intake.loadOwned captureId principal = .ok session ↔
      intake.sessions.find? captureId = some session ∧ session.ownerId = principal := by
  refine ⟨Captures.loadOwned_ok, ?_⟩
  rintro ⟨found, mine⟩
  simp [Intake.loadOwned, found, Option.filter, mine]

theorem callOf_owned
    (loaded : world.intake.loadOwned request.captureId request.principal = .ok session) :
    (world.callOf stages request).session = some session.continueResearch ∧
      (world.callOf stages request).investigation = some
        ⟨.capture, request.stillCancelled && session.continueResearch == some false⟩ := by
  simp [Captured.callOf, loaded, Except.toOption]

theorem mem_callOf_chunks {chunk : RetryChunk} :
    chunk ∈ (world.callOf stages request).chunks ↔
      ∃ row ∈ world.intake.rowsFor request.captureId, isReceived row = true ∧
        chunk = ⟨row.seq, request.intact row.seq⟩ := by
  simp only [Captured.callOf, List.mem_map, (request.permutes _).mem_iff, List.mem_filter]
  constructor
  · rintro ⟨row, ⟨member, received⟩, rfl⟩
    exact ⟨row, member, received, rfl⟩
  · rintro ⟨row, member, received, rfl⟩
    exact ⟨row, ⟨member, received⟩, rfl⟩

theorem callOf_distinct : ((world.callOf stages request).chunks.map (·.seq)).Nodup := by
  have rows : ((world.intake.rowsFor request.captureId).map (·.seq)).Nodup := by
    refine (List.pairwise_map.mpr ?_)
    have unique := List.pairwise_map.mp world.intake.chunks.unique
    refine (unique.filter _).imp_of_mem fun {first second} here there different same => ?_
    have mine := (List.mem_filter.mp here).2
    have mine' := (List.mem_filter.mp there).2
    rw [beq_iff_eq] at mine mine'
    exact different (Prod.ext (mine.trans mine'.symm) same)
  have received : (((world.intake.rowsFor request.captureId).filter isReceived).map
      (·.seq)).Nodup := rows.sublist (List.filter_sublist.map _)
  have ordered : (((request.order
      ((world.intake.rowsFor request.captureId).filter isReceived))).map (·.seq)).Nodup :=
    ((request.permutes _).map _).nodup_iff.mpr received
  simpa [Captured.callOf, List.map_map, Function.comp_def] using ordered

theorem mem_chunkRows {job : SpeechJob δ σ} :
    job ∈ chunkRows stages.toDigests world.speech (world.callOf stages request) ↔
      job ∈ world.speech.store.queue.jobs.rows ∧
        ∃ row ∈ world.intake.rowsFor request.captureId, isReceived row = true ∧
          ChunkJob stages request.captureId request.principal row.seq job := by
  rw [chunkRows, List.mem_filter]
  refine and_congr_right fun _ => ?_
  simp only [Bool.and_eq_true, beq_iff_eq, List.any_eq_true]
  constructor
  · rintro ⟨⟨⟨version, stage⟩, chunk, listed, hash⟩, mine⟩
    obtain ⟨row, member, received, rfl⟩ := mem_callOf_chunks.mp listed
    exact ⟨row, member, received, version, stage, hash, mine⟩
  · rintro ⟨row, member, received, chunkJob⟩
    exact ⟨⟨⟨chunkJob.version, chunkJob.stage⟩, _,
      mem_callOf_chunks.mpr ⟨row, member, received, rfl⟩, chunkJob.hash⟩, chunkJob.ownerId⟩

theorem givenUp_iff (request : RetryRequest)
    (loaded : world.intake.loadOwned request.captureId request.principal = .ok session) :
    GivenUp stages.toDigests world.speech (world.callOf stages request)
        ⟨.capture, request.stillCancelled && session.continueResearch == some false⟩ ↔
      Abandoned stages world request.captureId request.principal := by
  have found := (loadOwned_iff.mp loaded).1
  unfold GivenUp
  rw [(callOf_owned loaded).1, stopped_iff]
  constructor
  · rintro (none | refused | cancelled | ⟨job, member, stopped⟩)
    · cases none
    · exact .closed found (Option.some.inj refused)
    · simp only [Bool.and_eq_true, beq_iff_eq] at cancelled
      exact .closed found cancelled.2
    · obtain ⟨stored, row, listed, received, chunkJob⟩ := mem_chunkRows.mp member
      exact .stopped listed received (Table.find?_of_mem stored) chunkJob stopped
  · rintro (⟨again, refused⟩ | ⟨listed, received, stored, chunkJob, stopped⟩)
    · rw [found, Option.some.injEq] at again
      subst again
      exact .inr (.inl (congrArg some refused))
    · refine .inr (.inr (.inr ⟨_, mem_chunkRows.mpr ⟨Table.mem_of_find? stored, ?_⟩, stopped⟩))
      exact ⟨_, listed, received, chunkJob⟩

theorem retry_cases (stages : Stages δ)
    (loaded : world.intake.loadOwned request.captureId request.principal = .ok session) :
    CaptureStep stages.toDigests world.speech (world.callOf stages request)
      ⟨.capture, request.stillCancelled && session.continueResearch == some false⟩
      (world.retry stages request).1 (world.retry stages request).2.speech :=
  retrySpeech_capture (fun _ _ same => (stages.chunk_injective same).2) callOf_distinct
    (callOf_owned loaded).2 rfl

theorem retry_kept
    (same : (world.retry stages request).2.speech = world.speech) :
    (world.retry stages request).2 = world := by
  rw [show (world.retry stages request).2 =
    { world with speech := (world.retry stages request).2.speech } from rfl, same]

theorem retry_recorded {receipt : SpeechRetry}
    (loaded : world.intake.loadOwned request.captureId request.principal = .ok session)
    (known : world.speech.retries.find? (request.principal, request.key) = some receipt) :
    world.retry stages request =
      (if receipt.investigationId = stages.number request.captureId then some receipt.response
        else none, world) := by
  have taken : world.speech.retries.find? ((world.callOf stages request).principal,
      (world.callOf stages request).key) = some receipt := known
  have step := retry_cases stages loaded
  have both : (world.retry stages request).1 =
        (if receipt.investigationId = stages.number request.captureId then some receipt.response
          else none) ∧
      (world.retry stages request).2.speech = world.speech := by
    generalize (world.retry stages request).1 = answer,
      (world.retry stages request).2.speech = after at step ⊢
    cases step with
    | replayed found same =>
        obtain rfl := Option.some.inj (taken.symm.trans found)
        exact ⟨(if_pos same).symm, rfl⟩
    | reused found other =>
        obtain rfl := Option.some.inj (taken.symm.trans found)
        exact ⟨(if_neg other).symm, rfl⟩
    | givenUp fresh _ | answered fresh _ _ _ | exhausted fresh _ _ _ | collided fresh _ _
    | accepted fresh _ _ _ _ => exact absurd (taken.symm.trans fresh) (Option.some_ne_none _)
  exact Prod.ext both.1 (retry_kept both.2)

theorem retry_abandoned
    (loaded : world.intake.loadOwned request.captureId request.principal = .ok session)
    (abandoned : Abandoned stages world request.captureId request.principal)
    (fresh : world.speech.retries.find? (request.principal, request.key) = none) :
    world.retry stages request = (some .notEligible, world) := by
  have up := (givenUp_iff request loaded).mpr abandoned
  have unknown : world.speech.retries.find? ((world.callOf stages request).principal,
      (world.callOf stages request).key) = none := fresh
  have step := retry_cases stages loaded
  have both : (world.retry stages request).1 = some .notEligible ∧
      (world.retry stages request).2.speech = world.speech := by
    generalize (world.retry stages request).1 = answer,
      (world.retry stages request).2.speech = after at step ⊢
    cases step with
    | givenUp _ _ => exact ⟨rfl, rfl⟩
    | replayed found _ | reused found _ =>
        exact absurd (found.symm.trans unknown) (Option.some_ne_none _)
    | answered _ going _ _ | exhausted _ going _ _ | collided _ going _
    | accepted _ going _ _ _ => exact absurd up going
  exact Prod.ext both.1 (retry_kept both.2)

section Run

variable [EmptyCollection δ] [EmptyCollection σ]

variable (stages settings)

theorem owned_step (event : CaptureEvent δ σ)
    (loaded : world.intake.loadOwned captureId principal = .ok session) :
    ∃ next, (world.step stages settings event).intake.loadOwned captureId principal = .ok next ∧
      (session.closed = true → next = session) := by
  cases event with
  | intake event =>
      obtain ⟨found, mine⟩ := loadOwned_iff.mp loaded
      obtain ⟨next, later, sameOwner, kept⟩ :=
        session_step settings stages.validation world.station event found
      exact ⟨next, loadOwned_iff.mpr ⟨later, sameOwner.trans mine⟩, kept⟩
  | retry request => exact ⟨session, loaded, fun _ => rfl⟩
  | speech event =>
      refine ⟨session, ?_, fun _ => rfl⟩
      simp only [Captured.step]
      split <;> exact loaded

theorem Abandoned.step (event : CaptureEvent δ σ)
    (loaded : world.intake.loadOwned captureId principal = .ok session)
    (abandoned : Abandoned stages world captureId principal) :
    Abandoned stages (world.step stages settings event) captureId principal := by
  have found := (loadOwned_iff.mp loaded).1
  cases abandoned with
  | closed again refused =>
      rw [found, Option.some.injEq] at again
      subst again
      obtain ⟨next, later, kept⟩ := owned_step stages settings event loaded
      have same := kept (world.decided session (Table.mem_of_find? found) refused)
      exact .closed (loadOwned_iff.mp later).1 (same ▸ refused)
  | stopped member received stored chunkJob stopped =>
      cases event with
      | intake event =>
          obtain ⟨chunk, listed, sameSeq, still⟩ :=
            received_step settings stages.validation world.station event found member received
          obtain ⟨later, laterFound, stays⟩ :=
            stopped_intake settings stages.validation world.station event stored stopped
          exact .stopped listed still laterFound (sameSeq ▸ chunkJob.stays stays) stays.stopped
      | retry request =>
          obtain ⟨later, laterFound, changed⟩ := step_later stages.toDigests
            (.retry (world.callOf stages request)) stored
          have stays := changed.staysStopped stopped
          exact .stopped member received laterFound (chunkJob.stays stays) stays.stopped
      | speech event =>
          simp only [Captured.step]
          split
          · obtain ⟨later, laterFound, changed⟩ := step_later stages.toDigests event stored
            have stays := changed.staysStopped stopped
            exact .stopped member received laterFound (chunkJob.stays stays) stays.stopped
          · exact .stopped member received stored chunkJob stopped

theorem receipts_step (world : Captured δ σ) (event : CaptureEvent δ σ) :
    (world.step stages settings event).speech.retries = world.speech.retries ∨
      ∃ receipt, world.speech.retries.insert? receipt =
        some (world.step stages settings event).speech.retries ∧
        ((∃ request, event = .retry request ∧ receipt.ownerId = request.principal ∧
            receipt.requestKey = request.key ∧
            receipt.investigationId = stages.number request.captureId) ∨
          ∀ row ∈ world.intake.sessions.rows, stages.number row.id ≠ receipt.investigationId) := by
  cases event with
  | intake event => exact .inl rfl
  | retry request =>
      rcases retrySpeech_retries stages.toDigests world.speech (world.callOf stages request) with
        same | ⟨outcome, inserted⟩
      · exact .inl same
      · exact .inr ⟨_, inserted, .inl ⟨request, rfl, rfl, rfl, rfl⟩⟩
  | speech event =>
      simp only [Captured.step]
      split
      · rename_i foreign
        rcases step_retries stages.toDigests world.speech event with
          same | ⟨call, outcome, rfl, inserted⟩
        · exact .inl same
        · refine .inr ⟨_, inserted, .inr ?_⟩
          simpa [Captured.foreign] using foreign
      · exact .inl rfl

theorem receipt_step {key : PrincipalId × String} {receipt : SpeechRetry}
    (event : CaptureEvent δ σ) (known : world.speech.retries.find? key = some receipt) :
    (world.step stages settings event).speech.retries.find? key = some receipt := by
  rcases receipts_step stages settings world event with
    same | ⟨new, inserted, -⟩
  · rw [same, known]
  · rw [Table.find?_insert? inserted, if_neg, known]
    intro same
    have fresh := Table.insert?_fresh inserted
    rw [same, known] at fresh
    cases fresh

def Unrecorded (stages : Stages δ) (world : Captured δ σ) (captureId : Uuid)
    (key : PrincipalId × String) : Prop :=
  ∀ receipt, world.speech.retries.find? key = some receipt →
    receipt.investigationId ≠ stages.number captureId

theorem Unrecorded.step {key : String} (event : CaptureEvent δ σ)
    (loaded : world.intake.loadOwned captureId principal = .ok session)
    (abandoned : Abandoned stages world captureId principal)
    (unrecorded : Unrecorded stages world captureId (principal, key)) :
    Unrecorded stages (world.step stages settings event) captureId (principal, key) := by
  intro found known
  rcases receipts_step stages settings world event with same | ⟨new, inserted, origin⟩
  · rw [same] at known
    exact unrecorded found known
  rw [Table.find?_insert? inserted] at known
  split at known
  · rename_i sameKey
    obtain rfl := Option.some.inj known
    rcases origin with ⟨request, rfl, owner, named, about⟩ | strange
    · intro mine
      have capture : request.captureId = captureId :=
        stages.number_injective (about.symm.trans mine)
      subst capture
      obtain ⟨mineToo, keyed⟩ : new.ownerId = principal ∧ new.requestKey = key :=
        Prod.mk.inj sameKey
      obtain rfl : request.principal = principal := owner.symm.trans mineToo
      have fresh : world.speech.retries.find? (request.principal, request.key) = none := by
        rw [← owner, ← named]
        exact Table.insert?_fresh inserted
      have kept : world.step stages settings (.retry request) = world :=
        congrArg Prod.snd (retry_abandoned loaded abandoned fresh)
      rw [kept] at inserted
      have longer := congrArg List.length (Table.rows_insert? inserted)
      rw [List.length_append, List.length_singleton] at longer
      omega
    · have member := Table.mem_of_find? (loadOwned_iff.mp loaded).1
      have mine := strange session member
      rw [show session.id = captureId from Table.find?_key (loadOwned_iff.mp loaded).1] at mine
      exact mine.symm
  · exact unrecorded found known

/-- A recorded answer is given for ever. -/
theorem recorded_run (events : List (CaptureEvent δ σ)) {again : RetryRequest}
    {receipt : SpeechRetry}
    (loaded : world.intake.loadOwned again.captureId again.principal = .ok session)
    (known : world.speech.retries.find? (again.principal, again.key) = some receipt)
    (about : receipt.investigationId = stages.number again.captureId) :
    (exec (Captured.step stages settings) world events).retry stages again =
      (some receipt.response, exec (Captured.step stages settings) world events) := by
  induction events generalizing world session with
  | nil =>
      rw [exec_nil, retry_recorded loaded known, if_pos about]
  | cons event rest ih =>
      obtain ⟨next, kept, -⟩ := owned_step stages settings event loaded
      exact ih kept (receipt_step stages settings event known)

def AbandonedAnswer (stages : Stages δ) (world : Captured δ σ) (again : RetryRequest) : Prop :=
  world.retry stages again = (some .notEligible, world) ∨
    world.retry stages again = (none, world) ∧ ∃ receipt,
      world.speech.retries.find? (again.principal, again.key) = some receipt ∧
      receipt.investigationId ≠ stages.number again.captureId

/-- Whoever gave a capture up is told so for ever, unless the key is used for other work. -/
theorem abandoned_run (events : List (CaptureEvent δ σ)) {again : RetryRequest}
    (loaded : world.intake.loadOwned again.captureId again.principal = .ok session)
    (abandoned : Abandoned stages world again.captureId again.principal)
    (unrecorded : Unrecorded stages world again.captureId (again.principal, again.key)) :
    AbandonedAnswer stages (exec (Captured.step stages settings) world events) again := by
  induction events generalizing world session with
  | nil =>
      rw [exec_nil]
      cases known : world.speech.retries.find? (again.principal, again.key) with
      | none => exact .inl (retry_abandoned loaded abandoned known)
      | some receipt =>
          have other := unrecorded receipt known
          refine .inr ⟨?_, receipt, known, other⟩
          rw [retry_recorded loaded known, if_neg other]
  | cons event rest ih =>
      obtain ⟨next, kept, -⟩ := owned_step stages settings event loaded
      exact ih kept (abandoned.step stages settings event loaded)
        (unrecorded.step stages settings event loaded abandoned)

omit [EmptyCollection δ] [EmptyCollection σ] in
theorem retry_answered {outcome : SpeechRetryOutcome}
    (loaded : world.intake.loadOwned request.captureId request.principal = .ok session)
    (answered : (world.retry stages request).1 = some outcome) :
    (∃ receipt, (world.retry stages request).2.speech.retries.find?
        (request.principal, request.key) = some receipt ∧
      receipt.investigationId = stages.number request.captureId ∧ receipt.response = outcome) ∨
    (world.retry stages request).2 = world ∧ outcome = .notEligible ∧
      world.speech.retries.find? (request.principal, request.key) = none ∧
      Abandoned stages world request.captureId request.principal := by
  have kept : (world.retry stages request).2.speech = world.speech →
      (world.retry stages request).2 = world := retry_kept
  have step := retry_cases stages loaded
  generalize (world.retry stages request).1 = answer,
    (world.retry stages request).2.speech = after at step answered kept ⊢
  cases step with
  | replayed found same =>
      exact .inl ⟨_, found, same, Option.some.inj answered⟩
  | reused _ _ | collided _ _ _ => cases answered
  | givenUp fresh up =>
      exact .inr ⟨kept rfl, (Option.some.inj answered).symm, fresh,
        (givenUp_iff request loaded).mp up⟩
  | answered _ _ _ inserted | exhausted _ _ _ inserted =>
      exact .inl ⟨_, (Table.find?_insert? inserted _).trans (if_pos rfl), rfl,
        Option.some.inj answered⟩
  | accepted _ _ _ inserted same =>
      refine .inl ⟨⟨request.principal, request.key, stages.number request.captureId, .accepted⟩,
        ?_, rfl, Option.some.inj answered⟩
      rw [same]
      exact (Table.find?_insert? inserted _).trans (if_pos rfl)

/-- A retry for a capture with a fresh key takes all quota-blocked chunks within every window, or
leaves the ledger and the jobs as they are; with a known key it changes nothing. A repeated request
is answered as the first one was, whatever happened in between, but where that answer was not
recorded and the key was used for other work since. -/
theorem capture_retry_all_or_nothing (stages : Stages δ) (settings : CaptureSettings)
    (world : Captured δ σ) (request : RetryRequest)
    (loaded : world.intake.loadOwned request.captureId request.principal = .ok session) :
    let call := world.callOf stages request
    let answer := (world.retry stages request).1
    let next := (world.retry stages request).2
    next.intake = world.intake ∧
    (∀ receipt, world.speech.retries.find? (request.principal, request.key) = some receipt →
      next = world ∧ answer = if receipt.investigationId = stages.number request.captureId then
        some receipt.response else none) ∧
    (world.speech.retries.find? (request.principal, request.key) = none →
      (answer = some .accepted ∧
        ∃ rows, Accepted stages.toDigests world.speech call next.speech rows) ∨
      (next.speech.store = world.speech.store ∧
        (answer = some .quotaExhausted ∧ (∀ rows, ¬ Placed call world.speech.store.requests.rows
            (blockedChunks stages.toDigests world.speech call) rows) ∨
          answer = some .inProgress ∨ answer = some .alreadyComplete ∨
          answer = some .notEligible)) ∨
      (next = world ∧ answer = none ∧ Collides call world.speech.store.requests
        (blockedChunks stages.toDigests world.speech call))) ∧
    ∀ outcome, answer = some outcome → ∀ (events : List (CaptureEvent δ σ)) (again : RetryRequest),
      again.principal = request.principal → again.key = request.key →
      again.captureId = request.captureId →
      let later := exec (Captured.step stages settings) next events
      later.retry stages again = (some outcome, later) ∨
        later.retry stages again = (none, later) ∧ outcome = .notEligible ∧
          world.speech.retries.find? (request.principal, request.key) = none ∧
          Abandoned stages world request.captureId request.principal ∧
          ∃ receipt, later.speech.retries.find? (request.principal, request.key) = some receipt ∧
            receipt.investigationId ≠ stages.number request.captureId := by
  intro call answer next
  refine ⟨rfl, fun receipt known => ?_, fun fresh => ?_, ?_⟩
  · have again : world.retry stages request = _ := retry_recorded loaded known
    exact ⟨congrArg Prod.snd again, congrArg Prod.fst again⟩
  · have unchanged : next.speech = world.speech → next = world := retry_kept
    have step := retry_cases stages loaded
    change CaptureStep _ _ call _ answer next.speech at step
    generalize answer = reply, next.speech = after at step unchanged ⊢
    cases step with
    | replayed found _ | reused found _ =>
        exact absurd (found.symm.trans fresh) (Option.some_ne_none _)
    | givenUp _ _ => exact .inr (.inl ⟨rfl, .inr (.inr (.inr rfl))⟩)
    | answered _ _ one _ =>
        refine .inr (.inl ⟨rfl, .inr ?_⟩)
        rcases one with rfl | rfl | rfl
        · exact .inl rfl
        · exact .inr (.inl rfl)
        · exact .inr (.inr rfl)
    | exhausted _ _ full _ => exact .inr (.inl ⟨rfl, .inl ⟨rfl, full⟩⟩)
    | collided _ _ collides => exact .inr (.inr ⟨unchanged rfl, rfl, collides⟩)
    | accepted _ _ accepted _ _ => exact .inl ⟨rfl, _, accepted⟩
  · intro outcome answered events again sameOwner sameKey sameCapture later
    have mine : next.intake.loadOwned again.captureId again.principal = .ok session := by
      rw [sameCapture, sameOwner]
      exact loaded
    rcases retry_answered stages loaded answered with
      ⟨receipt, known, about, given⟩ | ⟨kept, told, fresh, abandoned⟩
    · left
      rw [← sameOwner, ← sameKey] at known
      rw [← sameCapture] at about
      exact given ▸ recorded_run stages settings events mine known about
    · have here : Abandoned stages next again.captureId again.principal := by
        rw [sameCapture, sameOwner, show next = world from kept]
        exact abandoned
      have unrecorded : Unrecorded stages next again.captureId (again.principal, again.key) := by
        rw [sameOwner, sameKey, show next = world from kept]
        exact fun receipt known => absurd (known.symm.trans fresh) (Option.some_ne_none _)
      rcases abandoned_run stages settings events mine here unrecorded with
        same | ⟨refused, receipt, known, other⟩
      · exact .inl (told ▸ same)
      · rw [sameOwner, sameKey] at known
        rw [sameCapture] at other
        exact .inr ⟨refused, told, fresh, abandoned, receipt, known, other⟩

end Run

end World

section Example

def exampleNumber (captureId : Uuid) : Nat :=
  Encodable.encode (captureId.toList.map Char.toNat)

theorem exampleNumber_injective : Function.Injective exampleNumber := by
  intro first second same
  have units := Encodable.encode_injective same
  have codes : Function.Injective Char.toNat := fun _ _ code => Char.ext (UInt32.toNat_inj.mp code)
  exact String.toList_injective (List.map_injective_iff.mpr codes units)

def exampleStages : Stages (List Unit) where
  investigation _ := "upload"
  chunk id seq := Captures.exampleDigest (Nat.repr id) seq
  number := exampleNumber
  payload _ _ := ∅
  number_injective := exampleNumber_injective
  chunk_injective same :=
    have apart := Captures.exampleDigest_injective same
    ⟨Nat.repr_injective apart.1, apart.2⟩

def exampleCapture (captureId : Uuid) (closed : Bool) : CaptureSession :=
  { Captures.exampleSession with
    id := captureId
    closed
    continueResearch := if closed then some false else none }

def exampleChunk (seq : Nat) : CaptureChunk where
  sessionId := "b"
  seq
  endMs := 4000
  sizeBytes := 500
  sha256 := "digest"
  contentType := "application/zip"
  modality := .speech
  storageKey := "stored"
  receivedAt := some 0
  jobId := some (seq + 1)

def exampleStage (id : JobId) (seq : Nat) (stage : String) (state : JobState)
    (failure : Option String) : SpeechJob (List Unit) (List Unit) :=
  { (newRow ⟨id, ⟨1, stage, exampleStages.chunk (exampleNumber "b") seq⟩, ∅, some 1⟩ ⟨0, 0⟩ :
      SpeechJob (List Unit) (List Unit)) with state, failure }

/-- Capture `a` was closed without research. Both chunks of `b` are blocked for quota. -/
def exampleWorld : Captured (List Unit) (List Unit) where
  intake :=
    { sessions := ⟨[exampleCapture "a" true, exampleCapture "b" false], by decide⟩
      chunks := ⟨[exampleChunk 0, exampleChunk 1], by decide⟩
      usage := Table.empty }
  speech :=
    { store :=
        { queue :=
            { jobs := ⟨[exampleStage 1 0 "media_validation" .published none,
                exampleStage 2 1 "media_validation" .published none,
                exampleStage 3 0 "asr" .failed (some "ASRQuotaExhausted"),
                exampleStage 4 1 "asr" .failed (some "ASRQuotaExhausted")], by decide⟩
              results := ⟨[⟨1, ⟨1, "media_validation", ""⟩, 1, 0, ⟨none, some (some 4000), []⟩, 0⟩,
                ⟨2, ⟨1, "media_validation", ""⟩, 1, 0, ⟨none, some (some 4000), []⟩, 0⟩],
                by decide⟩ }
          requests := Table.empty }
      retries := Table.empty }
  decided := by decide

def exampleRequest (captureId : Uuid) : RetryRequest where
  principal := 1
  key := "key"
  captureId := captureId
  settings := exampleSettings
  stillCancelled := false
  intact _ := true
  draw jobId := ⟨2 * jobId, 100, 2 * jobId + 1, 100⟩
  order := List.reverse
  permutes := List.reverse_perm

def exampleIntake : CaptureSettings := ⟨⟨true, 1, 1, 1000⟩, 1000⟩

/-- Both blocked chunks are taken, and the request is answered the same when it is repeated after
the other one. -/
theorem capture_retry_example :
    (blockedChunks exampleStages.toDigests exampleWorld.speech
      (exampleWorld.callOf exampleStages (exampleRequest "b"))).map (·.1.id) = [4, 3] ∧
    (∃ rows, Accepted exampleStages.toDigests exampleWorld.speech
      (exampleWorld.callOf exampleStages (exampleRequest "b"))
      (exampleWorld.retry exampleStages (exampleRequest "b")).2.speech rows) ∧
    ((exec (Captured.step exampleStages exampleIntake)
      (exampleWorld.retry exampleStages (exampleRequest "b")).2
      [.retry (exampleRequest "a")]).retry exampleStages (exampleRequest "b")).1 =
        some .accepted := by
  have accepted : (exampleWorld.retry exampleStages (exampleRequest "b")).1 = some .accepted := by
    decide +kernel
  obtain ⟨-, -, fresh, again⟩ := capture_retry_all_or_nothing exampleStages exampleIntake
    exampleWorld (exampleRequest "b")
    (show exampleWorld.intake.loadOwned "b" 1 = .ok (exampleCapture "b" false) from rfl)
  refine ⟨by decide +kernel, ?_, ?_⟩
  · rcases fresh rfl with ⟨-, taken⟩ | ⟨-, ⟨other, -⟩ | other | other | other⟩ | ⟨-, other, -⟩
    · exact taken
    all_goals exact absurd (accepted.symm.trans other) (by decide)
  · rcases again .accepted accepted [.retry (exampleRequest "a")] (exampleRequest "b") rfl rfl
      rfl with same | ⟨-, other, -⟩
    · exact congrArg Prod.fst same
    · cases other

/-- An answer that was not recorded is not given again once the key names other work. -/
theorem unrecorded_answer_lost :
    (exampleWorld.retry exampleStages (exampleRequest "a")).1 = some .notEligible ∧
    ((exec (Captured.step exampleStages exampleIntake)
        (exampleWorld.retry exampleStages (exampleRequest "a")).2
        [.retry (exampleRequest "b")]).retry exampleStages (exampleRequest "a")).1 = none := by
  decide +kernel

end Example

end Ovrly.Asr
