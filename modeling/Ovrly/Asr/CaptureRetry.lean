import Ovrly.Asr.Placement
import Ovrly.Captures.SessionLaw

/-!
Owner retries of the speech of a capture, one after another under the lock of its session.

A retry takes all quota-blocked chunks or none of them. Its answer is recorded with the request
key, but for a capture whose research was given up: that one answers `not_eligible` without a
record, for as long as it stays.
-/

namespace Ovrly.Asr

open Relational Runs Ovrly.Jobs

variable {δ σ : Type}

section Queue

variable {α : Type} {act : Database (SpeechPayload δ) σ (StageResult δ) → α →
    Database (SpeechPayload δ) σ (StageResult δ)}
  {key : α → JobId} {change : α → SpeechJob δ σ → SpeechJob δ σ}

theorem find?_foldl_absent
    (acts : ∀ queue item jobId, (act queue item).jobs.find? jobId =
      if key item = jobId then (queue.jobs.find? jobId).map (change item)
      else queue.jobs.find? jobId)
    {items : List α} {jobId : JobId} (absent : ∀ item ∈ items, key item ≠ jobId)
    (queue : Database (SpeechPayload δ) σ (StageResult δ)) :
    (items.foldl act queue).jobs.find? jobId = queue.jobs.find? jobId := by
  induction items generalizing queue with
  | nil => rfl
  | cons item rest ih =>
      rw [List.foldl_cons, ih fun other member => absent other (List.mem_cons_of_mem _ member),
        acts, if_neg (absent item List.mem_cons_self)]

theorem find?_foldl_present
    (acts : ∀ queue item jobId, (act queue item).jobs.find? jobId =
      if key item = jobId then (queue.jobs.find? jobId).map (change item)
      else queue.jobs.find? jobId)
    {items : List α} (apart : (items.map key).Nodup) {item : α} (member : item ∈ items)
    (queue : Database (SpeechPayload δ) σ (StageResult δ)) :
    (items.foldl act queue).jobs.find? (key item) =
      (queue.jobs.find? (key item)).map (change item) := by
  induction items generalizing queue with
  | nil => cases member
  | cons first rest ih =>
      rw [List.map_cons, List.nodup_cons] at apart
      rw [List.foldl_cons]
      rcases List.mem_cons.mp member with rfl | later
      · rw [find?_foldl_absent acts, acts, if_pos rfl]
        exact fun other listed same => apart.1 (List.mem_map.mpr ⟨other, listed, same⟩)
      · have different : key first ≠ key item := fun same =>
          apart.1 (List.mem_map.mpr ⟨item, later, same.symm⟩)
        rw [ih apart.2 later, acts, if_neg different]

theorem find?_update_key (queue : Database (SpeechPayload δ) σ (StageResult δ)) (target : JobId)
    (change : SpeechJob δ σ → SpeechJob δ σ) (keeps : ∀ job, (change job).id = job.id)
    (jobId : JobId) :
    (queue.jobs.update (·.id == target) change keeps).find? jobId =
      if target = jobId then (queue.jobs.find? jobId).map change else queue.jobs.find? jobId := by
  rw [Table.find?_update]
  cases found : queue.jobs.find? jobId with
  | none => simp
  | some job =>
      obtain rfl : job.id = jobId := Table.find?_key found
      by_cases same : target = job.id
      · simp [same]
      · simp [same, Ne.symm same]

theorem find?_noteRequest (queue : Database (SpeechPayload δ) σ (StageResult δ))
    (row : AsrRequest (StageResult δ)) (jobId : JobId) :
    (noteRequest queue row).jobs.find? jobId =
      if row.jobId = jobId then (queue.jobs.find? jobId).map (recordedRequest row.id)
      else queue.jobs.find? jobId :=
  find?_update_key queue row.jobId _ (recordedRequest_id row.id) jobId

theorem find?_requeue (queue : Database (SpeechPayload δ) σ (StageResult δ))
    (row : SpeechJob δ σ) (jobId : JobId) :
    (requeue queue row).jobs.find? jobId =
      if row.id = jobId then (queue.jobs.find? jobId).map (requeued (retryNumber row))
      else queue.jobs.find? jobId :=
  find?_update_key queue row.id _ (requeued_id (retryNumber row)) jobId

variable (act) in
theorem results_foldl (kept : ∀ queue item, (act queue item).results = queue.results)
    (items : List α) (queue : Database (SpeechPayload δ) σ (StageResult δ)) :
    (items.foldl act queue).results = queue.results := by
  induction items generalizing queue with
  | nil => rfl
  | cons item rest ih => rw [List.foldl_cons, ih, kept]

end Queue

section Call

variable (digests : Digests) (speech : Speech δ σ) (call : RetryCall)

def blockedChunks : List (SpeechJob δ σ × Rat) :=
  (call.chunks.map (chunkSpeech digests speech call (chunkRows digests speech call))).filterMap
    ChunkSpeech.target

/-- An accepted retry: the rows are new in the ledger, one for each quota-blocked chunk and each
with room, and the jobs of these chunks alone are back in the queue. -/
structure Accepted (after : Speech δ σ) (rows : List (AsrRequest (StageResult δ))) : Prop where
  blocked : blockedChunks digests speech call ≠ []
  placed : Placed call speech.store.requests.rows (blockedChunks digests speech call) rows
  ledger : after.store.requests.rows = speech.store.requests.rows ++ rows
  once : ∀ target ∈ blockedChunks digests speech call,
    ∃! row, row ∈ rows ∧ row.jobId = target.1.id
  requeued : ∀ target ∈ blockedChunks digests speech call, ∀ row ∈ rows,
    row.jobId = target.1.id → after.store.queue.jobs.find? target.1.id =
      some (requeued (retryNumber target.1) (recordedRequest row.id target.1))
  others : ∀ jobId, (∀ target ∈ blockedChunks digests speech call, target.1.id ≠ jobId) →
    after.store.queue.jobs.find? jobId = speech.store.queue.jobs.find? jobId
  results : after.store.queue.results = speech.store.queue.results
  windows : ∀ window ∈ windows call.settings.toSettings, ∀ limit, window.limit = some limit →
    ∀ model, Fitted call.settings.toSettings window limit model speech.store →
      Fitted call.settings.toSettings window limit model after.store
  receipt : after.retries.rows =
    speech.retries.rows ++ [⟨call.principal, call.key, call.investigationId, .accepted⟩]

variable {digests speech call}

theorem chunkSpeech_hash {rows : List (SpeechJob δ σ)} {chunk : RetryChunk}
    {target : SpeechJob δ σ × Rat}
    (found : (chunkSpeech digests speech call rows chunk).target = some target) :
    target.1.key.inputHash = digests.chunk call.investigationId chunk.seq := by
  unfold chunkSpeech at found
  dsimp only at found
  split at found
  · cases found
  split at found
  · split at found <;> cases found
  split at found
  · cases found
  rename_i chosen
  have named := List.find?_some chosen
  simp only [Bool.and_eq_true, beq_iff_eq] at named
  split at found
  · cases found
  split at found
  · split at found
    · simp only [ChunkSpeech.target, Option.some.injEq] at found
      exact found ▸ named.2
    · cases found
  · cases found

theorem blockedChunks_stored {target : SpeechJob δ σ × Rat}
    (member : target ∈ blockedChunks digests speech call) :
    target.1 ∈ speech.store.queue.jobs.rows := by
  obtain ⟨standing, listed, found⟩ := List.mem_filterMap.mp member
  obtain ⟨chunk, _, rfl⟩ := List.mem_map.mp listed
  exact (List.mem_filter.mp (chunkSpeech_target found).1).1

/-- The chunks of a session have different stage keys, so no two share a job. -/
theorem blockedChunks_apart (injective : Function.Injective (digests.chunk call.investigationId))
    (distinct : (call.chunks.map (·.seq)).Nodup) :
    ((blockedChunks digests speech call).map (·.1.id)).Nodup := by
  have chunks : (blockedChunks digests speech call).map (·.1.id) =
      call.chunks.filterMap fun chunk =>
        (chunkSpeech digests speech call (chunkRows digests speech call) chunk).target.map
          (·.1.id) := by
    rw [blockedChunks, List.filterMap_map, List.map_filterMap]
    rfl
  rw [chunks, List.Nodup, List.pairwise_filterMap]
  refine (List.pairwise_map.mp distinct).imp fun {first second} different id found other again => ?_
  obtain ⟨target, here, rfl⟩ := Option.map_eq_some_iff.mp found
  obtain ⟨target', there, rfl⟩ := Option.map_eq_some_iff.mp again
  intro same
  have stored := (List.mem_filter.mp (chunkSpeech_target here).1).1
  have stored' := (List.mem_filter.mp (chunkSpeech_target there).1).1
  have row : target.1 = target'.1 := Table.eq_of_key stored stored' same
  have hash := chunkSpeech_hash here
  rw [row, chunkSpeech_hash there] at hash
  exact different (injective hash.symm)

variable {store : SpeechStore δ σ (StageResult δ)} {rows : List (AsrRequest (StageResult δ))}

/-- What the reservations and the requeueing of a retry come to. -/
theorem accepted_of_reserved (injective : Function.Injective (digests.chunk call.investigationId))
    (distinct : (call.chunks.map (·.seq)).Nodup)
    (blocked : blockedChunks digests speech call ≠ [])
    (reserved : Reserved call speech.store store (blockedChunks digests speech call) rows)
    {retries : Table SpeechRetry}
    (receipt : speech.retries.insert?
      ⟨call.principal, call.key, call.investigationId, .accepted⟩ = some retries) :
    Accepted digests speech call
      ⟨{ store with
          queue := requeueTargets store.queue (blockedChunks digests speech call) }, retries⟩
      rows := by
  have apart : ((blockedChunks digests speech call).map (·.1.id)).Nodup :=
    blockedChunks_apart injective distinct
  have rowsApart : (rows.map (·.jobId)).Nodup := by
    rw [reserved.placed.jobIds]
    exact apart
  have targetsApart : (((blockedChunks digests speech call).map Prod.fst).map (·.id)).Nodup := by
    rw [List.map_map]
    exact apart
  refine ⟨blocked, reserved.placed, reserved.ledger, ?_, ?_, ?_, ?_, reserved.fitted,
    Table.rows_insert? receipt⟩
  · intro target member
    have listed : target.1.id ∈ rows.map (·.jobId) := by
      rw [reserved.placed.jobIds]
      exact List.mem_map_of_mem member
    obtain ⟨row, here, same⟩ := List.mem_map.mp listed
    refine ⟨row, ⟨here, same⟩, fun other there => ?_⟩
    exact List.inj_on_of_nodup_map rowsApart there.1 here (there.2.trans same.symm)
  · intro target member row here same
    change (((blockedChunks digests speech call).map Prod.fst).foldl requeue store.queue).jobs.find?
      target.1.id = _
    rw [find?_foldl_present find?_requeue targetsApart (List.mem_map_of_mem member),
      reserved.queue, ← same, find?_foldl_present find?_noteRequest rowsApart here, same,
      show speech.store.queue.jobs.find? target.1.id = some target.1 from
        Table.find?_of_mem (blockedChunks_stored member)]
    rfl
  · intro jobId strange
    change (((blockedChunks digests speech call).map Prod.fst).foldl requeue store.queue).jobs.find?
      jobId = _
    rw [find?_foldl_absent find?_requeue, reserved.queue, find?_foldl_absent find?_noteRequest]
    · intro row here same
      have listed : row.jobId ∈ (blockedChunks digests speech call).map (·.1.id) := by
        rw [← reserved.placed.jobIds]
        exact List.mem_map_of_mem here
      obtain ⟨target, member, found⟩ := List.mem_map.mp listed
      exact strange target member (found.trans same)
    · intro row listed
      obtain ⟨target, member, rfl⟩ := List.mem_map.mp listed
      exact strange target member
  · change (((blockedChunks digests speech call).map Prod.fst).foldl requeue store.queue).results =
      _
    rw [results_foldl requeue fun _ _ => rfl, reserved.queue,
      results_foldl noteRequest fun _ _ => rfl]

/-- The owner gave the research of a capture up, or a job of it. -/
def GivenUp (digests : Digests) (speech : Speech δ σ) (call : RetryCall)
    (investigation : Investigation) : Prop :=
  call.session = none ∨ call.session = some (some false) ∨ investigation.cancelled = true ∨
    stopped (chunkRows digests speech call) = true

/-- All that a retry for a capture can do. -/
inductive CaptureStep (digests : Digests) (speech : Speech δ σ) (call : RetryCall)
    (investigation : Investigation) : Option SpeechRetryOutcome → Speech δ σ → Prop
  | replayed {previous} : speech.retries.find? (call.principal, call.key) = some previous →
      previous.investigationId = call.investigationId →
      CaptureStep digests speech call investigation (some previous.response) speech
  | reused {previous} : speech.retries.find? (call.principal, call.key) = some previous →
      previous.investigationId ≠ call.investigationId →
      CaptureStep digests speech call investigation none speech
  | givenUp : speech.retries.find? (call.principal, call.key) = none →
      GivenUp digests speech call investigation →
      CaptureStep digests speech call investigation (some .notEligible) speech
  | answered {outcome retries} : speech.retries.find? (call.principal, call.key) = none →
      ¬ GivenUp digests speech call investigation →
      outcome = .inProgress ∨ outcome = .alreadyComplete ∨ outcome = .notEligible →
      speech.retries.insert? ⟨call.principal, call.key, call.investigationId, outcome⟩ =
        some retries →
      CaptureStep digests speech call investigation (some outcome) { speech with retries }
  | exhausted {retries} : speech.retries.find? (call.principal, call.key) = none →
      ¬ GivenUp digests speech call investigation →
      (∀ rows, ¬ Placed call speech.store.requests.rows (blockedChunks digests speech call)
        rows) →
      speech.retries.insert?
        ⟨call.principal, call.key, call.investigationId, .quotaExhausted⟩ = some retries →
      CaptureStep digests speech call investigation (some .quotaExhausted) { speech with retries }
  | collided : speech.retries.find? (call.principal, call.key) = none →
      ¬ GivenUp digests speech call investigation →
      Collides call speech.store.requests (blockedChunks digests speech call) →
      CaptureStep digests speech call investigation none speech
  | accepted {after rows retries} : speech.retries.find? (call.principal, call.key) = none →
      ¬ GivenUp digests speech call investigation →
      Accepted digests speech call after rows →
      speech.retries.insert? ⟨call.principal, call.key, call.investigationId, .accepted⟩ =
        some retries → after.retries = retries →
      CaptureStep digests speech call investigation (some .accepted) after

theorem captureOutcome_cases (digests : Digests) (speech : Speech δ σ) (call : RetryCall) :
    (captureOutcome digests speech call (chunkRows digests speech call) =
        .blocked (blockedChunks digests speech call) ∧ blockedChunks digests speech call ≠ []) ∨
      ∃ outcome, captureOutcome digests speech call (chunkRows digests speech call) =
          .recorded outcome ∧
        (outcome = .inProgress ∨ outcome = .alreadyComplete ∨ outcome = .notEligible) := by
  unfold captureOutcome
  dsimp only
  split
  · right
    split
    · exact ⟨_, rfl, .inl rfl⟩
    · split
      · exact ⟨_, rfl, .inr (.inl rfl)⟩
      · exact ⟨_, rfl, .inr (.inr rfl)⟩
  · rename_i some_
    exact .inl ⟨rfl, some_⟩

theorem record_fresh (next : Speech δ σ) (same : next.retries = speech.retries)
    (fresh : speech.retries.find? (call.principal, call.key) = none)
    (outcome : SpeechRetryOutcome) :
    ∃ retries, speech.retries.insert?
        ⟨call.principal, call.key, call.investigationId, outcome⟩ = some retries ∧
      next.record call outcome = some { next with retries } := by
  obtain ⟨retries, inserted⟩ := Table.insert?_isSome
    (show speech.retries.find? (Keyed.key
      (⟨call.principal, call.key, call.investigationId, outcome⟩ : SpeechRetry)) = none from fresh)
  refine ⟨retries, inserted, ?_⟩
  rw [Speech.record, same, inserted]
  rfl

theorem decideCapture_fresh (investigation : Investigation)
    (fresh : speech.retries.find? (call.principal, call.key) = none) :
    (GivenUp digests speech call investigation ∧
        decideCapture digests speech call investigation = .answered .notEligible) ∨
      ¬ GivenUp digests speech call investigation ∧
        decideCapture digests speech call investigation =
          captureOutcome digests speech call (chunkRows digests speech call) := by
  unfold decideCapture unlessReplayed GivenUp
  rw [fresh]
  dsimp only
  split
  · rename_i none
    exact .inl ⟨.inl none, rfl⟩
  · rename_i closed
    exact .inl ⟨.inr (.inl closed), rfl⟩
  · rename_i decided other found
    split
    · rename_i refused
      rw [Bool.or_eq_true] at refused
      exact .inl ⟨.inr (.inr refused), rfl⟩
    · rename_i going
      rw [Bool.or_eq_true] at going
      refine .inr ⟨?_, rfl⟩
      rintro (none | closed | refused)
      · rw [found] at none
        cases none
      · rw [found] at closed
        exact other (Option.some.inj closed)
      · exact going refused

/-- A retry for a capture takes all its quota-blocked chunks, or changes neither the ledger nor a
job. -/
theorem retrySpeech_capture {investigation : Investigation}
    (injective : Function.Injective (digests.chunk call.investigationId))
    (distinct : (call.chunks.map (·.seq)).Nodup)
    (found : call.investigation = some investigation)
    (capture : investigation.sourceKind = .capture) :
    CaptureStep digests speech call investigation (retrySpeech digests speech call).1
      (retrySpeech digests speech call).2 := by
  have decided : decideRetry digests speech call =
      decideCapture digests speech call investigation := by
    simp only [decideRetry, found, capture]
  unfold retrySpeech
  dsimp only
  rw [decided]
  cases known : speech.retries.find? (call.principal, call.key) with
  | some previous =>
      unfold decideCapture unlessReplayed
      rw [known]
      dsimp only
      by_cases same : previous.investigationId = call.investigationId
      · rw [if_pos same]
        exact .replayed known same
      · rw [if_neg same]
        exact .reused known same
  | none =>
      rcases decideCapture_fresh investigation known with ⟨up, answered⟩ | ⟨going, decided⟩
      · rw [answered]
        exact .givenUp known up
      rw [decided]
      rcases captureOutcome_cases digests speech call with ⟨blocked, some_⟩ | ⟨outcome, recorded, one⟩
      · rw [blocked]
        dsimp only
        rcases reserveTargets_cases call speech.store (blockedChunks digests speech call) with
          ⟨refused, full⟩ | ⟨taken, collides⟩ | ⟨store, rows, done, reserved⟩
        · obtain ⟨retries, inserted, written⟩ :=
            record_fresh speech rfl known .quotaExhausted
          rw [refused]
          dsimp only
          rw [written]
          exact .exhausted known going full inserted
        · rw [taken]
          exact .collided known going collides
        · obtain ⟨retries, inserted, written⟩ := record_fresh
            ({ speech with
              store := { store with
                queue := requeueTargets store.queue (blockedChunks digests speech call) } })
            rfl known .accepted
          rw [done]
          dsimp only
          rw [written]
          exact .accepted known going
            (accepted_of_reserved injective distinct some_ reserved inserted) inserted rfl
      · obtain ⟨retries, inserted, written⟩ := record_fresh speech rfl known outcome
        rw [recorded]
        dsimp only
        rw [written]
        exact .answered known going one inserted

end Call

end Ovrly.Asr
