import Ovrly.Receipts.Requests
import Ovrly.Runs

/-!
Cancelling a reanalysis receipt reaches the live job.

The jobs of a request form a chain in the order in which they were enqueued. A run is any list
of transactions: requests, publications of any job a worker was ever handed, cancellations with
what they read before their lock, other jobs, and all other work on the queue but deletion.
Each publication extends one chain by one job at most, after publishing the one before.
-/

namespace Ovrly.Receipts

open Relational Runs Ovrly.Jobs
open Ovrly.Reports (Uuid)
open Ovrly.Evidence (StagePayload ReanalysisPayload RetrievalArtifact Reason Result planned
  maxExpansionPolls)

variable {δ σ : Type} {digests : KeyDigests}

section Keys

/-- Texts that name different requests or different jobs have different digests. -/
structure KeyDigests.Apart (digests : KeyDigests) : Prop where
  receipt : ∀ {first second}, digests.receipt first = digests.receipt second → first = second
  poll : ∀ {first second poll other}, digests.poll first poll = digests.poll second other →
    first = second ∧ poll = other
  receiptPoll : ∀ first second poll, digests.receipt first ≠ digests.poll second poll
  retrieval : ∀ {first second}, digests.retrieval first = digests.retrieval second →
    first.reanalysisRequestId = second.reanalysisRequestId
  assessment : ∀ {first second}, digests.assessment first = digests.assessment second →
    first = second

/-- The key that the source gives a job with a payload. -/
def Shaped (digests : KeyDigests) (key : StageKey) : EvidencePayload δ → Prop
  | .reanalysis payload _ =>
      key = reanalysisKey digests payload.requestId payload.poll ∧
        payload.poll ≤ maxExpansionPolls
  | .stage payload _ none => key = retrievalKey digests payload
  | .stage _ _ (some retrievalJobId) => key = assessmentKey digests retrievalJobId
  | .other _ => evidenceStages.contains key.stage = false

def rank : EvidencePayload δ → Nat
  | .reanalysis payload _ => payload.poll
  | .stage _ _ none => maxExpansionPolls + 1
  | .stage _ _ (some _) => maxExpansionPolls + 2
  | .other _ => 0

theorem reanalysisKey_inj (apart : digests.Apart) {first second : Uuid} {poll other : Nat}
    (same : reanalysisKey digests first poll = reanalysisKey digests second other) :
    first = second ∧ poll = other := by
  have hash := congrArg StageKey.inputHash same
  simp only [reanalysisKey] at hash
  by_cases one : poll = 0
  · by_cases two : other = 0
    · rw [if_pos one, if_pos two] at hash
      exact ⟨apart.receipt hash, one.trans two.symm⟩
    · rw [if_pos one, if_neg two] at hash
      exact absurd hash (apart.receiptPoll _ _ _)
  · by_cases two : other = 0
    · rw [if_neg one, if_pos two] at hash
      exact absurd hash.symm (apart.receiptPoll _ _ _)
    · rw [if_neg one, if_neg two] at hash
      exact apart.poll hash

theorem requestOf_reanalysis (requestId : Uuid) (poll : Nat) (plan : ReanalysisPayload)
    (ownerId : PrincipalId) :
    requestOf (δ := δ) (reanalysisKey digests requestId poll).stage (.reanalysis plan ownerId) =
      some plan.requestId := by
  simp [requestOf, reanalysisKey]

theorem shaped_reanalysis (apart : digests.Apart) {requestId : Uuid} {poll : Nat}
    {payload : EvidencePayload δ}
    (shaped : Shaped digests (reanalysisKey digests requestId poll) payload) :
    ∃ plan ownerId, payload = .reanalysis plan ownerId ∧ plan.requestId = requestId ∧
      plan.poll = poll := by
  match payload, shaped with
  | .reanalysis plan ownerId, shaped =>
      obtain ⟨requests, polls⟩ := reanalysisKey_inj apart shaped.1
      exact ⟨plan, ownerId, rfl, requests.symm, polls.symm⟩
  | .stage plan ownerId none, shaped =>
      exact absurd (congrArg StageKey.stage shaped) (show reanalysisStage ≠ retrievalStage by decide)
  | .stage plan ownerId (some retrievalJobId), shaped =>
      exact absurd (congrArg StageKey.stage shaped) (show reanalysisStage ≠ assessmentStage by decide)
  | .other document, shaped =>
      exact absurd shaped (show ¬evidenceStages.contains reanalysisStage = false by decide)

theorem shaped_retrieval (apart : digests.Apart) {plan : StagePayload}
    {payload : EvidencePayload δ} (shaped : Shaped digests (retrievalKey digests plan) payload) :
    ∃ other ownerId, payload = .stage other ownerId none ∧
      other.reanalysisRequestId = plan.reanalysisRequestId := by
  match payload, shaped with
  | .reanalysis other ownerId, shaped =>
      exact absurd (congrArg StageKey.stage shaped.1) (show retrievalStage ≠ reanalysisStage by decide)
  | .stage other ownerId none, shaped =>
      exact ⟨other, ownerId, rfl, (apart.retrieval (congrArg StageKey.inputHash shaped)).symm⟩
  | .stage other ownerId (some retrievalJobId), shaped =>
      exact absurd (congrArg StageKey.stage shaped) (show retrievalStage ≠ assessmentStage by decide)
  | .other document, shaped =>
      exact absurd shaped (show ¬evidenceStages.contains retrievalStage = false by decide)

theorem shaped_assessment (apart : digests.Apart) {retrievalJobId : JobId}
    {payload : EvidencePayload δ}
    (shaped : Shaped digests (assessmentKey digests retrievalJobId) payload) :
    ∃ plan ownerId, payload = .stage plan ownerId (some retrievalJobId) := by
  match payload, shaped with
  | .reanalysis plan ownerId, shaped =>
      exact absurd (congrArg StageKey.stage shaped.1) (show assessmentStage ≠ reanalysisStage by decide)
  | .stage plan ownerId none, shaped =>
      exact absurd (congrArg StageKey.stage shaped) (show assessmentStage ≠ retrievalStage by decide)
  | .stage plan ownerId (some other), shaped =>
      have same := apart.assessment (congrArg StageKey.inputHash shaped)
      exact ⟨plan, ownerId, by rw [same]⟩
  | .other document, shaped =>
      exact absurd shaped (show ¬evidenceStages.contains assessmentStage = false by decide)

end Keys

section Publication

variable [EmptyCollection σ] {office next : Office δ σ} {job : ClaimedJob (EvidencePayload δ) σ}
  {result : Result} {jobId : JobId} {clock : Clock}

/-- What a publication that went through leaves: the published row alone, a successor behind
the other rows, or a request that points at a job that held the successor's key already. -/
inductive Publishing (digests : KeyDigests) (office : Office δ σ)
    (job : ClaimedJob (EvidencePayload δ) σ) (result : Result) (jobId : JobId) (clock : Clock) :
    Office δ σ → Prop
  | alone {queue} :
      (∃ row ∈ office.queue.jobs.rows, active job.lease clock row = true) →
      queue.jobs.rows = office.queue.jobs.rows.map (publishedRow job.lease clock) →
      Publishing digests office job result jobId clock { office with queue }
  | successor {new row queue} :
      (∃ row ∈ office.queue.jobs.rows, active job.lease clock row = true) →
      plannedJob digests job result jobId = some new ∨
        followUp digests job result jobId = some new →
      (∀ row ∈ office.queue.jobs.rows, row.key ≠ new.key) →
      queue.jobs.rows =
        office.queue.jobs.rows.map (publishedRow job.lease clock) ++ [row] →
      SameJob (newRow new clock) row → row.state = .queued → row.cancelOutcome = none →
      Publishing digests office job result jobId clock
        ⟨repoint office.requests (requestOf job.key.stage job.payload) (some ⟨new.id, true⟩), queue⟩
  | reused {new existing queue} :
      (∃ row ∈ office.queue.jobs.rows, active job.lease clock row = true) →
      plannedJob digests job result jobId = some new ∨
        followUp digests job result jobId = some new →
      existing ∈ office.queue.jobs.rows → existing.key = new.key →
      queue.jobs.rows = office.queue.jobs.rows.map (publishedRow job.lease clock) →
      Publishing digests office job result jobId clock
        ⟨repoint office.requests (requestOf job.key.stage job.payload)
          (some ⟨existing.id, false⟩), queue⟩

omit [EmptyCollection σ] in
theorem followUp_of_planned {new : NewJob (EvidencePayload δ)}
    (plan : plannedJob digests job result jobId = some new) :
    followUp digests job result jobId = none := by
  cases result <;> simp [plannedJob] at plan
  simp [followUp]

omit [EmptyCollection σ] in
theorem holder_left {rows : List (Job (EvidencePayload δ) σ)} {lease : Lease}
    {new : Job (EvidencePayload δ) σ} (queued : new.state = .queued)
    (holder : ∃ row ∈ rows ++ [new], active lease clock row = true) :
    ∃ row ∈ rows, active lease clock row = true := by
  obtain ⟨row, member, holds⟩ := holder
  rcases List.mem_append.mp member with old | last
  · exact ⟨row, old, holds⟩
  · have running := (active_running holds).2.1
    rw [List.mem_singleton.mp last, queued] at running
    cases running

omit [EmptyCollection σ] in
theorem delay_existing (queue : Database (EvidencePayload δ) σ Result) (result : Result)
    (clock : Clock) (existing : JobId) :
    delayFollowUp queue result clock ⟨existing, false⟩ = queue := by
  unfold delayFollowUp
  split <;> simp

omit [EmptyCollection σ] in
theorem delay_rows {queue : Database (EvidencePayload δ) σ Result}
    {rows : List (Job (EvidencePayload δ) σ)} {row : Job (EvidencePayload δ) σ}
    {enqueued : Enqueued} (same : queue.jobs.rows = rows ++ [row]) (id : row.id = enqueued.jobId)
    (result : Result) (clock : Clock) :
    ∃ last, (delayFollowUp queue result clock enqueued).jobs.rows = rows ++ [last] ∧
      (last = row ∨ ∃ poll, last = delayed poll clock row) := by
  have unique := queue.jobs.unique
  rw [same, List.map_append, List.nodup_append] at unique
  have apart : ∀ other ∈ rows, other.id ≠ enqueued.jobId := by
    intro other member equal
    apply unique.2.2 other.id (List.mem_map_of_mem member) row.id (by simp [Keyed.key])
    rw [equal, id]
  unfold delayFollowUp
  split
  · rename_i poll
    split
    · refine ⟨delayed poll clock row, ?_, Or.inr ⟨poll, rfl⟩⟩
      simp only [Table.update, same, List.map_append, List.map_cons, List.map_nil, id,
        beq_self_eq_true, if_true]
      congr 1
      conv_rhs => rw [← List.map_id rows]
      apply List.map_congr_left
      intro other member
      simp [apart other member]
    · exact ⟨row, same, Or.inl rfl⟩
  · exact ⟨row, same, Or.inl rfl⟩

theorem publishEvidenceStage_ok {answer : PublishedResult Result}
    (accepted : publishEvidenceStage digests job result jobId clock office = (.ok answer, next)) :
    Publishing digests office job result jobId clock next := by
  unfold publishEvidenceStage at accepted
  cases plan : plannedJob digests job result jobId with
  | some new =>
      have none := followUp_of_planned plan
      simp only [plan, enqueueOption] at accepted
      cases first : enqueue office.queue new clock with
      | error refused => simp [first, Except.map] at accepted
      | ok answered =>
          simp only [first, Except.map] at accepted
          split at accepted
          · cases accepted
          · rename_i published middle publishes
            obtain ⟨holder, rows, -⟩ := publish_alone publishes
            simp only [none, Option.elim_none, Option.none_or, Prod.mk.injEq, Except.ok.injEq]
              at accepted
            rw [← accepted.2]
            rcases enqueue_rows first with
              ⟨existing, member, key, answers, same⟩ | ⟨fresh, answers, inserted⟩
            · rw [same] at rows holder
              rw [answers]
              exact .reused holder (Or.inl plan) member key rows
            · rw [inserted] at rows holder
              rw [List.map_append, List.map_singleton, publishedRow_new] at rows
              rw [answers]
              exact .successor (holder_left rfl holder) (Or.inl plan) fresh rows (.refl _) rfl rfl
  | none =>
      simp only [plan, enqueueOption] at accepted
      split at accepted
      · cases accepted
      · rename_i published middle publishes
        obtain ⟨holder, rows, -⟩ := publish_alone publishes
        cases follow : followUp digests job result jobId with
        | none =>
            simp only [follow, Option.elim_none, Option.none_or, Prod.mk.injEq, Except.ok.injEq]
              at accepted
            rw [← accepted.2]
            have same : repoint office.requests (requestOf job.key.stage job.payload) none =
                office.requests := by
              unfold repoint
              split <;> simp_all
            rw [same]
            exact .alone holder rows
        | some new =>
            simp only [follow] at accepted
            cases second : enqueue middle new clock with
            | error refused => simp [second, Except.map] at accepted
            | ok answered =>
                simp only [second, Except.map, Option.elim_some, Option.some_or, Prod.mk.injEq,
                  Except.ok.injEq] at accepted
                rw [← accepted.2]
                rcases enqueue_rows second with
                  ⟨existing, member, key, answers, same⟩ | ⟨fresh, answers, inserted⟩
                · rw [answers, same, delay_existing]
                  rw [rows] at member
                  obtain ⟨before, belongs, rfl⟩ := List.mem_map.mp member
                  have kept := publishedRow_lasting job.lease clock before
                  rw [kept.id]
                  exact .reused holder (Or.inr follow) belongs (kept.key.symm.trans key) rows
                · rw [answers]
                  have id : (newRow (σ := σ) new clock).id = (⟨new.id, true⟩ : Enqueued).jobId := rfl
                  obtain ⟨last, delayed, moved⟩ := delay_rows inserted id result clock
                  rw [rows] at delayed fresh
                  have others : ∀ row ∈ office.queue.jobs.rows, row.key ≠ new.key := by
                    intro row member taken
                    apply fresh _ (List.mem_map_of_mem member)
                    exact (publishedRow_lasting job.lease clock row).key.trans taken
                  rcases moved with rfl | ⟨poll, rfl⟩
                  · exact .successor holder (Or.inr follow) others delayed (.refl _) rfl rfl
                  · exact .successor holder (Or.inr follow) others delayed ⟨rfl, rfl, rfl, rfl⟩
                      rfl rfl

end Publication

section Chains

variable {rows kept added : List (Job (EvidencePayload δ) σ)} {requestId : Uuid}

def requestOfRow (row : Job (EvidencePayload δ) σ) : Option Uuid :=
  requestOf row.key.stage row.payload

/-- The jobs of a request, in the order in which they were enqueued. -/
def chain (rows : List (Job (EvidencePayload δ) σ)) (requestId : Uuid) :
    List (Job (EvidencePayload δ) σ) :=
  rows.filter (requestOfRow · == some requestId)

theorem mem_chain {row : Job (EvidencePayload δ) σ} :
    row ∈ chain rows requestId ↔ row ∈ rows ∧ requestOfRow row = some requestId := by
  simp [chain]

theorem chain_append :
    chain (kept ++ added) requestId = chain kept requestId ++ chain added requestId :=
  List.filter_append ..

theorem requestOfRow_same {row next : Job (EvidencePayload δ) σ} (same : SameJob row next) :
    requestOfRow next = requestOfRow row := by
  simp only [requestOfRow, same.key, same.payload]

theorem chain_ids (moved : List.Forall₂ SameJob rows kept) :
    (chain kept requestId).map Job.id = (chain rows requestId).map Job.id := by
  induction moved with
  | nil => rfl
  | @cons row next _ _ same _ ih =>
      simp only [chain, List.filter_cons, requestOfRow_same same]
      split
      · rw [List.map_cons, List.map_cons, same.id]
        exact congrArg _ ih
      · exact ih

def Withdrawn (job : Job (EvidencePayload δ) σ) : Prop :=
  job.state ≠ .published ∧ (job.cancelRequested = true ∨ job.state.isTerminal = true)

theorem Withdrawn.works {row next : Job (EvidencePayload δ) σ} (withdrawn : Withdrawn row)
    (works : Works row next) : Withdrawn next := by
  refine ⟨fun published => withdrawn.1 (works.published.mp published), ?_⟩
  rcases withdrawn.2 with requested | ended
  · exact Or.inl (works.requested requested)
  · right
    rw [works.terminal ended]
    exact ended

theorem Withdrawn.not_active {row : Job (EvidencePayload δ) σ} {lease : Lease} {clock : Clock}
    (withdrawn : Withdrawn row) : active lease clock row = false := by
  rw [← Bool.not_eq_true]
  intro holds
  obtain ⟨-, running, unrequested⟩ := active_running holds
  rcases withdrawn.2 with requested | ended
  · rw [unrequested] at requested
    cases requested
  · rw [running] at ended
    cases ended

/-- The answers after which the owner relies on the cancellation. -/
def Told (outcome : Option CancelOutcome) : Prop :=
  outcome = some .effective ∨ outcome = some .requested

theorem not_told_none : ¬Told none := by
  rintro (effective | requested)
  · cases effective
  · cases requested

/-- The request names the last job of its chain; the jobs before it are published, no job is
further in the work than it, and where an owner was told of a cancellation it cannot publish. -/
structure Chained (rows : List (Job (EvidencePayload δ) σ)) (request : Request) : Prop where
  ordered : ∃ ids, (chain rows request.id).map Job.id = ids ++ [request.jobId]
  earlier : ∀ job ∈ chain rows request.id, job.id ≠ request.jobId → job.state = .published
  top : ∀ job ∈ chain rows request.id, ∀ last ∈ chain rows request.id,
    last.id = request.jobId → rank job.payload ≤ rank last.payload
  told : ∀ job ∈ chain rows request.id, Told job.cancelOutcome →
    ∀ last ∈ chain rows request.id, last.id = request.jobId → Withdrawn last

theorem Chained.last {request : Request} (chained : Chained rows request) :
    ∃ last ∈ chain rows request.id, last.id = request.jobId := by
  obtain ⟨ids, ordered⟩ := chained.ordered
  have member : request.jobId ∈ (chain rows request.id).map Job.id := by
    rw [ordered]
    simp
  exact List.mem_map.mp member

theorem Chained.is_last {request : Request} (chained : Chained rows request)
    {job : Job (EvidencePayload δ) σ} (member : job ∈ chain rows request.id)
    (unpublished : job.state ≠ .published) : job.id = request.jobId := by
  by_contra other
  exact unpublished (chained.earlier job member other)

structure Kept (row next : Job (EvidencePayload δ) σ) : Prop extends Lasting row next where
  published : row.state = .published → next.state = .published
  withdrawn : Withdrawn row → Withdrawn next

theorem Kept.refl (row : Job (EvidencePayload δ) σ) : Kept row row := ⟨.refl row, id, id⟩

theorem Kept.trans {first second third : Job (EvidencePayload δ) σ} (kept : Kept first second)
    (further : Kept second third) : Kept first third where
  toLasting := kept.toLasting.trans further.toLasting
  published published := further.published (kept.published published)
  withdrawn withdrawn := further.withdrawn (kept.withdrawn withdrawn)

structure Steady (row next : Job (EvidencePayload δ) σ) : Prop extends Kept row next where
  told : Told next.cancelOutcome → Told row.cancelOutcome

theorem steady_works {row next : Job (EvidencePayload δ) σ} (works : Works row next) :
    Steady row next where
  toLasting := works.toLasting
  published := works.published.mpr
  withdrawn withdrawn := withdrawn.works works
  told told := by rwa [works.outcome] at told

theorem steady_published (lease : Lease) (clock : Clock) (row : Job (EvidencePayload δ) σ) :
    Steady row (publishedRow lease clock row) where
  toLasting := publishedRow_lasting lease clock row
  published published := by
    unfold publishedRow
    split
    · rfl
    · exact published
  withdrawn withdrawn := by
    rw [publishedRow, withdrawn.not_active, if_neg (by simp)]
    exact withdrawn
  told told := by
    unfold publishedRow at told
    split at told <;> exact told

theorem mem_chain_right {related : Job (EvidencePayload δ) σ → Job (EvidencePayload δ) σ → Prop}
    (same : ∀ {row next}, related row next → SameJob row next)
    (moved : List.Forall₂ related rows kept) {next : Job (EvidencePayload δ) σ}
    (member : next ∈ chain kept requestId) :
    ∃ row ∈ chain rows requestId, related row next := by
  obtain ⟨listed, request⟩ := mem_chain.mp member
  obtain ⟨row, belongs, relates⟩ := mem_right moved listed
  refine ⟨row, mem_chain.mpr ⟨belongs, ?_⟩, relates⟩
  rw [← requestOfRow_same (same relates), request]

theorem Chained.settle {request : Request} (chained : Chained rows request)
    (moved : List.Forall₂ Kept rows kept)
    (told : ∀ job ∈ chain kept request.id, Told job.cancelOutcome →
      ∀ last ∈ chain kept request.id, last.id = request.jobId → Withdrawn last) :
    Chained kept request where
  ordered := by
    rw [chain_ids (List.Forall₂.imp (fun _ _ kept => kept.toSameJob) moved)]
    exact chained.ordered
  earlier job member other := by
    obtain ⟨row, belongs, kept⟩ := mem_chain_right (fun kept => kept.toSameJob) moved member
    rw [kept.id] at other
    exact kept.published (chained.earlier row belongs other)
  top job member last lastMember id := by
    obtain ⟨row, belongs, kept⟩ := mem_chain_right (fun kept => kept.toSameJob) moved member
    obtain ⟨final, endBelongs, endKept⟩ := mem_chain_right (fun kept => kept.toSameJob) moved lastMember
    rw [kept.payload, endKept.payload]
    exact chained.top row belongs final endBelongs (endKept.id.symm.trans id)
  told := told

theorem Chained.steady {request : Request} (chained : Chained rows request)
    (moved : List.Forall₂ Steady rows kept) : Chained kept request := by
  apply chained.settle (List.Forall₂.imp (fun _ _ steady => steady.toKept) moved)
  intro job member told last lastMember id
  obtain ⟨row, belongs, steady⟩ := mem_chain_right (fun steady => steady.toSameJob) moved member
  obtain ⟨final, endBelongs, endSteady⟩ :=
    mem_chain_right (fun steady => steady.toSameJob) moved lastMember
  exact endSteady.withdrawn (chained.told row belongs (steady.told told) final endBelongs
    (endSteady.id.symm.trans id))

theorem chain_others (others : ∀ row ∈ added, requestOfRow row ≠ some requestId) :
    chain (rows ++ added) requestId = chain rows requestId := by
  have nothing : chain added requestId = [] := by
    rw [chain, List.filter_eq_nil_iff]
    intro row member
    simpa using others row member
  rw [chain_append, nothing, List.append_nil]

theorem Chained.others {request : Request} (chained : Chained rows request)
    (others : ∀ row ∈ added, requestOfRow row ≠ some request.id) :
    Chained (rows ++ added) request := by
  have same : chain (rows ++ added) request.id = chain rows request.id := chain_others others
  constructor <;> rw [same]
  · exact chained.ordered
  · exact chained.earlier
  · exact chained.top
  · exact chained.told

theorem Chained.extend {request : Request} (chained : Chained rows request)
    {row : Job (EvidencePayload δ) σ} (works : requestOfRow row = some request.id)
    (done : ∀ last ∈ chain rows request.id, last.id = request.jobId → last.state = .published)
    (further : ∀ last ∈ chain rows request.id, last.id = request.jobId →
      rank last.payload < rank row.payload)
    (untold : row.cancelOutcome = none) (fresh : ∀ job ∈ rows, job.id ≠ row.id) :
    Chained (rows ++ [row]) { request with jobId := row.id } := by
  have same : chain (rows ++ [row]) request.id = chain rows request.id ++ [row] := by
    rw [chain_append]
    simp [chain, works]
  have all : ∀ job ∈ chain rows request.id, job.state = .published := by
    intro job member
    by_cases last : job.id = request.jobId
    · exact done job member last
    · exact chained.earlier job member last
  obtain ⟨final, endMember, endId⟩ := chained.last
  have only : ∀ job ∈ chain rows request.id ++ [row], job.id = row.id → job = row := by
    intro job member id
    rcases List.mem_append.mp member with old | last
    · exact absurd id (fresh job (mem_chain.mp old).1)
    · exact List.mem_singleton.mp last
  constructor
  · refine ⟨(chain rows request.id).map Job.id, ?_⟩
    change (chain (rows ++ [row]) request.id).map Job.id = _
    rw [same, List.map_append, List.map_singleton]
  · intro job member id
    change job ∈ chain (rows ++ [row]) request.id at member
    rw [same] at member
    rcases List.mem_append.mp member with old | last
    · exact all job old
    · exact absurd (congrArg Job.id (List.mem_singleton.mp last)) id
  · intro job member last lastMember id
    change job ∈ chain (rows ++ [row]) request.id at member
    change last ∈ chain (rows ++ [row]) request.id at lastMember
    rw [same] at member lastMember
    rw [only last lastMember id]
    rcases List.mem_append.mp member with old | new
    · exact (chained.top job old final endMember endId).trans (further final endMember endId).le
    · rw [List.mem_singleton.mp new]
  · intro job member told last lastMember id
    change job ∈ chain (rows ++ [row]) request.id at member
    rw [same] at member
    rcases List.mem_append.mp member with old | new
    · exact absurd (done final endMember endId) (chained.told job old told final endMember endId).1
    · rw [List.mem_singleton.mp new, untold] at told
      exact absurd told not_told_none

theorem Chained.first {request : Request} {row : Job (EvidencePayload δ) σ}
    (none : ∀ other ∈ rows, requestOfRow other ≠ some request.id)
    (works : requestOfRow row = some request.id) (id : row.id = request.jobId)
    (untold : row.cancelOutcome = Option.none) : Chained (rows ++ [row]) request := by
  have nothing : chain rows request.id = [] := by
    rw [chain, List.filter_eq_nil_iff]
    intro other member
    simpa using none other member
  have same : chain (rows ++ [row]) request.id = [row] := by
    rw [chain_append, nothing]
    simp [chain, works]
  constructor <;> simp only [same, List.mem_singleton, forall_eq]
  · exact ⟨[], by rw [List.map_singleton, id, List.nil_append]⟩
  · intro other
    exact absurd id other
  · intro _
    exact le_refl _
  · rw [untold]
    exact fun told => absurd told not_told_none

/-- A chain that neither grows nor finishes. -/
structure Halted (rows : List (Job (EvidencePayload δ) σ)) (request : Request)
    (ids : List JobId) : Prop where
  ids : (chain rows request.id).map Job.id = ids
  withdrawn : ∀ last ∈ chain rows request.id, last.id = request.jobId → Withdrawn last

theorem Halted.settle {request : Request} {ids : List JobId} (halted : Halted rows request ids)
    (moved : List.Forall₂ Kept rows kept) : Halted kept request ids where
  ids := by
    rw [chain_ids (List.Forall₂.imp (fun _ _ kept => kept.toSameJob) moved)]
    exact halted.ids
  withdrawn last member id := by
    obtain ⟨row, belongs, kept⟩ := mem_chain_right (fun kept => kept.toSameJob) moved member
    exact kept.withdrawn (halted.withdrawn row belongs (kept.id.symm.trans id))

theorem Halted.others {request : Request} {ids : List JobId} (halted : Halted rows request ids)
    (others : ∀ row ∈ added, requestOfRow row ≠ some request.id) :
    Halted (rows ++ added) request ids := by
  have same : chain (rows ++ added) request.id = chain rows request.id := chain_others others
  constructor <;> rw [same]
  · exact halted.ids
  · exact halted.withdrawn

end Chains

section Stations

/-- A result the job's handler returns for its payload. -/
def returns (job : ClaimedJob (EvidencePayload δ) σ) (result : Result) : Bool :=
  match job.payload with
  | .reanalysis payload _ =>
      match result with
      | .retrieval plan => payload.reason != .expansion && plan == planned payload
      | .waitingForSource poll =>
          payload.reason == .expansion && poll == payload.poll &&
            decide (payload.poll < maxExpansionPolls)
      | .version _ | .skipped _ => payload.reason == .expansion
      | _ => false
  | .stage _ _ none => match result with
      | .artifact _ => true
      | _ => false
  | .stage _ _ (some _) => match result with
      | .version _ | .skipped _ => true
      | _ => false
  | .other _ => true

/-- A job that works for no request, under the key of its kind. -/
structure Unrequested (digests : KeyDigests) (δ : Type) where
  new : NewJob (EvidencePayload δ)
  shaped : Shaped digests new.key new.payload
  unrequested : requestOf new.key.stage new.payload = none
  unassessed : ∀ plan ownerId retrievalJobId, new.payload ≠ .stage plan ownerId (some retrievalJobId)

/-- The requests, the queue, the jobs handed to workers and what cancellations have read. -/
structure Station (δ σ : Type) where
  requests : Table Request := .empty
  workers : Workers (EvidencePayload δ) σ Result := ⟨.empty, []⟩
  peeks : List (Job (EvidencePayload δ) σ) := []

inductive Event (digests : KeyDigests) (δ σ : Type)
  | requested (payload : ReanalysisPayload) (principal : PrincipalId) (jobId : JobId)
      (clock : Clock)
  /-- Any worker publishes any job it was ever handed, as often as it likes. -/
  | published (index : Nat) (result : Result) (enqueues : List (Unrequested digests δ))
      (jobId : JobId) (clock : Clock)
  | enqueued (new : Unrequested digests δ) (clock : Clock)
  | peeked (jobId : JobId) (principal : PrincipalId)
  | cancelled (index : Nat) (principal : PrincipalId) (clock : Clock)
  | worked (clock : Clock) (call : Call (EvidencePayload δ) σ Result)

def Station.office (station : Station δ σ) : Office δ σ :=
  ⟨station.requests, station.workers.queue⟩

def Station.withOffice (station : Station δ σ) (office : Office δ σ) : Station δ σ :=
  { station with
    requests := office.requests
    workers := { station.workers with queue := office.queue } }

def Station.rows (station : Station δ σ) : List (Job (EvidencePayload δ) σ) :=
  station.workers.queue.jobs.rows

variable [EmptyCollection δ] [EmptyCollection σ]

variable (digests) in
/-- `publish_stage`: evidence stages hand on to their successors, other jobs to their own. -/
def Station.publish (station : Station δ σ) (job : ClaimedJob (EvidencePayload δ) σ)
    (result : Result) (enqueues : List (Unrequested digests δ)) (jobId : JobId) (clock : Clock) :
    Office δ σ :=
  if evidenceStages.contains job.key.stage then
    if returns job result then
      (publishEvidenceStage digests job result jobId clock station.office).2
    else station.office
  else
    { station.office with
      queue := (Jobs.publish station.workers.queue job.lease result []
        ⟨enqueues.map (·.new), false⟩ clock).2 }

variable (digests) in
def Station.step (station : Station δ σ) : Event digests δ σ → Station δ σ
  | .requested payload principal jobId clock =>
      station.withOffice
        (requestReanalysis digests jobId clock station.office payload principal)
  | .published index result enqueues jobId clock =>
      match station.workers.claims[index]? with
      | none => station
      | some job => station.withOffice (station.publish digests job result enqueues jobId clock)
  | .enqueued new clock =>
      match enqueue station.workers.queue new.new clock with
      | .error _ => station
      | .ok (_, queue) => station.withOffice { station.office with queue }
  | .peeked jobId principal =>
      match loadOwned station.workers.queue jobId principal with
      | none => station
      | some peek => { station with peeks := station.peeks ++ [peek] }
  | .cancelled index principal clock =>
      match station.peeks[index]? with
      | none => station
      | some peek =>
          match cancelOwnedJob station.office peek principal clock with
          | none => station
          | some (_, office) => station.withOffice office
  | .worked clock call => { station with workers := station.workers.work clock call }

variable (digests) in
def Station.run (events : List (Event digests δ σ)) : Station δ σ :=
  exec (Station.step digests) {} events

structure Station.Sound (digests : KeyDigests) (station : Station δ σ) : Prop where
  faithful : station.workers.Faithful
  shaped : ∀ row ∈ station.rows, Shaped digests row.key row.payload
  requested : ∀ row ∈ station.rows, ∀ requestId, requestOfRow row = some requestId →
    ∃ request ∈ station.requests.rows, request.id = requestId
  chained : ∀ request ∈ station.requests.rows, Chained station.rows request
  retrieved : ∀ row ∈ station.rows, ∀ plan ownerId retrievalJobId,
    row.payload = .stage plan ownerId (some retrievalJobId) →
    ∃ other ∈ station.rows, other.id = retrievalJobId ∧ other.state = .published
  peeked : ∀ peek ∈ station.peeks, ∃ row ∈ station.rows, SameJob peek row
  alone : ∀ row ∈ station.rows, requestOfRow row = none → Told row.cancelOutcome → Withdrawn row

structure Station.Stopped (station : Station δ σ) (request : Request) (ids : List JobId) :
    Prop where
  listed : request ∈ station.requests.rows
  halted : Halted station.rows request ids

structure Station.Progress (digests : KeyDigests) (station next : Station δ σ) : Prop where
  sound : next.Sound digests
  stopped : ∀ request ids, station.Stopped request ids → next.Stopped request ids
  kept : ∀ row ∈ station.rows, ∃ later ∈ next.rows, Kept row later
  claims : ∀ job ∈ station.workers.claims, job ∈ next.workers.claims

omit [EmptyCollection δ] [EmptyCollection σ] in
theorem Station.Sound.idle {station : Station δ σ} (sound : station.Sound digests) :
    station.Progress digests station where
  sound := sound
  stopped _ _ stopped := stopped
  kept row member := ⟨row, member, .refl row⟩
  claims _ handed := handed

omit [EmptyCollection δ] [EmptyCollection σ] in
theorem Station.Progress.trans {first second third : Station δ σ}
    (progress : first.Progress digests second) (further : second.Progress digests third) :
    first.Progress digests third where
  sound := further.sound
  stopped request ids stopped := further.stopped request ids (progress.stopped request ids stopped)
  kept row member := by
    obtain ⟨middle, belongs, kept⟩ := progress.kept row member
    obtain ⟨later, listed, moved⟩ := further.kept middle belongs
    exact ⟨later, listed, kept.trans moved⟩
  claims job handed := further.claims job (progress.claims job handed)

omit [EmptyCollection δ] [EmptyCollection σ] in
theorem sound_start : Station.Sound digests ({} : Station δ σ) where
  faithful := ⟨List.nodup_nil, by simp⟩
  shaped row member := by cases member
  requested row member := by cases member
  chained request member := by cases member
  retrieved row member := by cases member
  peeked peek member := by cases member
  alone row member := by cases member

variable {station : Station δ σ}

omit [EmptyCollection δ] [EmptyCollection σ] in
theorem Station.Sound.kept {workers : Workers (EvidencePayload δ) σ Result}
    (sound : station.Sound digests) (faithful : workers.Faithful)
    (claims : ∀ job ∈ station.workers.claims, job ∈ workers.claims)
    (moved : List.Forall₂ Kept station.rows workers.queue.jobs.rows)
    (chained : ∀ request ∈ station.requests.rows, Chained workers.queue.jobs.rows request)
    (alone : ∀ row ∈ workers.queue.jobs.rows, requestOfRow row = none → Told row.cancelOutcome →
      Withdrawn row) :
    station.Progress digests { station with workers } where
  stopped request ids stopped := ⟨stopped.listed, stopped.halted.settle moved⟩
  kept row member := mem_left moved member
  claims := claims
  sound.alone := alone
  sound.faithful := faithful
  sound.shaped row member := by
    obtain ⟨before, belongs, kept⟩ := mem_right moved member
    rw [kept.key, kept.payload]
    exact sound.shaped before belongs
  sound.requested row member requestId works := by
    obtain ⟨before, belongs, kept⟩ := mem_right moved member
    rw [requestOfRow_same kept.toSameJob] at works
    exact sound.requested before belongs requestId works
  sound.chained := chained
  sound.retrieved row member plan ownerId retrievalJobId payload := by
    obtain ⟨before, belongs, kept⟩ := mem_right moved member
    rw [kept.payload] at payload
    obtain ⟨other, listed, id, published⟩ := sound.retrieved before belongs _ _ _ payload
    obtain ⟨next, nextListed, nextKept⟩ := mem_left moved listed
    exact ⟨next, nextListed, nextKept.id.trans id, nextKept.published published⟩
  sound.peeked peek member := by
    obtain ⟨row, belongs, same⟩ := sound.peeked peek member
    obtain ⟨next, listed, kept⟩ := mem_left moved belongs
    exact ⟨next, listed, same.trans kept.toSameJob⟩

omit [EmptyCollection δ] [EmptyCollection σ] in
theorem Station.Sound.steady {workers : Workers (EvidencePayload δ) σ Result}
    (sound : station.Sound digests) (faithful : workers.Faithful)
    (claims : ∀ job ∈ station.workers.claims, job ∈ workers.claims)
    (moved : List.Forall₂ Steady station.rows workers.queue.jobs.rows) :
    station.Progress digests { station with workers } := by
  apply sound.kept faithful claims (List.Forall₂.imp (fun _ _ steady => steady.toKept) moved)
  · exact fun request member => (sound.chained request member).steady moved
  · intro row member works told
    obtain ⟨before, belongs, steady⟩ := mem_right moved member
    rw [requestOfRow_same steady.toSameJob] at works
    exact steady.withdrawn (sound.alone before belongs works (steady.told told))

omit [EmptyCollection δ] [EmptyCollection σ] in
theorem Station.Sound.works {workers : Workers (EvidencePayload δ) σ Result}
    (sound : station.Sound digests) (faithful : workers.Faithful)
    (claims : ∀ job ∈ station.workers.claims, job ∈ workers.claims)
    (moved : Moved Works station.workers.queue workers.queue) :
    station.Progress digests { station with workers } :=
  sound.steady faithful claims (List.Forall₂.imp (fun _ _ => steady_works) moved)

omit [EmptyCollection δ] [EmptyCollection σ] in
theorem Station.Sound.add {workers : Workers (EvidencePayload δ) σ Result}
    {added : List (Job (EvidencePayload δ) σ)} (sound : station.Sound digests)
    (faithful : workers.Faithful)
    (claims : ∀ job ∈ station.workers.claims, job ∈ workers.claims)
    (rows : workers.queue.jobs.rows = station.rows ++ added)
    (shaped : ∀ row ∈ added, Shaped digests row.key row.payload)
    (unrequested : ∀ row ∈ added, requestOfRow row = none)
    (untold : ∀ row ∈ added, row.cancelOutcome = none)
    (retrieved : ∀ row ∈ added, ∀ plan ownerId retrievalJobId,
      row.payload = .stage plan ownerId (some retrievalJobId) →
      ∃ other ∈ station.rows, other.id = retrievalJobId ∧ other.state = .published) :
    station.Progress digests { station with workers } where
  stopped request ids stopped := by
    refine ⟨stopped.listed, ?_⟩
    rw [Station.rows, rows]
    apply stopped.halted.others
    intro row new
    rw [unrequested row new]
    exact (Option.some_ne_none _).symm
  kept row member := by
    refine ⟨row, ?_, .refl row⟩
    rw [Station.rows, rows]
    exact List.mem_append_left _ member
  claims := claims
  sound.alone row member works told := by
    rw [Station.rows, rows] at member
    rcases List.mem_append.mp member with old | new
    · exact sound.alone row old works told
    · rw [untold row new] at told
      exact absurd told not_told_none
  sound.faithful := faithful
  sound.shaped row member := by
    rw [Station.rows, rows] at member
    exact (List.mem_append.mp member).elim (sound.shaped row) (shaped row)
  sound.requested row member requestId works := by
    rw [Station.rows, rows] at member
    rcases List.mem_append.mp member with old | new
    · exact sound.requested row old requestId works
    · rw [unrequested row new] at works
      cases works
  sound.chained request member := by
    rw [Station.rows, rows]
    apply (sound.chained request member).others
    intro row new
    rw [unrequested row new]
    exact Option.some_ne_none _ |>.symm
  sound.retrieved row member plan ownerId retrievalJobId payload := by
    rw [Station.rows, rows] at member ⊢
    have found := (List.mem_append.mp member).elim
      (fun old => sound.retrieved row old _ _ _ payload)
      (fun new => retrieved row new _ _ _ payload)
    obtain ⟨retrieval, listed, holds⟩ := found
    exact ⟨retrieval, List.mem_append_left _ listed, holds⟩
  sound.peeked peek member := by
    obtain ⟨row, belongs, same⟩ := sound.peeked peek member
    refine ⟨row, ?_, same⟩
    rw [Station.rows, rows]
    exact List.mem_append_left _ belongs

end Stations

section Successors

variable {job : ClaimedJob (EvidencePayload δ) σ} {result : Result} {jobId : JobId}
  {new : NewJob (EvidencePayload δ)}

structure Follows (digests : KeyDigests) (job : ClaimedJob (EvidencePayload δ) σ)
    (new : NewJob (EvidencePayload δ)) : Prop where
  shaped : Shaped digests new.key new.payload
  request : requestOf new.key.stage new.payload = requestOf job.key.stage job.payload
  further : rank job.payload < rank new.payload
  retrieved : ∀ plan ownerId retrievalJobId,
    new.payload = .stage plan ownerId (some retrievalJobId) → retrievalJobId = job.lease.jobId

theorem planned_follows (shaped : Shaped digests job.key job.payload)
    (returned : returns job result = true)
    (plan : plannedJob digests job result jobId = some new) : Follows digests job new := by
  unfold plannedJob at plan
  split at plan
  · rename_i planning payload ownerId same
    split at plan
    · rename_i stage
      obtain rfl := Option.some.inj plan
      rw [same] at shaped
      simp only [returns, same, Bool.and_eq_true, beq_iff_eq] at returned
      obtain ⟨-, rfl⟩ := returned
      refine ⟨rfl, ?_, ?_, ?_⟩
      · simp [requestOf, same, stage, retrievalKey, retrievalStage, reanalysisStage, planned]
      · rw [same]
        exact Nat.lt_succ_of_le shaped.2
      · intro _ _ _ payload
        cases payload
    · cases plan
  · cases plan

theorem followUp_follows (shaped : Shaped digests job.key job.payload)
    (returned : returns job result = true)
    (follow : followUp digests job result jobId = some new) : Follows digests job new := by
  unfold followUp at follow
  split at follow
  · rename_i artifact payload ownerId retrievalJobId same
    split at follow
    · rename_i ready
      obtain rfl := Option.some.inj follow
      cases retrievalJobId with
      | some other =>
          rw [same] at shaped
          have stage := congrArg StageKey.stage shaped
          rw [ready.1] at stage
          exact absurd stage (show retrievalStage ≠ assessmentStage by decide)
      | none =>
          refine ⟨rfl, ?_, ?_, ?_⟩
          · simp [requestOf, same, ready.1, assessmentKey, retrievalStage, assessmentStage,
              reanalysisStage]
          · rw [same]
            exact Nat.lt_succ_self _
          · intro _ _ _ payload
            simp only [EvidencePayload.stage.injEq, Option.some.injEq] at payload
            exact payload.2.2.symm
    · cases follow
  · rename_i poll payload ownerId same
    split at follow
    · rename_i stage
      obtain rfl := Option.some.inj follow
      rw [same] at shaped
      simp only [returns, same, Bool.and_eq_true, beq_iff_eq, decide_eq_true_eq] at returned
      obtain ⟨⟨-, rfl⟩, more⟩ := returned
      refine ⟨⟨rfl, more⟩, ?_, ?_, ?_⟩
      · simp [requestOf, same, stage, reanalysisKey]
      · rw [same]
        exact Nat.lt_succ_self _
      · intro _ _ _ payload
        cases payload
    · cases follow
  · cases follow

end Successors

section Publications

variable [EmptyCollection δ] [EmptyCollection σ] {station : Station δ σ}
  {job : ClaimedJob (EvidencePayload δ) σ} {result : Result} {jobId : JobId} {clock : Clock}
  {office : Office δ σ}

def Station.finished (station : Station δ σ) (lease : Lease) (clock : Clock) : Station δ σ :=
  { station with
    workers := { station.workers with
      queue := { station.workers.queue with
        jobs := station.workers.queue.jobs.update (active lease clock) (published clock)
          (published_id clock) } } }

omit [EmptyCollection δ] [EmptyCollection σ] in
theorem finished_rows (station : Station δ σ) (lease : Lease) (clock : Clock) :
    (station.finished lease clock).rows = station.rows.map (publishedRow lease clock) := rfl

omit [EmptyCollection δ] [EmptyCollection σ] in
theorem finished_steady (station : Station δ σ) (lease : Lease) (clock : Clock) :
    List.Forall₂ Steady station.rows (station.finished lease clock).rows := by
  rw [finished_rows, List.forall₂_map_right_iff]
  exact List.forall₂_same.mpr fun row _ => steady_published lease clock row

omit [EmptyCollection δ] [EmptyCollection σ] in
theorem faithful_kept {workers : Workers (EvidencePayload δ) σ Result}
    {queue : Database (EvidencePayload δ) σ Result} (faithful : workers.Faithful)
    (moved : List.Forall₂ Kept workers.queue.jobs.rows queue.jobs.rows) :
    Workers.Faithful { workers with queue } := by
  have lasting : Moved Lasting workers.queue queue :=
    List.Forall₂.imp (fun _ _ (kept : Kept _ _) => kept.toLasting) moved
  exact faithful.evolve (List.append_nil _).symm lasting
    (keysUnique_of_lasting faithful.unique lasting)

omit [EmptyCollection δ] [EmptyCollection σ] in
theorem forall₂_kept {rows later : List (Job (EvidencePayload δ) σ)}
    (moved : List.Forall₂ Steady rows later) : List.Forall₂ Kept rows later :=
  List.Forall₂.imp (fun _ _ steady => steady.toKept) moved

omit [EmptyCollection δ] [EmptyCollection σ] in
theorem Station.Sound.finished (sound : station.Sound digests) (lease : Lease) (clock : Clock) :
    station.Progress digests (station.finished lease clock) := by
  have moved := finished_steady station lease clock
  exact sound.steady (faithful_kept sound.faithful (forall₂_kept moved))
      (fun _ handed => handed) moved

omit [EmptyCollection δ] [EmptyCollection σ] in
theorem Station.Sound.holder (sound : station.Sound digests)
    (handed : job ∈ station.workers.claims)
    (held : ∃ row ∈ station.rows, active job.lease clock row = true) :
    ∃ row ∈ station.rows, active job.lease clock row = true ∧ row.id = job.lease.jobId ∧
      row.key = job.key ∧ row.payload = job.payload := by
  obtain ⟨row, member, holds⟩ := held
  obtain ⟨taken, listed, id, key, payload, -⟩ := sound.faithful.handed job handed
  have same : taken = row := by
    apply Table.eq_of_key listed member
    exact id.trans (active_running holds).1.symm
  rw [same] at key payload
  exact ⟨row, member, holds, (active_running holds).1, key, payload⟩

theorem repoint_none (requests : Table Request) (successor : Option Enqueued) :
    repoint requests none successor = requests := rfl

theorem mem_repoint {requests : Table Request} {requestId : Uuid} {enqueued : Enqueued}
    {request : Request}
    (member : request ∈ (repoint requests (some requestId) (some enqueued)).rows) :
    (request ∈ requests.rows ∧ request.id ≠ requestId) ∨
      ∃ before ∈ requests.rows, before.id = requestId ∧
        request = repointed enqueued.jobId before := by
  obtain ⟨before, belongs, rfl⟩ := List.mem_map.mp member
  by_cases same : before.id = requestId
  · right
    exact ⟨before, belongs, same, by simp [same]⟩
  · left
    simp only [same, beq_iff_eq, if_false]
    exact ⟨belongs, same⟩

theorem repoint_requests (requests : Table Request) (requestId : Option Uuid)
    (successor : Option Enqueued) {request : Request} (member : request ∈ requests.rows) :
    ∃ next ∈ (repoint requests requestId successor).rows, next.id = request.id := by
  unfold repoint
  split
  · rename_i id enqueued
    refine ⟨_, List.mem_map_of_mem member, ?_⟩
    split <;> rfl
  · exact ⟨request, member, rfl⟩

theorem repoint_other {requests : Table Request} {requestId : Option Uuid}
    {successor : Option Enqueued} {request : Request} (other : requestId ≠ some request.id)
    (member : request ∈ requests.rows) :
    request ∈ (repoint requests requestId successor).rows := by
  unfold repoint
  split
  · rename_i id enqueued
    apply List.mem_map.mpr
    refine ⟨request, member, ?_⟩
    rw [if_neg]
    intro same
    exact other (congrArg some (beq_iff_eq.mp same)).symm
  · exact member

omit [EmptyCollection δ] [EmptyCollection σ] in
theorem Station.Sound.succeed (sound : station.Sound digests)
    {last row : Job (EvidencePayload δ) σ} {enqueued : Enqueued} (member : last ∈ station.rows)
    (done : last.state = .published)
    (final : ∀ request ∈ station.requests.rows, requestOfRow last = some request.id →
      last.id = request.jobId)
    (shaped : Shaped digests row.key row.payload)
    (works : requestOfRow row = requestOfRow last)
    (further : rank last.payload < rank row.payload)
    (retrieved : ∀ plan ownerId retrievalJobId,
      row.payload = .stage plan ownerId (some retrievalJobId) → retrievalJobId = last.id)
    (untold : row.cancelOutcome = none) (fresh : ∀ other ∈ station.rows, other.key ≠ row.key)
    (id : enqueued.jobId = row.id)
    (rows : office.queue.jobs.rows = station.rows ++ [row])
    (requests : office.requests =
      repoint station.requests (requestOfRow last) (some enqueued)) :
    station.Progress digests (station.withOffice office) := by
  have listed : (station.withOffice office).rows = station.rows ++ [row] := rows
  have newId : ∀ other ∈ station.rows, other.id ≠ row.id := by
    have unique := office.queue.jobs.unique
    rw [rows, List.map_append, List.nodup_append] at unique
    intro other belongs
    exact unique.2.2 other.id (List.mem_map_of_mem belongs) row.id (by simp [Keyed.key])
  have stopped : ∀ request ids, station.Stopped request ids →
      (station.withOffice office).Stopped request ids := by
    intro request ids stopped
    have other : requestOfRow last ≠ some request.id := fun works =>
      (stopped.halted.withdrawn last (mem_chain.mpr ⟨member, works⟩)
        (final request stopped.listed works)).1 done
    constructor
    · change request ∈ office.requests.rows
      rw [requests]
      exact repoint_other other stopped.listed
    · rw [listed]
      apply stopped.halted.others
      intro new newMember
      rw [List.mem_singleton.mp newMember, works]
      exact other
  have kept : ∀ other ∈ station.rows, ∃ later ∈ (station.withOffice office).rows,
      Kept other later := by
    intro other belongs
    refine ⟨other, ?_, .refl other⟩
    rw [listed]
    exact List.mem_append_left _ belongs
  refine ⟨?_, stopped, kept, fun _ handed => handed⟩
  constructor
  · apply sound.faithful.evolve rows (List.forall₂_same.mpr fun job _ => .refl job)
    unfold Database.KeysUnique
    rw [rows, List.map_append, List.nodup_append]
    refine ⟨sound.faithful.unique, List.nodup_singleton _, ?_⟩
    intro key keyMember other otherMember
    obtain ⟨taken, belongs, rfl⟩ := List.mem_map.mp keyMember
    rw [List.mem_singleton.mp otherMember]
    exact fresh taken belongs
  · intro other belongs
    rw [listed] at belongs
    rcases List.mem_append.mp belongs with old | new
    · exact sound.shaped other old
    · rw [List.mem_singleton.mp new]
      exact shaped
  · intro other belongs requestId working
    have before : ∃ request ∈ station.requests.rows, request.id = requestId := by
      rw [listed] at belongs
      rcases List.mem_append.mp belongs with old | new
      · exact sound.requested other old requestId working
      · rw [List.mem_singleton.mp new, works] at working
        exact sound.requested last member requestId working
    obtain ⟨request, requestMember, rfl⟩ := before
    have kept := repoint_requests station.requests (requestOfRow last) (some enqueued)
      requestMember
    rw [← requests] at kept
    exact kept
  · intro request requestMember
    rw [listed]
    change request ∈ office.requests.rows at requestMember
    rw [requests] at requestMember
    cases working : requestOfRow last with
    | none =>
        rw [working, repoint_none] at requestMember
        apply (sound.chained request requestMember).others
        intro new newMember
        rw [List.mem_singleton.mp newMember, works, working]
        exact (Option.some_ne_none _).symm
    | some requestId =>
        rw [working] at requestMember
        rcases mem_repoint requestMember with ⟨kept, other⟩ | ⟨before, belongs, same, rfl⟩
        · apply (sound.chained request kept).others
          intro new newMember
          rw [List.mem_singleton.mp newMember, works, working]
          exact fun equal => other (Option.some.inj equal).symm
        · have only : ∀ job ∈ chain station.rows before.id, job.id = before.jobId → job = last := by
            intro job belongsJob jobId
            apply Table.eq_of_key (mem_chain.mp belongsJob).1 member
            exact jobId.trans (final before belongs (by rw [working, same])).symm
          rw [repointed, id]
          apply (sound.chained before belongs).extend
          · rw [works, working, same]
          · intro job belongsJob jobId
            rw [only job belongsJob jobId]
            exact done
          · intro job belongsJob jobId
            rw [only job belongsJob jobId]
            exact further
          · exact untold
          · exact newId
  · intro other belongs plan ownerId retrievalJobId payload
    rw [listed] at belongs ⊢
    rcases List.mem_append.mp belongs with old | new
    · obtain ⟨retrieval, known, holds⟩ := sound.retrieved other old _ _ _ payload
      exact ⟨retrieval, List.mem_append_left _ known, holds⟩
    · rw [List.mem_singleton.mp new] at payload
      exact ⟨last, List.mem_append_left _ member, (retrieved _ _ _ payload).symm, done⟩
  · intro peek peekMember
    obtain ⟨other, belongs, same⟩ := sound.peeked peek peekMember
    refine ⟨other, ?_, same⟩
    rw [listed]
    exact List.mem_append_left _ belongs
  · intro other belongs working told
    rw [listed] at belongs
    rcases List.mem_append.mp belongs with old | new
    · exact sound.alone other old working told
    · rw [List.mem_singleton.mp new, untold] at told
      exact absurd told not_told_none

omit [EmptyCollection δ] [EmptyCollection σ] in
theorem publishedRow_holder {row : Job (EvidencePayload δ) σ} {lease : Lease}
    (holds : active lease clock row = true) : (publishedRow lease clock row).state = .published := by
  rw [publishedRow, if_pos holds]
  rfl

omit [EmptyCollection δ] [EmptyCollection σ] in
theorem Station.Sound.running_last (sound : station.Sound digests)
    {row : Job (EvidencePayload δ) σ} (member : row ∈ station.rows) (running : row.state = .running)
    {request : Request} (belongs : request ∈ station.requests.rows)
    (works : requestOfRow row = some request.id) : row.id = request.jobId := by
  apply (sound.chained request belongs).is_last (mem_chain.mpr ⟨member, works⟩)
  rw [running]
  exact fun absurd => by cases absurd

omit [EmptyCollection δ] [EmptyCollection σ] in
theorem Station.Sound.running_top (sound : station.Sound digests)
    {row other : Job (EvidencePayload δ) σ} (member : row ∈ station.rows)
    (running : row.state = .running) (listed : other ∈ station.rows) {requestId : Uuid}
    (works : requestOfRow row = some requestId) (working : requestOfRow other = some requestId) :
    rank other.payload ≤ rank row.payload := by
  obtain ⟨request, belongs, rfl⟩ := sound.requested row member requestId works
  exact (sound.chained request belongs).top other (mem_chain.mpr ⟨listed, working⟩) row
    (mem_chain.mpr ⟨member, works⟩) (sound.running_last member running belongs works)

omit [EmptyCollection δ] [EmptyCollection σ] in
theorem Station.Sound.successor_free (apart : digests.Apart) (sound : station.Sound digests)
    {row existing : Job (EvidencePayload δ) σ} {new : NewJob (EvidencePayload δ)}
    (member : row ∈ station.rows) (running : row.state = .running)
    (listed : existing ∈ station.rows) (follows : Follows digests job new)
    (id : row.id = job.lease.jobId) (rowKey : row.key = job.key)
    (rowPayload : row.payload = job.payload) {requestId : Uuid}
    (works : requestOfRow row = some requestId) : existing.key ≠ new.key := by
  intro same
  have shaped := sound.shaped existing listed
  have request : requestOf new.key.stage new.payload = some requestId := by
    rw [follows.request, ← rowKey, ← rowPayload]
    exact works
  have further : rank row.payload < rank new.payload := by
    rw [rowPayload]
    exact follows.further
  have top : requestOfRow existing = some requestId → rank existing.payload < rank new.payload :=
    fun working => (sound.running_top member running listed works working).trans_lt further
  rw [same] at shaped
  have newShaped := follows.shaped
  match payload : new.payload, newShaped with
  | .reanalysis plan ownerId, newShaped =>
      rw [newShaped.1] at shaped
      obtain ⟨other, otherOwner, existingPayload, requests, polls⟩ := shaped_reanalysis apart shaped
      have stage : new.key.stage = reanalysisStage := by
        rw [newShaped.1]
        rfl
      rw [payload, requestOf, if_pos stage, Option.some.injEq] at request
      have less := top (by
        rw [requestOfRow, existingPayload, same, requestOf, if_pos stage, requests, request])
      rw [existingPayload, payload, rank, rank, polls] at less
      exact lt_irrefl _ less
  | .stage plan ownerId none, newShaped =>
      rw [show new.key = retrievalKey digests plan from newShaped] at shaped
      obtain ⟨other, otherOwner, existingPayload, requests⟩ := shaped_retrieval apart shaped
      have stage : new.key.stage ≠ reanalysisStage := by
        rw [show new.key = retrievalKey digests plan from newShaped]
        exact show retrievalStage ≠ reanalysisStage by decide
      rw [payload, requestOf, if_neg stage] at request
      have less := top (by
        rw [requestOfRow, existingPayload, same, requestOf, if_neg stage, requests, request])
      rw [existingPayload, payload, rank, rank] at less
      exact lt_irrefl _ less
  | .stage plan ownerId (some retrievalJobId), newShaped =>
      rw [show new.key = assessmentKey digests retrievalJobId from newShaped] at shaped
      obtain ⟨other, otherOwner, existingPayload⟩ := shaped_assessment apart shaped
      obtain ⟨retrieval, known, retrievalId, published⟩ :=
        sound.retrieved existing listed _ _ _ existingPayload
      have equal : retrieval = row := by
        apply Table.eq_of_key known member
        exact retrievalId.trans ((follows.retrieved _ _ _ payload).trans id.symm)
      rw [equal, running] at published
      cases published
  | .other document, newShaped =>
      rw [payload, requestOf] at request
      cases request

omit [EmptyCollection δ] in
theorem Station.Sound.publishing (apart : digests.Apart) (sound : station.Sound digests)
    (handed : job ∈ station.workers.claims) (returned : returns job result = true)
    (publishing : Publishing digests station.office job result jobId clock office) :
    station.Progress digests (station.withOffice office) := by
  have holding : ∃ row ∈ station.rows, active job.lease clock row = true := by
    cases publishing with
    | alone holder _ => exact holder
    | successor holder => exact holder
    | reused holder => exact holder
  obtain ⟨row, member, holds, id, key, payload⟩ := sound.holder handed holding
  have running := (active_running holds).2.1
  have working : requestOfRow row = requestOf job.key.stage job.payload := by
    rw [requestOfRow, key, payload]
  have shaped : Shaped digests job.key job.payload := by
    rw [← key, ← payload]
    exact sound.shaped row member
  have follows : ∀ {new}, (plannedJob digests job result jobId = some new ∨
      followUp digests job result jobId = some new) → Follows digests job new := by
    rintro new (plan | follow)
    · exact planned_follows shaped returned plan
    · exact followUp_follows shaped returned follow
  have alone : ∀ {queue : Database (EvidencePayload δ) σ Result},
      queue.jobs.rows = (station.finished job.lease clock).rows →
      station.Progress digests (station.withOffice { station.office with queue }) := by
    intro queue rows
    have moved := finished_steady station job.lease clock
    rw [← rows] at moved
    exact sound.steady (faithful_kept sound.faithful (forall₂_kept moved))
      (fun _ handed => handed) moved
  cases publishing with
  | alone _ rows => exact alone rows
  | @successor new next queue _ origin fresh rows same queued untold =>
      have steady := steady_published job.lease clock row
      have after := sound.finished job.lease clock
      have listed : publishedRow job.lease clock row ∈ (station.finished job.lease clock).rows :=
        List.mem_map_of_mem member
      have request := requestOfRow_same steady.toSameJob
      have named : (⟨new.id, true⟩ : Enqueued).jobId = next.id := same.id.symm
      apply after.trans
      refine after.sound.succeed listed (publishedRow_holder holds) ?_ ?_ ?_ ?_ ?_ untold ?_ named rows ?_
      · intro request belongs works
        rw [steady.id]
        rw [requestOfRow_same steady.toSameJob] at works
        exact sound.running_last member running belongs works
      · rw [same.key, same.payload]
        exact (follows origin).shaped
      · rw [request, requestOfRow_same same, working]
        exact (follows origin).request
      · rw [steady.payload, payload, same.payload]
        exact (follows origin).further
      · intro plan ownerId retrievalJobId stage
        rw [same.payload] at stage
        rw [steady.id, id]
        exact (follows origin).retrieved plan ownerId retrievalJobId stage
      · intro other belongs
        rw [finished_rows] at belongs
        obtain ⟨before, known, rfl⟩ := List.mem_map.mp belongs
        rw [(publishedRow_lasting job.lease clock before).key, same.key]
        exact fresh before known
      · change repoint _ _ _ = repoint _ (requestOfRow (publishedRow job.lease clock row)) _
        rw [request, working]
        rfl
  | @reused new existing queue _ origin listed taken rows =>
      cases works : requestOf job.key.stage job.payload with
      | none =>
          rw [repoint_none]
          exact alone rows
      | some requestId =>
          exact absurd taken (sound.successor_free apart member running listed (follows origin) id
            key payload (working.trans works))

end Publications

section Events

variable [EmptyCollection σ] {station : Station δ σ} {clock : Clock} {office : Office δ σ}

theorem publishEvidenceStage_error {job : ClaimedJob (EvidencePayload δ) σ} {result : Result}
    {jobId : JobId} {error : PublishError}
    (refused : (publishEvidenceStage digests job result jobId clock office).1 = .error error) :
    (publishEvidenceStage digests job result jobId clock office).2 = office := by
  unfold publishEvidenceStage at refused ⊢
  split
  · rfl
  · rename_i plan planning planned
    simp only [planned] at refused
    split
    · rfl
    · rename_i answer middle publishes
      simp only [publishes] at refused
      split
      · rfl
      · rename_i followed next follows
        simp only [follows] at refused
        cases refused

theorem Station.Sound.enqueues {workers : Workers (EvidencePayload δ) σ Result}
    {news : List (Unrequested digests δ)} {added : List (Job (EvidencePayload δ) σ)}
    (sound : station.Sound digests) (faithful : workers.Faithful)
    (claims : ∀ job ∈ station.workers.claims, job ∈ workers.claims)
    (rows : workers.queue.jobs.rows = station.rows ++ added)
    (origin : ∀ row ∈ added, ∃ new ∈ news.map Unrequested.new, row = newRow new clock) :
    station.Progress digests { station with workers } := by
  have known : ∀ row ∈ added, ∃ new : Unrequested digests δ, row = newRow new.new clock := by
    intro row member
    obtain ⟨_, listed, same⟩ := origin row member
    obtain ⟨new, -, rfl⟩ := List.mem_map.mp listed
    exact ⟨new, same⟩
  apply sound.add faithful claims rows
  · intro row member
    obtain ⟨new, rfl⟩ := known row member
    exact new.shaped
  · intro row member
    obtain ⟨new, rfl⟩ := known row member
    exact new.unrequested
  · intro row member
    obtain ⟨new, rfl⟩ := known row member
    rfl
  · intro row member plan ownerId retrievalJobId payload
    obtain ⟨new, rfl⟩ := known row member
    exact absurd payload (new.unassessed plan ownerId retrievalJobId)

theorem Station.Sound.publish (apart : digests.Apart) (sound : station.Sound digests)
    {job : ClaimedJob (EvidencePayload δ) σ} (handed : job ∈ station.workers.claims)
    (result : Result) (enqueues : List (Unrequested digests δ)) (jobId : JobId) (clock : Clock) :
    station.Progress digests
      (station.withOffice (station.publish digests job result enqueues jobId clock)) := by
  unfold Station.publish
  split
  · split
    · rename_i returned
      cases answered : (publishEvidenceStage digests job result jobId clock station.office).1 with
      | error refused =>
          rw [publishEvidenceStage_error answered]
          exact sound.idle
      | ok answer =>
          apply sound.publishing apart handed returned
          exact publishEvidenceStage_ok (Prod.ext answered rfl)
    · exact sound.idle
  · cases answered : (Jobs.publish station.workers.queue job.lease result []
        ⟨enqueues.map (·.new), false⟩ clock).1 with
    | error refused =>
        rw [publish_refused answered]
        exact sound.idle
    | ok answer =>
        have publishes := publish_rows (Prod.ext answered rfl)
        obtain ⟨added, rows, origin⟩ := publishes.rows
        have finished := sound.finished job.lease clock
        apply finished.trans
        exact finished.sound.enqueues (sound.faithful.publishes publishes) (fun _ => id) rows origin

theorem Station.Sound.enqueue (sound : station.Sound digests) (new : Unrequested digests δ)
    {answer : Enqueued} {queue : Database (EvidencePayload δ) σ Result}
    (accepted : Jobs.enqueue station.workers.queue new.new clock = .ok (answer, queue)) :
    station.Progress digests (station.withOffice { station.office with queue }) := by
  have enqueued := enqueue_enqueues accepted
  obtain ⟨added, rows, origin⟩ := enqueued.rows
  have known : ∀ row ∈ added, ∃ other ∈ [new].map Unrequested.new, row = newRow other clock :=
    origin
  exact sound.enqueues (sound.faithful.enqueues enqueued) (fun _ => id) rows known

omit [EmptyCollection σ] in
theorem Station.Sound.begin {requests : Table Request} {queue : Database (EvidencePayload δ) σ Result}
    {request : Request} {row : Job (EvidencePayload δ) σ} (sound : station.Sound digests)
    (faithful : Workers.Faithful { station.workers with queue })
    (rows : queue.jobs.rows = station.rows ++ [row])
    (requestRows : requests.rows = station.requests.rows ++ [request])
    (unworked : ∀ other ∈ station.rows, requestOfRow other ≠ some request.id)
    (shaped : Shaped digests row.key row.payload)
    (works : requestOfRow row = some request.id) (id : row.id = request.jobId)
    (untold : row.cancelOutcome = none)
    (unassessed : ∀ plan ownerId retrievalJobId,
      row.payload ≠ .stage plan ownerId (some retrievalJobId)) :
    station.Progress digests (station.withOffice { requests, queue }) := by
  have listed : (station.withOffice { requests, queue }).rows = station.rows ++ [row] := rows
  have distinct : ∀ other ∈ station.requests.rows, requestOfRow row ≠ some other.id := by
    intro other member same
    have unique := requests.unique
    rw [requestRows, List.map_append, List.nodup_append] at unique
    apply unique.2.2 other.id (List.mem_map_of_mem member) request.id (by simp [Keyed.key])
    rw [works] at same
    exact (Option.some.inj same).symm
  have others : ∀ other ∈ station.requests.rows, ∀ new ∈ [row],
      requestOfRow new ≠ some other.id := by
    intro other member new newMember
    rw [List.mem_singleton.mp newMember]
    exact distinct other member
  have kept : ∀ other ∈ station.requests.rows, other ∈ requests.rows := by
    intro other member
    rw [requestRows]
    exact List.mem_append_left _ member
  have stopped : ∀ other ids, station.Stopped other ids →
      (station.withOffice { requests, queue }).Stopped other ids := by
    intro other ids stopped
    refine ⟨kept other stopped.listed, ?_⟩
    rw [listed]
    exact stopped.halted.others (others other stopped.listed)
  have rowsKept : ∀ other ∈ station.rows,
      ∃ later ∈ (station.withOffice { requests, queue }).rows, Kept other later := by
    intro other member
    refine ⟨other, ?_, .refl other⟩
    rw [listed]
    exact List.mem_append_left _ member
  refine ⟨?_, stopped, rowsKept, fun _ handed => handed⟩
  constructor
  · exact faithful
  · intro other member
    rw [listed] at member
    rcases List.mem_append.mp member with old | new
    · exact sound.shaped other old
    · rw [List.mem_singleton.mp new]
      exact shaped
  · intro other member requestId working
    rw [listed] at member
    rcases List.mem_append.mp member with old | new
    · obtain ⟨before, belongs, same⟩ := sound.requested other old requestId working
      exact ⟨before, kept before belongs, same⟩
    · rw [List.mem_singleton.mp new, works] at working
      refine ⟨request, ?_, Option.some.inj working⟩
      change request ∈ requests.rows
      rw [requestRows]
      exact List.mem_append_right _ (List.mem_singleton_self _)
  · intro other member
    change other ∈ requests.rows at member
    rw [requestRows] at member
    rw [listed]
    rcases List.mem_append.mp member with old | new
    · exact (sound.chained other old).others (others other old)
    · rw [List.mem_singleton.mp new]
      exact .first unworked works id untold
  · intro other member plan ownerId retrievalJobId payload
    rw [listed] at member ⊢
    rcases List.mem_append.mp member with old | new
    · obtain ⟨retrieval, known, holds⟩ := sound.retrieved other old _ _ _ payload
      exact ⟨retrieval, List.mem_append_left _ known, holds⟩
    · rw [List.mem_singleton.mp new] at payload
      exact absurd payload (unassessed plan ownerId retrievalJobId)
  · intro peek member
    obtain ⟨other, belongs, same⟩ := sound.peeked peek member
    refine ⟨other, ?_, same⟩
    rw [listed]
    exact List.mem_append_left _ belongs
  · intro other member working told
    rw [listed] at member
    rcases List.mem_append.mp member with old | new
    · exact sound.alone other old working told
    · rw [List.mem_singleton.mp new, untold] at told
      exact absurd told not_told_none

theorem Station.Sound.request (apart : digests.Apart) (sound : station.Sound digests)
    (payload : ReanalysisPayload) (principal : PrincipalId) (jobId : JobId) (clock : Clock) :
    station.Progress digests (station.withOffice
      (requestReanalysis digests jobId clock station.office payload principal)) := by
  simp only [requestReanalysis]
  split
  · exact sound.idle
  · rename_i enqueued queue accepted
    split
    · exact sound.idle
    · rename_i requests inserted
      have absent := Table.find?_eq_none.mp (Table.insert?_fresh inserted)
      have requestRows := Table.rows_insert? inserted
      have unworked : ∀ row ∈ station.rows, requestOfRow row ≠ some payload.requestId := by
        intro row member works
        obtain ⟨request, listed, same⟩ := sound.requested row member _ works
        exact absent request listed same
      rcases enqueue_rows accepted with ⟨existing, member, key, -, -⟩ | ⟨fresh, answers, rows⟩
      · have shaped := sound.shaped existing member
        rw [key] at shaped
        obtain ⟨plan, ownerId, existingPayload, same, -⟩ := shaped_reanalysis apart shaped
        apply absurd _ (unworked existing member)
        rw [requestOfRow, existingPayload, key, ← same]
        exact requestOf_reanalysis _ _ _ _
      · rw [answers] at requestRows
        have faithful := sound.faithful.enqueues (enqueue_enqueues accepted)
        refine sound.begin faithful rows requestRows unworked ?_ ?_ rfl rfl ?_
        · exact ⟨rfl, Nat.zero_le _⟩
        · exact requestOf_reanalysis _ _ _ _
        · intro plan ownerId retrievalJobId same
          cases same

end Events

section Cancels

variable [EmptyCollection δ] [EmptyCollection σ] {station : Station δ σ} {clock : Clock}
  {queue : Database (EvidencePayload δ) σ Result} {jobId : JobId}
  {row peek : Job (EvidencePayload δ) σ} {request : Request}

omit [EmptyCollection δ] [EmptyCollection σ] in
theorem requestCancel_withdrawn (told : Told (some (requestCancel queue jobId clock).1))
    (member : row ∈ (requestCancel queue jobId clock).2.jobs.rows) (id : row.id = jobId) :
    Withdrawn row := by
  unfold requestCancel at told member
  split at told
  · rcases told with effective | requested
    · cases effective
    · cases requested
  · rename_i job found
    simp only [found] at member
    split at told
    · rename_i queued
      rw [if_pos queued] at member
      obtain ⟨before, belongs, rfl⟩ := List.mem_map.mp member
      have same : before.id = jobId := by
        revert id
        split <;> exact fun id => id
      rw [if_pos (beq_iff_eq.mpr same)]
      exact ⟨by simp [cancelled, cleared], Or.inl rfl⟩
    · rename_i waiting
      split at told
      · rename_i leased
        rw [if_neg waiting, if_pos leased] at member
        split at member
        · rename_i flagged
          have equal : row = job := by
            apply Table.eq_of_key member (Table.mem_of_find? found)
            exact id.trans (Table.find?_key found).symm
          rw [equal]
          exact ⟨by rcases isLeased_iff.mp leased with state | state <;> simp [state],
            Or.inl flagged⟩
        · obtain ⟨before, belongs, rfl⟩ := List.mem_map.mp member
          have same : before.id = jobId := by
            revert id
            split <;> exact fun id => id
          have equal : before = job := by
            apply Table.eq_of_key belongs (Table.mem_of_find? found)
            exact same.trans (Table.find?_key found).symm
          rw [if_pos (beq_iff_eq.mpr same), equal]
          refine ⟨?_, Or.inl rfl⟩
          rcases isLeased_iff.mp leased with state | state <;> simp [flagged, state]
      · rcases told with effective | requested
        · cases effective
        · cases requested

theorem cancelRow_moved (queue : Database (EvidencePayload δ) σ Result)
    (current : Option JobId) (row : Job (EvidencePayload δ) σ) (clock : Clock) :
    List.Forall₂ Works queue.jobs.rows (cancelRow queue current row clock).2.jobs.rows := by
  have idle : List.Forall₂ Works queue.jobs.rows queue.jobs.rows :=
    List.forall₂_same.mpr fun job _ => .refl job
  unfold cancelRow
  split
  · exact idle
  · split
    · split
      · split
        · exact idle
        · exact requestCancel_moved ..
      · exact requestCancel_moved ..
    · exact requestCancel_moved ..

omit [EmptyCollection δ] [EmptyCollection σ] in
theorem lockRequest_eq (same : SameJob peek row)
    (listed : request ∈ station.requests.rows) (works : requestOfRow row = some request.id) :
    lockRequest station.requests peek = none ∨
      lockRequest station.requests peek = some request.jobId := by
  rw [requestOfRow_same same, requestOfRow] at works
  have found : station.requests.find? request.id = some request := Table.find?_of_mem listed
  simp only [lockRequest, works, found, Option.filter_some]
  split
  · right
    rfl
  · left
    rfl

/-- Accepting to cancel any job of a request stops the last one. -/
theorem Station.Sound.cancelRow_told (sound : station.Sound digests) (same : SameJob peek row)
    (member : row ∈ station.rows) (clock : Clock) (listed : request ∈ station.requests.rows)
    (works : requestOfRow row = some request.id)
    (told : Told (some (cancelRow station.workers.queue
      (lockRequest station.requests peek) row clock).1)) :
    ∀ last ∈ (cancelRow station.workers.queue
      (lockRequest station.requests peek) row clock).2.jobs.rows, last.id = request.jobId →
      Withdrawn last := by
  intro last lastMember id
  have chained := sound.chained request listed
  have self : ∀ {later}, later ∈ (requestCancel station.workers.queue row.id clock).2.jobs.rows →
      later.id = request.jobId → Told (some (requestCancel station.workers.queue row.id clock).1) →
      Withdrawn later := by
    intro later laterMember laterId accepted
    obtain ⟨after, afterMember, moved⟩ := mem_left (requestCancel_moved ..) member
    have withdrawn := requestCancel_withdrawn accepted afterMember moved.id
    have final : row.id = request.jobId :=
      chained.is_last (mem_chain.mpr ⟨member, works⟩) fun published =>
        withdrawn.1 (moved.published.mpr published)
    exact requestCancel_withdrawn accepted laterMember (laterId.trans final.symm)
  unfold cancelRow at told lastMember
  split at told
  · rename_i cancelled
    rw [if_pos cancelled] at lastMember
    have final : row.id = request.jobId := by
      apply chained.is_last (mem_chain.mpr ⟨member, works⟩)
      rw [cancelled]
      exact fun absurd => by cases absurd
    have equal : last = row := Table.eq_of_key lastMember member (id.trans final.symm)
    rw [equal]
    exact ⟨by simp [cancelled], Or.inr (by rw [cancelled]; rfl)⟩
  · rename_i live
    rw [if_neg live] at lastMember
    rcases lockRequest_eq same listed works with none | some
    · simp only [none] at told lastMember
      exact self lastMember id told
    · simp only [some] at told lastMember
      split at told
      · rename_i handed
        rw [if_pos handed] at lastMember
        split at told
        · rename_i cancelled
          rw [if_pos cancelled] at lastMember
          have found : station.workers.queue.jobs.find? last.id = Option.some last :=
            Table.find?_of_mem lastMember
          rw [← id, found, Option.any_some, beq_iff_eq] at cancelled
          exact ⟨by simp [cancelled], Or.inr (by rw [cancelled]; rfl)⟩
        · rename_i ongoing
          rw [if_neg ongoing] at lastMember
          exact requestCancel_withdrawn told lastMember id
      · rename_i own
        rw [if_neg own] at lastMember
        exact self lastMember id told

omit [EmptyCollection δ] [EmptyCollection σ] in
theorem Station.cancelRow_alone (same : SameJob peek row) (member : row ∈ station.rows)
    (works : requestOfRow row = none)
    (told : Told (some (cancelRow station.workers.queue
      (lockRequest station.requests peek) row clock).1)) :
    ∀ later ∈ (cancelRow station.workers.queue
      (lockRequest station.requests peek) row clock).2.jobs.rows, later.id = row.id →
      Withdrawn later := by
  intro later laterMember id
  have unlocked : lockRequest station.requests peek = none := by
    rw [requestOfRow_same same, requestOfRow] at works
    simp only [lockRequest, works]
  rw [unlocked] at told laterMember
  unfold cancelRow at told laterMember
  split at told
  · rename_i cancelled
    rw [if_pos cancelled] at laterMember
    have equal : later = row := Table.eq_of_key laterMember member id
    rw [equal]
    exact ⟨by simp [cancelled], Or.inr (by rw [cancelled]; rfl)⟩
  · rename_i live
    rw [if_neg live] at laterMember
    exact requestCancel_withdrawn told laterMember id

omit [EmptyCollection δ] [EmptyCollection σ] in
theorem receipted_kept (outcome : CancelOutcome) {before : Job (EvidencePayload δ) σ}
    (works : Works before row) :
    Kept before (if row.id == jobId then receipted outcome row else row) := by
  have steady := (steady_works works).toKept
  split
  · exact ⟨steady.toLasting.trans (lasting_of_kept ⟨rfl, rfl, rfl, rfl⟩ rfl rfl rfl),
      steady.published, steady.withdrawn⟩
  · exact steady

omit [EmptyCollection δ] [EmptyCollection σ] in
theorem withdrawn_receipted {outcome : CancelOutcome} (withdrawn : Withdrawn row) :
    Withdrawn (if row.id == jobId then receipted outcome row else row) := by
  split <;> exact withdrawn

omit [EmptyCollection δ] [EmptyCollection σ] in
theorem Station.Sound.receipt {outcome : CancelOutcome} (sound : station.Sound digests)
    (told : Told (some outcome) → ∀ request ∈ station.requests.rows,
      ∀ job ∈ chain station.rows request.id, job.id = jobId →
      ∀ last ∈ chain station.rows request.id, last.id = request.jobId → Withdrawn last)
    (alone : Told (some outcome) → ∀ row ∈ station.rows, row.id = jobId →
      requestOfRow row = none → Withdrawn row)
    (rows : queue.jobs.rows =
      station.rows.map fun job => if job.id == jobId then receipted outcome job else job) :
    station.Progress digests (station.withOffice { station.office with queue }) := by
  have kept : List.Forall₂ Kept station.rows queue.jobs.rows := by
    rw [rows, List.forall₂_map_right_iff]
    exact List.forall₂_same.mpr fun job _ => receipted_kept outcome (.refl job)
  have faithful := faithful_kept sound.faithful kept
  have origin : ∀ {job}, job ∈ queue.jobs.rows → ∃ before ∈ station.rows,
      requestOfRow job = requestOfRow before ∧
        job = if before.id == jobId then receipted outcome before else before := by
    intro job member
    rw [rows] at member
    obtain ⟨before, belongs, rfl⟩ := List.mem_map.mp member
    exact ⟨before, belongs,
      requestOfRow_same (receipted_kept outcome (.refl before)).toSameJob, rfl⟩
  apply sound.kept faithful (fun _ handed => handed) kept
  · intro request listed
    have chained := sound.chained request listed
    apply chained.settle kept
    intro job jobMember jobTold last lastMember id
    rw [mem_chain] at jobMember lastMember
    obtain ⟨before, belongs, works, rfl⟩ := origin jobMember.1
    obtain ⟨final, finalBelongs, finalWorks, rfl⟩ := origin lastMember.1
    have beforeMember := mem_chain.mpr ⟨belongs, works.symm.trans jobMember.2⟩
    have finalMember := mem_chain.mpr ⟨finalBelongs, finalWorks.symm.trans lastMember.2⟩
    rw [(receipted_kept outcome (.refl final)).id] at id
    apply withdrawn_receipted
    by_cases own : before.id = jobId
    · rw [if_pos (beq_iff_eq.mpr own)] at jobTold
      exact told jobTold request listed before beforeMember own final finalMember id
    · rw [if_neg (by simpa using own)] at jobTold
      exact chained.told before beforeMember jobTold final finalMember id
  · intro job member working jobTold
    obtain ⟨before, belongs, works, rfl⟩ := origin member
    rw [works] at working
    apply withdrawn_receipted
    by_cases own : before.id = jobId
    · rw [if_pos (beq_iff_eq.mpr own)] at jobTold
      exact alone jobTold before belongs own working
    · rw [if_neg (by simpa using own)] at jobTold
      exact sound.alone before belongs working jobTold

/-- Cancelling a job keeps the invariant; where the answer is relied on, the chain of the job's
request is at an end. -/
theorem Station.Sound.cancel (sound : station.Sound digests) (peeked : peek ∈ station.peeks)
    {principal : PrincipalId} {outcome : CancelOutcome} {office : Office δ σ}
    (answered : cancelOwnedJob station.office peek principal clock = some (outcome, office)) :
    station.Progress digests (station.withOffice office) ∧
      (Told (some outcome) → ∀ request ∈ station.requests.rows,
        requestOfRow peek = some request.id →
        (station.withOffice office).Stopped request
          ((chain station.rows request.id).map Job.id)) := by
  obtain ⟨row, member, same⟩ := sound.peeked peek peeked
  simp only [cancelOwnedJob, Option.map_eq_some_iff] at answered
  obtain ⟨⟨answer, queue⟩, loading, answered⟩ := answered
  obtain ⟨found, loaded, answers⟩ := cancelLoaded_cases loading
  have known := (loadOwned_some loaded).1
  obtain rfl : found = row := by
    apply Table.eq_of_key (Table.mem_of_find? known) member
    exact (Table.find?_key known).trans same.id.symm
  simp only [Prod.mk.injEq] at answered
  obtain ⟨rfl, rfl⟩ := answered
  rcases answers with ⟨receipt, rfl⟩ | ⟨-, outcomes, queues⟩
  · refine ⟨sound.idle, ?_⟩
    intro told request listed works
    rw [← requestOfRow_same same] at works
    refine ⟨listed, rfl, ?_⟩
    intro last lastMember id
    exact (sound.chained request listed).told found (mem_chain.mpr ⟨member, works⟩)
      (receipt ▸ told) last lastMember id
  · have moved := cancelRow_moved station.office.queue
      (lockRequest station.office.requests peek) found clock
    have reached : ∀ request ∈ station.requests.rows, requestOfRow found = some request.id →
        Told (some (cancelRow station.office.queue (lockRequest station.office.requests peek)
          found clock).1) →
        ∀ last ∈ (cancelRow station.office.queue (lockRequest station.office.requests peek)
          found clock).2.jobs.rows, last.id = request.jobId → Withdrawn last :=
      fun request listed works => sound.cancelRow_told same member clock listed works
    have itself : requestOfRow found = none →
        Told (some (cancelRow station.office.queue (lockRequest station.office.requests peek)
          found clock).1) →
        ∀ later ∈ (cancelRow station.office.queue (lockRequest station.office.requests peek)
          found clock).2.jobs.rows, later.id = found.id → Withdrawn later :=
      fun works => Station.cancelRow_alone same member works
    generalize cancelRow station.office.queue (lockRequest station.office.requests peek) found
      clock = cancelled at outcomes queues moved reached itself
    obtain ⟨answer, queue⟩ := cancelled
    obtain rfl : _ = answer := outcomes
    subst queues
    have kept := List.Forall₂.imp (fun _ _ (works : Works _ _) => works.toSameJob) moved
    have middle := sound.works (faithful_kept sound.faithful
      (forall₂_kept (List.Forall₂.imp (fun _ _ => steady_works) moved)))
      (fun _ handed => handed) moved
    have told : Told (some answer) → ∀ request ∈ station.requests.rows,
        ∀ job ∈ chain queue.jobs.rows request.id, job.id = peek.id →
        ∀ last ∈ chain queue.jobs.rows request.id, last.id = request.jobId →
        Withdrawn last := by
      intro accepted request listed job jobMember jobId last lastMember id
      obtain ⟨before, belongs, works⟩ := mem_chain_right (fun works => works.toSameJob) moved jobMember
      have equal : before = found := by
        apply Table.eq_of_key (mem_chain.mp belongs).1 member
        exact works.id.symm.trans (jobId.trans same.id.symm)
      rw [equal] at belongs
      exact reached request listed (mem_chain.mp belongs).2 accepted last
        (mem_chain.mp lastMember).1 id
    have alone : Told (some answer) → ∀ job ∈ queue.jobs.rows, job.id = peek.id →
        requestOfRow job = none → Withdrawn job := by
      intro accepted job jobMember jobId works
      obtain ⟨before, belongs, moves⟩ := mem_right kept jobMember
      have equal : before = found := by
        apply Table.eq_of_key belongs member
        exact moves.id.symm.trans (jobId.trans same.id.symm)
      rw [requestOfRow_same moves, equal] at works
      exact itself works accepted job jobMember (jobId.trans same.id.symm)
    have after : Station.Progress digests (station.withOffice { station.office with queue })
        (station.withOffice { station.office with
          queue := { queue with
            jobs := queue.jobs.update (·.id == peek.id) (receipted answer)
              (receipted_id answer) } }) :=
      middle.sound.receipt told alone rfl
    refine ⟨middle.trans after, ?_⟩
    intro accepted request listed works
    have receipts : List.Forall₂ (fun before next => SameJob before next ∧
        (next.id = peek.id → next.cancelOutcome = some answer)) station.rows
        (queue.jobs.rows.map fun job =>
          if job.id == peek.id then receipted answer job else job) := by
      rw [List.forall₂_map_right_iff]
      apply List.Forall₂.imp _ kept
      intro before job moves
      refine ⟨moves.trans (receipted_kept answer (.refl job)).toSameJob, ?_⟩
      intro own
      rw [(receipted_kept answer (.refl job)).id] at own
      rw [if_pos (beq_iff_eq.mpr own)]
      rfl
    refine ⟨listed, ?_, ?_⟩
    · exact chain_ids (List.Forall₂.imp (fun _ _ receipt => And.left receipt) receipts)
    · obtain ⟨job, jobMember, sameJob, receipt⟩ := mem_left receipts member
      apply (after.sound.chained request listed).told job (mem_chain.mpr ⟨jobMember, ?_⟩)
      · rw [receipt (sameJob.id.trans same.id)]
        exact accepted
      · rw [requestOfRow_same sameJob, requestOfRow_same same]
        exact works

end Cancels

section Reachable

variable [EmptyCollection δ] [EmptyCollection σ] {station : Station δ σ}

omit [EmptyCollection δ] [EmptyCollection σ] in
theorem Station.Sound.peek (sound : station.Sound digests) {peek : Job (EvidencePayload δ) σ}
    (member : peek ∈ station.rows) :
    station.Progress digests { station with peeks := station.peeks ++ [peek] } where
  stopped request ids stopped := ⟨stopped.listed, stopped.halted⟩
  kept row member := ⟨row, member, .refl row⟩
  claims _ handed := handed
  sound := {
    alone := sound.alone
    faithful := sound.faithful
    shaped := sound.shaped
    requested := sound.requested
    chained := sound.chained
    retrieved := sound.retrieved
    peeked := by
      intro other listed
      rcases List.mem_append.mp listed with old | new
      · exact sound.peeked other old
      · rw [List.mem_singleton.mp new]
        exact ⟨peek, member, .refl peek⟩ }

/-- Every transaction keeps the invariant, and every chain that is at an end. -/
theorem Station.Sound.step (apart : digests.Apart) (sound : station.Sound digests)
    (event : Event digests δ σ) : station.Progress digests (station.step digests event) := by
  cases event with
  | requested payload principal jobId clock => exact sound.request apart payload principal jobId clock
  | published index result enqueues jobId clock =>
      simp only [Station.step]
      split
      · exact sound.idle
      · rename_i job handed
        exact sound.publish apart (List.mem_of_getElem? handed) result enqueues jobId clock
  | enqueued new clock =>
      simp only [Station.step]
      split
      · exact sound.idle
      · rename_i answer queue accepted
        exact sound.enqueue new accepted
  | peeked jobId principal =>
      simp only [Station.step]
      split
      · exact sound.idle
      · rename_i peek loaded
        exact sound.peek (Table.mem_of_find? (loadOwned_some loaded).1)
  | cancelled index principal clock =>
      simp only [Station.step]
      split
      · exact sound.idle
      · rename_i peek read
        split
        · exact sound.idle
        · rename_i outcome office answered
          exact (sound.cancel (List.mem_of_getElem? read) answered).1
  | worked clock call =>
      exact sound.works (sound.faithful.work clock call)
        (station.workers.work_claims clock call) (station.workers.work_moved clock call)

theorem sound_run (apart : digests.Apart) (events : List (Event digests δ σ)) :
    (Station.run digests events).Sound digests :=
  exec_invariant (Station.Sound digests) (fun _ event sound => (sound.step apart event).sound)
    sound_start events

/-- A chain that is at an end stays as it is in every run. -/
theorem Station.Stopped.run (apart : digests.Apart) {request : Request} {ids : List JobId}
    (sound : station.Sound digests) (stopped : station.Stopped request ids)
    (events : List (Event digests δ σ)) :
    (exec (Station.step digests) station events).Stopped request ids := by
  have kept : (exec (Station.step digests) station events).Sound digests ∧
      (exec (Station.step digests) station events).Stopped request ids := by
    apply exec_invariant (fun current : Station δ σ =>
      current.Sound digests ∧ current.Stopped request ids)
    · intro current event holds
      have progress := holds.1.step apart event
      exact ⟨progress.sound, progress.stopped request ids holds.2⟩
    · exact ⟨sound, stopped⟩
  exact kept.2

/-- The request names the last job of its chain, which alone may still be worked on. -/
structure Linked (rows : List (Job (EvidencePayload δ) σ)) (request : Request) : Prop where
  last : ∃ ids, (chain rows request.id).map Job.id = ids ++ [request.jobId]
  earlier : ∀ job ∈ chain rows request.id, job.id ≠ request.jobId → job.state = .published
  ongoing : (chain rows request.id).countP (fun job => !job.state.isTerminal) ≤ 1

structure Station.Lawful (digests : KeyDigests) (station : Station δ σ) : Prop where
  linked : ∀ request ∈ station.requests.rows, Linked station.rows request
  /-- A cancellation of any job of a request, with what it read at any earlier time. -/
  ended : ∀ peek ∈ station.peeks, ∀ principal clock outcome office,
    cancelOwnedJob station.office peek principal clock = some (outcome, office) →
    outcome = .effective ∨ outcome = .requested →
    ∀ request ∈ station.requests.rows, requestOfRow peek = some request.id →
    ∀ events, let later := exec (Station.step digests) (station.withOffice office) events
      request ∈ later.requests.rows ∧
      (chain later.rows request.id).map Job.id = (chain station.rows request.id).map Job.id ∧
      ∀ job ∈ chain later.rows request.id, job.id = request.jobId → job.state ≠ .published

omit [EmptyCollection δ] [EmptyCollection σ] in
theorem Station.Sound.linked (sound : station.Sound digests) {request : Request}
    (listed : request ∈ station.requests.rows) : Linked station.rows request where
  last := (sound.chained request listed).ordered
  earlier := (sound.chained request listed).earlier
  ongoing := by
    have one : ∀ job ∈ chain station.rows request.id, (!job.state.isTerminal) = true →
        (job.id == request.jobId) = true := by
      intro job member ongoing
      rw [beq_iff_eq]
      apply (sound.chained request listed).is_last member
      intro published
      rw [published] at ongoing
      cases ongoing
    calc (chain station.rows request.id).countP (fun job => !job.state.isTerminal)
      _ ≤ (chain station.rows request.id).countP (·.id == request.jobId) :=
          List.countP_mono_left one
      _ ≤ station.rows.countP (·.id == request.jobId) := List.filter_sublist.countP_le
      _ ≤ 1 := by
          rw [List.countP_eq_length_filter]
          exact station.workers.queue.jobs.length_filter_key request.jobId

/-- Cancelling a reanalysis receipt, or any job of its request, reaches the live job. -/
theorem receipt_reaches (apart : digests.Apart) (events : List (Event digests δ σ)) :
    (Station.run digests events).Lawful digests := by
  have sound := sound_run apart events
  refine ⟨fun request listed => sound.linked listed, ?_⟩
  intro peek peeked principal clock outcome office answered accepted request listed works later
  obtain ⟨progress, stops⟩ := sound.cancel peeked answered
  have told : Told (some outcome) := accepted.imp (congrArg some) (congrArg some)
  have stopped := (stops told request listed works).run apart progress.sound later
  refine ⟨stopped.listed, stopped.halted.ids, ?_⟩
  intro job member id
  exact (stopped.halted.withdrawn job member id).1

def spelledDigests : KeyDigests where
  receipt requestId := String.ofList ('r' :: requestId.toList)
  poll requestId poll := String.ofList ('p' :: (List.replicate poll 'x' ++ '_' :: requestId.toList))
  retrieval payload := String.ofList
    (payload.reanalysisRequestId.elim [] fun requestId => 'r' :: requestId.toList)
  assessment jobId := String.ofList (List.replicate jobId 'x')

theorem spelledDigests_apart : spelledDigests.Apart where
  receipt same := by
    have spelt := List.cons.inj (String.ofList_injective same)
    exact String.toList_inj.mp spelt.2
  poll {first second poll other} same := by
    have spelt := (List.cons.inj (String.ofList_injective same)).2
    have count : poll = other := by
      have prefixes := congrArg (List.takeWhile (· == 'x')) spelt
      simp only [List.takeWhile_append, List.takeWhile_replicate] at prefixes
      have lengths := congrArg List.length prefixes
      simpa using lengths
    rw [count] at spelt
    have rest := List.cons.inj (List.append_cancel_left spelt)
    exact ⟨String.toList_inj.mp rest.2, count⟩
  receiptPoll first second poll same := by
    have spelt := List.cons.inj (String.ofList_injective same)
    exact absurd spelt.1 (by decide)
  retrieval {first second} same := by
    have spelt := String.ofList_injective same
    cases one : first.reanalysisRequestId with
    | none =>
        cases two : second.reanalysisRequestId with
        | none => rfl
        | some other => simp [one, two] at spelt
    | some requestId =>
        cases two : second.reanalysisRequestId with
        | none => simp [one, two] at spelt
        | some other =>
            simp only [one, two, Option.elim_some, List.cons.injEq, true_and] at spelt
            rw [String.toList_inj.mp spelt]
  assessment {first second} same := by
    have spelt := congrArg List.length (String.ofList_injective same)
    simpa using spelt

def exampleUpload : Unrequested spelledDigests (List Nat) where
  new := ⟨3, ⟨1, "media_validation", ""⟩, ∅, some 7⟩
  shaped := show evidenceStages.contains "media_validation" = false by decide
  unrequested := rfl
  unassessed _ _ _ := nofun

def exampleEvents : List (Event spelledDigests (List Nat) (List Nat)) :=
  let payload : ReanalysisPayload := ⟨"r", "i", .deeper, 1, [], none, 0⟩
  let clock : Clock := ⟨0, 0⟩
  [.enqueued exampleUpload clock,
    .requested payload 7 1 clock,
    .worked clock (.claim "w" [reanalysisStage] 60 fun _ => false),
    .worked clock (.start ⟨1, "w", 1, 0, 60⟩),
    .peeked 1 7,
    .published 0 (.retrieval (planned payload)) [] 2 clock]

/-- The owner cancels the first job, and the retrieval is never published. -/
theorem exampleEvents_cancelled :
    let station := Station.run spelledDigests exampleEvents
    ∃ peek ∈ station.peeks, ∃ office,
      cancelOwnedJob station.office peek 7 ⟨0, 0⟩ = some (.effective, office) ∧
      ∀ events, let later := exec (Station.step spelledDigests) (station.withOffice office) events
        (chain later.rows "r").map Job.id = [1, 2] ∧
        ∀ job ∈ chain later.rows "r", job.id = 2 → job.state ≠ .published := by
  intro station
  have lawful : station.Lawful spelledDigests := receipt_reaches spelledDigests_apart exampleEvents
  have listed : station.requests.rows.map (fun request => (request.id, request.jobId)) =
      [("r", 2)] := by
    decide +kernel
  have works : station.peeks.map (fun peek => requestOfRow peek) = [some "r"] := by
    decide +kernel
  have effective : station.peeks.map (fun peek =>
      (cancelOwnedJob station.office peek 7 ⟨0, 0⟩).map (·.1)) = [some .effective] := by
    decide +kernel
  have ids : (chain station.rows "r").map Job.id = [1, 2] := by decide +kernel
  obtain ⟨request, requests, same⟩ := List.map_eq_singleton_iff.mp listed
  obtain ⟨peek, peeks, work⟩ := List.map_eq_singleton_iff.mp works
  rw [peeks, List.map_singleton, List.singleton_inj, Option.map_eq_some_iff] at effective
  obtain ⟨⟨outcome, office⟩, answered, rfl⟩ := effective
  have read : peek ∈ station.peeks := peeks ▸ List.mem_singleton_self peek
  have stored : request ∈ station.requests.rows := requests ▸ List.mem_singleton_self request
  obtain ⟨id, jobId⟩ := Prod.mk.inj same
  refine ⟨peek, read, office, answered, fun events => ?_⟩
  obtain ⟨-, kept, stopped⟩ := lawful.ended peek read 7 ⟨0, 0⟩ .effective office answered
    (.inl rfl) request stored (work.trans (congrArg some id.symm)) events
  rw [id, jobId] at stopped
  rw [id] at kept
  exact ⟨kept.trans ids, stopped⟩

end Reachable

end Ovrly.Receipts
