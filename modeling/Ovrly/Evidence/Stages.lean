import Ovrly.Evidence.Assessment
import Ovrly.Reports.Archive

/-!
The jobs of an investigation from its extraction to its assessment: reconciliation, reanalysis
requests and the stages of `evidence/stages.py`.

A run of a job is one step here, taken where it commits. Versions are immutable and numbered,
so what a run read earlier of the version it is made on is still so then. A failed or cancelled
attempt takes no step.
-/

namespace Ovrly.Evidence

open Runs
open Ovrly.Reports

structure StagePayload where
  investigationId : Uuid
  baseVersion : Nat
  claimIds : Option (List String) := none
  depth : Depth := .standard
  reanalysisRequestId : Option Uuid := none
  deriving DecidableEq, Repr

structure RetrievalArtifact where
  investigationId : Uuid
  baseVersion : Nat
  claims : List ClaimRetrieval
  superseded : Bool := false
  deriving DecidableEq, Repr

inductive Reason
  | correction | deeper | expansion
  deriving DecidableEq, Repr

/-- The payload of a `reanalysis` job. -/
structure ReanalysisPayload where
  requestId : Uuid
  investigationId : Uuid
  reason : Reason
  supersedesVersion : Nat
  claimIds : List String
  sourceInvestigationId : Option Uuid
  poll : Nat := 0
  deriving DecidableEq, Repr

def maxExpansionPolls : Nat := 12

/-! ### The stages -/

inductive StageError
  | nonRetriableInput (message : String)
  | transient (message : String)
  deriving DecidableEq, Repr

def scope (payload : StagePayload) (report : ReportVersion) : List Claim :=
  match payload.claimIds with
  | some ids => report.claims.filter fun claim => ids.contains claim.id
  | none => report.claims

variable (digests : Digests)

def retrieveAt (claimLimit : Nat) (searched : Nat → Searched) (claim : Claim) (index : Nat) :
    ClaimRetrieval :=
  if claimLimit ≤ index then
    { claimId := claim.id, retrieved := false, reason := some "claim_budget" }
  else retrieve digests claim.id (searched index)

def retrieval (claimLimit : Nat) (searched : Nat → Searched) (payload : StagePayload)
    (latest : Option ReportVersion) : Except StageError RetrievalArtifact :=
  match latest with
  | none => .error (.nonRetriableInput "no published report version to retrieve evidence for")
  | some report =>
      if report.version ≠ payload.baseVersion then
        .ok { investigationId := payload.investigationId, baseVersion := payload.baseVersion,
              claims := [], superseded := true }
      else
        let results := (scope payload report).zipIdx.map fun (claim, index) =>
          retrieveAt digests claimLimit searched claim index
        if results ≠ [] ∧ results.all (·.reason == some "retrieval_unavailable") then
          .error (.transient "every search failed")
        else
          .ok { investigationId := payload.investigationId, baseVersion := payload.baseVersion,
                claims := results }

/-- The outcomes of `_assessment` over its base version. -/
def assessmentOutcomes (answer : Nat → RouterAnswer) (artifact : RetrievalArtifact)
    (base : ReportVersion) (version : Nat) (captureOpen : Bool) : List ClaimOutcome :=
  artifact.claims.zipIdx.filterMap fun (retrieval, index) =>
    if retrieval.claimId ∈ base.claims.map (·.id) then
      some (assess digests retrieval version captureOpen (answer index))
    else none

/-- The retrieval that `reanalysis` plans for a correction or a deeper search. -/
def planned (payload : ReanalysisPayload) : StagePayload where
  investigationId := payload.investigationId
  baseVersion := payload.supersedesVersion
  claimIds := if payload.reason = .correction then some payload.claimIds else none
  depth := if payload.reason = .deeper then .deeper else .standard
  reanalysisRequestId := some payload.requestId

theorem retrieval_ok {digests : Digests} {claimLimit : Nat} {searched : Nat → Searched}
    {payload : StagePayload} {latest : Option ReportVersion} {artifact : RetrievalArtifact}
    (found : retrieval digests claimLimit searched payload latest = .ok artifact) :
    ∃ report, latest = some report ∧
      (report.version ≠ payload.baseVersion ∧ artifact.superseded = true ∨
        report.version = payload.baseVersion ∧ artifact.superseded = false ∧
          artifact.claims = (scope payload report).zipIdx.map fun (claim, index) =>
            retrieveAt digests claimLimit searched claim index) := by
  cases latest with
  | none => simp [retrieval] at found
  | some report =>
      refine ⟨report, rfl, ?_⟩
      simp only [retrieval] at found
      split at found
      · rename_i stale
        rw [Except.ok.injEq] at found
        subst found
        exact .inl ⟨stale, rfl⟩
      · rename_i current
        rw [not_not] at current
        split at found
        · simp at found
        · rw [Except.ok.injEq] at found
          subst found
          exact .inr ⟨current, rfl, rfl⟩

@[simp] theorem retrieveAt_claimId (digests : Digests) (claimLimit : Nat)
    (searched : Nat → Searched) (claim : Claim) (index : Nat) :
    (retrieveAt digests claimLimit searched claim index).claimId = claim.id := by
  simp only [retrieveAt]
  split
  · rfl
  · exact retrieve_claimId _ _ _

theorem retrieveAt_claimIds (digests : Digests) (claimLimit : Nat) (searched : Nat → Searched)
    (claims : List Claim) :
    (claims.zipIdx.map fun (claim, index) =>
      retrieveAt digests claimLimit searched claim index).map (·.claimId) =
        claims.map (·.id) := by
  rw [List.map_map]
  conv_rhs => rw [← List.zipIdx_map_fst 0 claims, List.map_map]
  refine List.map_congr_left ?_
  intro entry _
  exact retrieveAt_claimId _ _ _ _ _

theorem assessmentOutcomes_about {digests : Digests} {answer : Nat → RouterAnswer}
    {artifact : RetrievalArtifact} {base : ReportVersion} {version : Nat} {captureOpen : Bool}
    {outcome : ClaimOutcome}
    (member : outcome ∈ assessmentOutcomes digests answer artifact base version captureOpen) :
    ∃ retrieval ∈ artifact.claims, About outcome retrieval := by
  obtain ⟨⟨retrieval, index⟩, belongs, chosen⟩ := List.mem_filterMap.mp member
  dsimp only at chosen
  split at chosen
  · rw [Option.some.injEq] at chosen
    subst chosen
    exact ⟨retrieval, List.fst_mem_of_mem_zipIdx belongs, assess_about _ _ _ _⟩
  · simp at chosen

/-! ### Jobs -/

/-- A job with its payload. An assessment reads the artifact back from the result of its
retrieval job, which was published in the transaction that enqueued it. -/
inductive Task
  | reconciliation (investigationId : Uuid) (reportId : Option Uuid) (upstreamLimited : Bool)
  | reanalysis (payload : ReanalysisPayload)
  | retrieval (payload : StagePayload)
  | assessment (payload : StagePayload) (artifact : RetrievalArtifact)
  deriving DecidableEq, Repr

inductive Result
  | reconciled
  | retrieval (planned : StagePayload)
  | artifact (artifact : RetrievalArtifact)
  | version (version : Nat)
  | skipped (reason : String)
  | waitingForSource (poll : Nat)
  deriving DecidableEq, Repr

inductive JobState
  | queued
  | published (result : Result)
  | failed (message : String)
  deriving DecidableEq, Repr

structure Job where
  task : Task
  state : JobState := .queued
  deriving DecidableEq, Repr

def Task.payload? : Task → Option StagePayload
  | .reconciliation _ _ _ => none
  | .reanalysis payload => if payload.reason = .expansion then none else some (planned payload)
  | .retrieval payload => some payload
  | .assessment payload _ => some payload

def Task.names (task : Task) (report : ReportVersion) : List String :=
  match task with
  | .reconciliation _ _ _ => []
  | .reanalysis payload => (scope (planned payload) report).map (·.id)
  | .retrieval payload => (scope payload report).map (·.id)
  | .assessment _ artifact => artifact.claims.map (·.claimId)

def Task.investigationId : Task → Uuid
  | .reconciliation investigationId _ _ => investigationId
  | .reanalysis payload => payload.investigationId
  | .retrieval payload | .assessment payload _ => payload.investigationId

/-- `publish_evidence_stage`: the job a published result hands on to. -/
def successor : Task → Result → Option Task
  | .reanalysis _, .retrieval planned => some (.retrieval planned)
  | .reanalysis payload, .waitingForSource poll =>
      some (.reanalysis { payload with poll := poll + 1 })
  | .retrieval payload, .artifact artifact =>
      if artifact.claims ≠ [] ∧ artifact.superseded = false then
        some (.assessment payload artifact)
      else none
  | _, _ => none

/-- The retrieval a reconciliation enqueues with its version, for the claims that are neither
superseded nor assessed. -/
def pendingClaims (report : ReportVersion) : List String :=
  (report.claims.filter fun claim =>
    claim.supersededByOccurrenceId.isNone &&
      !(report.assessments.map (·.claimId)).contains claim.id).map (·.id)

def handoff (report : ReportVersion) : Option Task :=
  if pendingClaims report = [] then none
  else some (.retrieval {
    investigationId := report.investigationId
    baseVersion := report.version
    claimIds := some (pendingClaims report) })

/-! ### Transactions -/

structure World where
  archive : Archive
  jobs : List Job

def World.empty : World := ⟨Archive.empty, []⟩

/-- What one transaction commits: a version of an investigation, the end of a job and a new
job. -/
structure Effect where
  investigationId : Uuid
  report : Option ReportVersion := none
  settled : Option (Nat × JobState) := none
  enqueued : Option Task := none

def Archive.extend (archive : Archive) (investigationId : Uuid) :
    Option ReportVersion → Archive
  | none => archive
  | some report => Function.update archive investigationId (archive investigationId ++ [report])

def settle (jobs : List Job) : Option (Nat × JobState) → List Job
  | none => jobs
  | some (index, state) => jobs.modify index fun job => { job with state }

def World.commit (world : World) (effect : Effect) : World where
  archive := Archive.extend world.archive effect.investigationId effect.report
  jobs := settle world.jobs effect.settled ++ effect.enqueued.toList.map (⟨·, .queued⟩)

def finished (investigationId : Uuid) (index : Nat) (task : Task) (result : Result)
    (report : Option ReportVersion) : Effect where
  investigationId
  report
  settled := some (index, .published result)
  enqueued := successor task result

def failed (investigationId : Uuid) (index : Nat) (message : String) : Effect where
  investigationId
  settled := some (index, .failed message)

def World.latest (world : World) (investigationId : Uuid) : Option ReportVersion :=
  latestVersion (world.archive investigationId)

def World.scheduled (world : World) (investigationId : Uuid) : Bool :=
  world.jobs.any fun job =>
    match job.task with
    | .reconciliation target _ _ => target == investigationId
    | _ => false

inductive Reanalysis
  | correction (body : CorrectionReanalysis)
  | deeper (baseVersion : Nat)
  | expansion (baseVersion : Nat) (matchConfirmed : Bool) (sourceInvestigationId : Option Uuid)

def Reanalysis.baseVersion : Reanalysis → Nat
  | .correction body => body.baseVersion
  | .deeper baseVersion => baseVersion
  | .expansion baseVersion _ _ => baseVersion

def Reanalysis.reason : Reanalysis → Reason
  | .correction _ => .correction
  | .deeper _ => .deeper
  | .expansion _ _ _ => .expansion

/-- The investigation an expansion names; its owner and state are checked elsewhere. -/
def confirmedSource (investigationId : Uuid) : Reanalysis → Except BuildError (Option Uuid)
  | .expansion _ matchConfirmed sourceInvestigationId =>
      if matchConfirmed = false then
        .error (.apiError 422 "MATCH_CONFIRMATION_REQUIRED"
          "Expansion to the full video requires the user to confirm the match")
      else
        match sourceInvestigationId with
        | none =>
            .error (.apiError 422 "EXPANSION_SOURCE_REQUIRED"
              "Expansion must name the investigation of the confirmed full video")
        | some sourceId =>
            if sourceId = investigationId then
              .error (.apiError 422 "EXPANSION_SOURCE_SELF"
                "The full video must be a different investigation from the one being expanded")
            else .ok (some sourceId)
  | _ => .ok none

variable (identify : Uuid → List (String × Nat × Nat) → String)

/-- The version a correction publishes at once; the other requests change no content yet. -/
def World.publishedVersion (world : World) (investigationId id : Uuid) (createdAt : Timestamp) :
    Reanalysis → Except BuildError (Option ReportVersion)
  | .correction body =>
      (publication identify world.archive ⟨investigationId, id, createdAt, .correction body⟩).map
        some
  | _ => .ok none

def Reanalysis.pendingClaims : Reanalysis → List String
  | .correction body => [body.claimId]
  | _ => []

def World.requestReanalysis (world : World) (investigationId requestId id : Uuid)
    (createdAt : Timestamp) (body : Reanalysis) : Except BuildError Effect :=
  match confirmedSource investigationId body with
  | .error refused => .error refused
  | .ok sourceInvestigationId =>
      match world.latest investigationId with
      | none =>
          .error (.apiError 409 "REPORT_NOT_AVAILABLE"
            "The check has no published report to reanalyse yet")
      | some latest =>
          if body.baseVersion ≠ latest.version then
            .error (.apiError 409 "REPORT_VERSION_STALE"
              ("Reanalysis must start from the latest report version, " ++
                toString latest.version))
          else
            match world.publishedVersion identify investigationId id createdAt body with
            | .error refused => .error refused
            | .ok report =>
                .ok {
                  investigationId
                  report
                  enqueued := some (.reanalysis {
                    requestId
                    investigationId
                    reason := body.reason
                    supersedesVersion := (report.map (·.version)).getD latest.version
                    claimIds := body.pendingClaims
                    sourceInvestigationId }) }

/-- An extraction's publication. Once reconciliation is scheduled the input is closed and all
its windows are terminal. -/
def World.extract (world : World) (investigationId id : Uuid) (createdAt : Timestamp)
    (incremental : Bool) (occurrences : List Extraction.Occurrence)
    (window : Extraction.ObservationWindow) (provenance : List ProcessingAttempt) :
    Option Effect :=
  if world.scheduled investigationId then none
  else
    match publication identify world.archive ⟨investigationId, id, createdAt,
        .extraction incremental occurrences window provenance⟩ with
    | .error _ => none
    | .ok report => some { investigationId, report := some report }

/-- `schedule_reconciliation` -/
def World.schedule (world : World) (investigationId : Uuid) (upstreamLimited : Bool) : Option Effect :=
  if world.scheduled investigationId then none
  else some {
    investigationId
    enqueued := some (.reconciliation investigationId
      ((world.latest investigationId).map (·.id)) upstreamLimited) }

/-- A valid answer to the reconciliation of the version that was read, and the identity its
publication gets. -/
structure ReconciliationAnswer where
  id : Uuid
  createdAt : Timestamp
  output : Reconciliation
  textOf : String → Option String
  now : Timestamp
  provenance : List ProcessingAttempt
  coverageLimited : Bool

/-- `ReconciliationStage.run` with its publication. A refused answer leaves the job. -/
def World.reconcile (world : World) (index : Nat) (investigationId : Uuid) (reportId : Option Uuid)
    (upstreamLimited : Bool) (answer : ReconciliationAnswer) : Option Effect :=
  match world.latest investigationId with
  | none => some (failed investigationId index "No provisional extraction is available")
  | some previous =>
      if some previous.id ≠ reportId ∨ previous.open = false then
        some (failed investigationId index "Reconciliation snapshot was superseded")
      else
        match publication identify world.archive ⟨investigationId, answer.id, answer.createdAt,
            .reconciliation answer.output answer.textOf answer.now answer.provenance
              (upstreamLimited || answer.coverageLimited)⟩ with
        | .error _ => none
        | .ok report => some {
            investigationId
            report := some report
            settled := some (index, .published .reconciled)
            enqueued := handoff report }

def World.expand (world : World) (index : Nat) (payload : ReanalysisPayload) (sourceId id : Uuid)
    (createdAt : Timestamp) : Effect :=
  let finish := finished payload.investigationId index (.reanalysis payload)
  match world.latest payload.investigationId with
  | none => finish (.skipped "superseded") none
  | some current =>
      if current.version ≠ payload.supersedesVersion then finish (.skipped "superseded") none
      else
        match world.latest sourceId with
        | none =>
            if maxExpansionPolls ≤ payload.poll then
              failed payload.investigationId index
                "the full-video investigation published no report"
            else finish (.waitingForSource payload.poll) none
        | some full =>
            match publication identify world.archive ⟨payload.investigationId, id, createdAt,
                .expansion full sourceId⟩ with
            | .error _ =>
                failed payload.investigationId index
                  "citation validation failed; nothing published"
            | .ok report => finish (.version report.version) (some report)

def World.reanalysis (world : World) (index : Nat) (payload : ReanalysisPayload) (id : Uuid)
    (createdAt : Timestamp) : Effect :=
  match payload.reason, payload.sourceInvestigationId with
  | .expansion, none =>
      failed payload.investigationId index "expansion names no source investigation"
  | .expansion, some sourceId => world.expand identify index payload sourceId id createdAt
  | .correction, _ | .deeper, _ =>
      finished payload.investigationId index (.reanalysis payload) (.retrieval (planned payload))
        none

/-- `EvidenceStages.retrieval`; a transient error leaves the job to its next attempt. -/
def World.retrieve (world : World) (index : Nat) (payload : StagePayload) (claimLimit : Nat)
    (searched : Nat → Searched) : Option Effect :=
  match retrieval digests claimLimit searched payload (world.latest payload.investigationId) with
  | .error (.nonRetriableInput message) => some (failed payload.investigationId index message)
  | .error (.transient _) => none
  | .ok artifact =>
      some (finished payload.investigationId index (.retrieval payload) (.artifact artifact)
        none)

def World.assessment (world : World) (index : Nat) (payload : StagePayload)
    (artifact : RetrievalArtifact) (id : Uuid) (createdAt : Timestamp) (captureOpen : Bool)
    (answer : Nat → RouterAnswer) : Effect :=
  let finish := finished payload.investigationId index (.assessment payload artifact)
  if artifact.superseded then finish (.skipped "superseded") none
  else
    match world.latest payload.investigationId with
    | none => finish (.skipped "superseded") none
    | some base =>
        if base.version ≠ payload.baseVersion then finish (.skipped "superseded") none
        else
          match publication identify world.archive ⟨payload.investigationId, id, createdAt,
              .assessment (assessmentOutcomes digests answer artifact base
                (payload.baseVersion + 1) captureOpen) captureOpen payload.depth⟩ with
          | .error _ =>
              failed payload.investigationId index
                "citation validation failed; nothing published"
          | .ok report => finish (.version report.version) (some report)

/-! ### Runs -/

inductive Action
  | extract (investigationId id : Uuid) (createdAt : Timestamp) (incremental : Bool)
      (occurrences : List Extraction.Occurrence) (window : Extraction.ObservationWindow)
      (provenance : List ProcessingAttempt)
  | schedule (investigationId : Uuid) (upstreamLimited : Bool)
  | request (investigationId requestId id : Uuid) (createdAt : Timestamp) (body : Reanalysis)
  | reconcile (index : Nat) (answer : ReconciliationAnswer)
  | reanalyse (index : Nat) (id : Uuid) (createdAt : Timestamp)
  | retrieve (index : Nat) (claimLimit : Nat) (searched : Nat → Searched)
  | assess (index : Nat) (id : Uuid) (createdAt : Timestamp) (captureOpen : Bool)
      (answer : Nat → RouterAnswer)

def World.task? (world : World) (index : Nat) : Option Task :=
  match world.jobs[index]? with
  | some ⟨task, .queued⟩ => some task
  | _ => none

def World.effect (world : World) : Action → Option Effect
  | .extract investigationId id createdAt incremental occurrences window provenance =>
      world.extract identify investigationId id createdAt incremental occurrences window
        provenance
  | .schedule investigationId upstreamLimited => world.schedule investigationId upstreamLimited
  | .request investigationId requestId id createdAt body =>
      (world.requestReanalysis identify investigationId requestId id createdAt body).toOption
  | .reconcile index answer =>
      match world.task? index with
      | some (.reconciliation investigationId reportId upstreamLimited) =>
          world.reconcile identify index investigationId reportId upstreamLimited answer
      | _ => none
  | .reanalyse index id createdAt =>
      match world.task? index with
      | some (.reanalysis payload) =>
          some (world.reanalysis identify index payload id createdAt)
      | _ => none
  | .retrieve index claimLimit searched =>
      match world.task? index with
      | some (.retrieval payload) => world.retrieve digests index payload claimLimit searched
      | _ => none
  | .assess index id createdAt captureOpen answer =>
      match world.task? index with
      | some (.assessment payload artifact) =>
          some (world.assessment digests identify index payload artifact id createdAt captureOpen
            answer)
      | _ => none

def World.step (world : World) (action : Action) : World :=
  match world.effect digests identify action with
  | none => world
  | some effect => world.commit effect

end Ovrly.Evidence
