import Ovrly.Evidence.Commits
import Ovrly.Evidence.Validity
import Ovrly.Reports.Links

/-!
User corrections and the claims they do not name.

A correction publishes a version of its own, so it supersedes the reconciliation that is
scheduled and the evidence runs that are queued. Its own run is for the corrected claim alone.
What stays true is that every claim of a reconciled report is assessed, was attempted, or lost
its run to a correction.
-/

namespace Ovrly.Evidence

open Runs
open Ovrly.Reports
open Ovrly.Extraction (groundedClaims_fresh)

def OnlyCorrects (investigationId : Uuid) : Action → Prop
  | .request target _ _ _ body => target = investigationId → body.reason = .correction
  | _ => True

def Task.pairs : Task → List (String × String)
  | .assessment _ artifact => artifact.pairs
  | _ => []

def World.pairs (world : World) (investigationId : Uuid) : List (String × String) :=
  ((world.jobs.map (·.task)).filter (·.investigationId == investigationId)).flatMap Task.pairs

/-- No job of the investigation is left to run. -/
def World.Quiet (world : World) (investigationId : Uuid) : Prop :=
  ∀ job ∈ world.jobs, job.task.investigationId = investigationId → job.state ≠ .queued

def Corrected (rows : List ReportVersion) (version : Nat) : Prop :=
  ∃ base ∈ rows, base.version = version ∧ ∃ next ∈ rows, next.version = version + 1 ∧
    ∃ body identity built, correctedReport base body identity = .ok built ∧
      next = { built with fixture := next.fixture }

/-- The task is an evidence run on the version, for a claim that has the same proposition
there. -/
def Task.Serves (task : Task) (investigationId : Uuid) (base : ReportVersion) (claim : Claim) :
    Prop :=
  task.investigationId = investigationId ∧
    (∃ payload, task.payload? = some payload ∧ payload.baseVersion = base.version) ∧
    claim.id ∈ task.names base ∧
    ∃ old ∈ base.claims, old.id = claim.id ∧ old.proposition = claim.proposition

def Job.Attempted (job : Job) : Prop :=
  ∃ payload artifact version,
    job.task = .assessment payload artifact ∧ job.state = .published (.version version)

/-- The run published nothing, for its version was not the latest any more. -/
def Job.Superseded (job : Job) : Prop :=
  job.state = .published (.skipped "superseded") ∨
    ∃ artifact, artifact.superseded = true ∧ job.state = .published (.artifact artifact)

def Assessed (report : ReportVersion) (claim : Claim) : Prop :=
  ∃ assessment ∈ report.assessments, assessment.claimId = claim.id

/-- An evidence run was for the claim, and attempted it or lost its version to a correction. -/
def Ran (world : World) (investigationId : Uuid) (claim : Claim) : Prop :=
  ∃ base ∈ world.archive investigationId, ∃ job ∈ world.jobs,
    job.task.Serves investigationId base claim ∧
      (job.Attempted ∨ job.Superseded ∧ Corrected (world.archive investigationId) base.version)

/-- An evidence run on a reconciled version is still to come for the claim. -/
def Waiting (world : World) (investigationId : Uuid) (claim : Claim) : Prop :=
  ∃ base ∈ world.archive investigationId, base.reconciliation.isSome ∧
    ∃ index task, world.task? index = some task ∧ task.Serves investigationId base claim

/-! ### What holds of every row -/

structure Sound (digests : Digests) (known : List (String × String)) (investigationId : Uuid)
    (report : ReportVersion) : Prop where
  cited : Cited report
  named : Named report.claims
  distinct : (report.claims.map (·.id)).Nodup
  identified : Identified digests known report.evidence
  owner : report.investigationId = investigationId

variable {digests : Digests} {known : List (String × String)}
  {identify : Uuid → List (String × Nat × Nat) → String}

theorem extracted_distinct {incremental : Bool} {previous : Option ReportVersion}
    {claims : List Claim} {provenance : List ProcessingAttempt} {identity : NextVersion}
    (fresh : ∀ claim ∈ claims, claim.occurrenceId = claim.id)
    (unique : (claims.map (·.id)).Nodup)
    (holds : ∀ report, previous = some report →
      Named report.claims ∧ (report.claims.map (·.id)).Nodup) :
    ((extractedVersion incremental previous claims provenance identity).claims.map
      (·.id)).Nodup := by
  cases previous with
  | none =>
      have same := (extractedVersion_claims_first incremental claims provenance identity).map
        Claim.id
      exact same.nodup_iff.mpr unique
  | some report =>
      obtain ⟨named, distinct⟩ := holds report rfl
      have same := (extractedVersion_claims incremental claims provenance identity report).map
        Claim.id
      refine same.nodup_iff.mpr ?_
      rw [List.map_append, List.nodup_append]
      refine ⟨distinct, unique.sublist (List.filter_sublist.map _), ?_⟩
      rintro id old id' new rfl
      obtain ⟨earlier, earlierMember, rfl⟩ := List.mem_map.mp old
      obtain ⟨claim, member, sameId⟩ := List.mem_map.mp new
      obtain ⟨belongs, unknown⟩ := List.mem_filter.mp member
      have absent : claim.occurrenceId ∉ report.claims.map (·.occurrenceId) := by
        simpa using unknown
      refine absent (List.mem_map.mpr ⟨earlier, earlierMember, ?_⟩)
      rw [named earlier earlierMember, fresh claim belongs, sameId]

theorem corrected_ids {base report : ReportVersion} {body : CorrectionReanalysis}
    {identity : NextVersion} (corrected : correctedReport base body identity = .ok report) :
    report.claims.map (·.id) = base.claims.map (·.id) := by
  obtain ⟨claim, corrects⟩ := correctedReport_ok corrected
  rw [corrects.claims, List.map_map]
  refine List.map_congr_left ?_
  intro item _
  simp only [Function.comp_apply]
  split
  · rename_i same
    exact same.symm
  · rfl

theorem build_sound {builder : Builder} {previous : Option ReportVersion}
    {identity : NextVersion} {built : ReportVersion} {investigationId : Uuid}
    (accepted : builder.build identify previous identity = .ok built)
    (holds : ∀ report, previous = some report → Sound digests known investigationId report)
    (unexpanded : ∀ full sourceId, builder ≠ .expansion full sourceId)
    (outcomes : ∀ outcomes captureOpen depth, builder = .assessment outcomes captureOpen depth →
      ∀ outcome ∈ outcomes, Identified digests known outcome.evidence) :
    Cited built ∧ Named built.claims ∧ (built.claims.map (·.id)).Nodup ∧
      Identified digests known built.evidence := by
  have cited := Builder.build_cited accepted fun report latest => (holds report latest).cited
  have named := Builder.build_named accepted (fun report latest => (holds report latest).named)
    fun full sourceId isExpansion => absurd isExpansion (unexpanded full sourceId)
  refine ⟨cited, named, ?_⟩
  cases Builder.build_built identify accepted with
  | @extracted incremental _ _ provenance claims grounded =>
      have known : ∀ report, (if incremental then previous else none) = some report →
          previous = some report := by
        intro report some
        split at some
        · exact some
        · simp at some
      obtain ⟨fresh, unique⟩ := groundedClaims_fresh grounded
      constructor
      · refine extracted_distinct (fun claim member => (fresh claim member).named) unique ?_
        intro report latest
        have sound := holds report (known report latest)
        exact ⟨sound.named, sound.distinct⟩
      · rw [extractedVersion_evidence]
        cases latest : if incremental then previous else none with
        | none => simp [Identified]
        | some report => exact (holds report (known report latest)).identified
  | reconciled latest _ revised =>
      have sound := holds _ latest
      refine ⟨?_, fun item member => sound.identified item (List.mem_of_mem_filter member)⟩
      rw [show (reconciledVersion _ _ _ _ _ identity).claims.map (·.id) = _ from
        reconcileClaims_ids revised]
      exact sound.distinct
  | corrected latest corrected =>
      have sound := holds _ latest
      rw [corrected_ids corrected]
      refine ⟨sound.distinct, ?_⟩
      intro item member
      obtain ⟨claim, corrects⟩ := correctedReport_ok corrected
      rw [corrects.evidence] at member
      exact sound.identified item (List.mem_of_mem_filter member)
  | merged latest =>
      have sound := holds _ latest
      have distinct := sound.distinct
      refine ⟨distinct, ?_⟩
      intro item member
      rcases List.mem_append.mp member with old | new
      · exact sound.identified item (List.mem_of_mem_filter old)
      · obtain ⟨outcome, among, belongs⟩ := List.mem_flatMap.mp new
        exact outcomes _ _ _ rfl outcome (List.mem_of_mem_filter among) item belongs
  | expanded => exact absurd rfl (unexpanded _ _)

theorem publication_assessment (identify : Uuid → List (String × Nat × Nat) → String)
    {archive : Archive} {investigationId id : Uuid} {createdAt : Timestamp}
    {outcomes : List ClaimOutcome} {captureOpen : Bool} {depth : Depth} {base : ReportVersion}
    (latest : latestVersion (archive investigationId) = some base)
    (owner : base.investigationId = investigationId)
    (valid : ∀ identity, validateCitations
      (merged base outcomes (assessedScope outcomes) captureOpen depth identity) = .ok ()) :
    ∃ report, publication identify archive ⟨investigationId, id, createdAt,
      .assessment outcomes captureOpen depth⟩ = .ok report := by
  have built : ∀ identity, Builder.build identify (.assessment outcomes captureOpen depth)
      (some base) identity =
        .ok (merged base outcomes (assessedScope outcomes) captureOpen depth identity) := by
    intro identity
    simp [Builder.build, mergedVersion, valid, bind, Except.bind, pure, Except.pure,
      Except.mapError]
  simp [publication, publishReportVersion, latest, built, merged, nextIdentity, owner]

/-! ### The invariant -/

/-- The version a queued evidence run is for is stored; once it is reconciled, nothing but a
correction has come after it. -/
def InForce (rows : List ReportVersion) (payload : StagePayload) : Prop :=
  ∃ base ∈ rows, base.version = payload.baseVersion ∧
    (base.reconciliation.isSome →
      payload.baseVersion = rows.length ∨ Corrected rows payload.baseVersion)

/-- A claim of the latest version is assessed, or an evidence run was or is to come for it. -/
def Covered (world : World) (investigationId : Uuid) (latest : ReportVersion) (claim : Claim) :
    Prop :=
  Assessed latest claim ∨ Ran world investigationId claim ∨ Waiting world investigationId claim

structure Covering (digests : Digests) (known : List (String × String)) (investigationId : Uuid)
    (world : World) : Prop where
  numbered : ∀ target, Numbered (world.archive target)
  rows : ∀ report ∈ world.archive investigationId, Sound digests known investigationId report
  scheduled : ∀ report ∈ world.archive investigationId, report.reconciliation.isSome →
    world.scheduled investigationId = true
  lasting : ∀ report ∈ world.archive investigationId, report.reconciliation.isSome →
    ∀ latest, world.latest investigationId = some latest → latest.reconciliation.isSome
  runs : ∀ index task payload, world.task? index = some task →
    task.investigationId = investigationId → task.payload? = some payload →
      InForce (world.archive investigationId) payload
  single : ∀ first second task other payload payload', world.task? first = some task →
    world.task? second = some other → task.investigationId = investigationId →
    other.investigationId = investigationId → task.payload? = some payload →
    other.payload? = some payload' → payload.baseVersion = payload'.baseVersion → first = second
  corrections : ∀ index payload, world.task? index = some (.reanalysis payload) →
    payload.investigationId = investigationId → payload.reason = .correction
  artifacts : ∀ index payload artifact, world.task? index = some (.assessment payload artifact) →
    payload.investigationId = investigationId →
      Assessable digests artifact ∧ artifact.superseded = false
  published : ∀ job ∈ world.jobs, ∀ reportId limited,
    job.task = .reconciliation investigationId reportId limited →
    job.state = .published .reconciled →
      ∃ report ∈ world.archive investigationId, report.reconciliation.isSome
  covered : ∀ latest, world.latest investigationId = some latest →
    latest.reconciliation.isSome → ∀ claim ∈ latest.claims,
      claim.supersededByOccurrenceId = none → Covered world investigationId latest claim

variable {investigationId : Uuid} {world : World}

theorem Covering.empty : Covering digests known investigationId World.empty where
  numbered _ := Numbered.empty
  rows := by simp [World.empty, Archive.empty]
  scheduled := by simp [World.empty, Archive.empty]
  lasting := by simp [World.empty, Archive.empty]
  runs := by simp [World.empty, World.task?]
  single := by simp [World.empty, World.task?]
  corrections := by simp [World.empty, World.task?]
  artifacts := by simp [World.empty, World.task?]
  published := by simp [World.empty]
  covered := by simp [World.empty, World.latest, Archive.empty, latestVersion]

/-- A queued run on a version that is not the latest has lost it to a correction, if the version
was reconciled. -/
theorem InForce.overtaken {rows : List ReportVersion} (numbered : Numbered rows)
    {payload : StagePayload} (force : InForce rows payload)
    (stale : payload.baseVersion ≠ rows.length) {base : ReportVersion} (stored : base ∈ rows)
    (isBase : base.version = payload.baseVersion) (reconciled : base.reconciliation.isSome) :
    Corrected rows base.version := by
  obtain ⟨other, otherStored, isOther, follows⟩ := force
  obtain rfl := numbered.eq_of_version otherStored stored (isOther.trans isBase.symm)
  rcases follows reconciled with last | corrected
  · exact absurd last stale
  · exact isBase ▸ corrected

inductive Publishes (world : World) (investigationId : Uuid) (effect : Effect)
    (report : ReportVersion) : Prop
  | extracted (unscheduled : world.scheduled investigationId = false)
      (unreconciled : report.reconciliation = none) (keeps : effect.settled = none)
      (adds : effect.enqueued = none)
  | corrected {base body requestId identity made}
      (latest : world.latest investigationId = some base)
      (corrected : correctedReport base body identity = .ok made)
      (same : report = { made with fixture := report.fixture }) (keeps : effect.settled = none)
      (adds : effect.enqueued = some (.reanalysis ⟨requestId, investigationId, .correction,
        report.version, [body.claimId], none, 0⟩))
  | reconciled {previous index reportId limited}
      (latest : world.latest investigationId = some previous)
      (unreconciled : previous.reconciliation = none)
      (reconciled : report.reconciliation.isSome)
      (queued : world.task? index = some (.reconciliation investigationId reportId limited))
      (ends : effect.settled = some (index, .published .reconciled))
      (adds : effect.enqueued = handoff report)
  | assessed {base index payload artifact version}
      (latest : world.latest investigationId = some base)
      (current : base.version = payload.baseVersion)
      (queued : world.task? index = some (.assessment payload artifact))
      (target : payload.investigationId = investigationId)
      (ends : effect.settled = some (index, .published (.version version)))
      (adds : effect.enqueued = none) (claims : report.claims = base.claims)
      (reconciliation : report.reconciliation = base.reconciliation)
      (kept : ∀ assessment ∈ base.assessments,
        assessment.claimId ∉ artifact.claims.map (·.claimId) →
          ∃ next ∈ report.assessments, next.claimId = assessment.claimId)

section Commit

variable {action : Action} {effect : Effect}
  (commits : Commits digests identify world action effect)

theorem rows_commit {report : ReportVersion} (stored : report ∈ world.archive investigationId) :
    report ∈ (world.commit effect).archive investigationId :=
  mem_extend.mpr (.inl stored)

theorem Corrected.commit {version : Nat}
    (corrected : Corrected (world.archive investigationId) version) :
    Corrected ((world.commit effect).archive investigationId) version := by
  obtain ⟨base, stored, isBase, next, nextStored, isNext, made⟩ := corrected
  exact ⟨base, rows_commit stored, isBase, next, rows_commit nextStored, isNext, made⟩

include commits in
theorem Ran.commit {claim : Claim} (ran : Ran world investigationId claim) :
    Ran (world.commit effect) investigationId claim := by
  obtain ⟨base, stored, job, member, serves, ended⟩ := ran
  refine ⟨base, rows_commit stored, job, ended_commit commits member ?_, serves,
    ended.imp_right fun lost => ⟨lost.1, lost.2.commit⟩⟩
  rcases ended with ⟨_, _, _, _, published⟩ | ⟨skipped | ⟨_, _, superseded⟩, _⟩
  · simp [published]
  · simp [skipped]
  · simp [superseded]

theorem scheduled_commit (scheduled : world.scheduled investigationId = true) :
    (world.commit effect).scheduled investigationId = true := by
  obtain ⟨job, member, isScheduled⟩ := List.any_eq_true.mp scheduled
  have kept := List.mem_map_of_mem (f := (·.task)) member
  rw [← settle_tasks world.jobs effect.settled] at kept
  obtain ⟨other, otherMember, sameTask⟩ := List.mem_map.mp kept
  refine List.any_eq_true.mpr ⟨other, List.mem_append_left _ otherMember, ?_⟩
  rw [sameTask]
  exact isScheduled

theorem archive_commit (world : World) (effect : Effect) (investigationId : Uuid) :
    (world.commit effect).archive investigationId = world.archive investigationId ∧
        (effect.report = none ∨ effect.investigationId ≠ investigationId) ∨
      effect.investigationId = investigationId ∧ ∃ report, effect.report = some report ∧
        (world.commit effect).archive investigationId =
          world.archive investigationId ++ [report] := by
  cases published : effect.report with
  | none => exact .inl ⟨by simp [World.commit, published, Archive.extend], .inl rfl⟩
  | some report =>
      by_cases same : effect.investigationId = investigationId
      · subst same
        exact .inr ⟨rfl, report, rfl, by simp [World.commit, published, Archive.extend]⟩
      · refine .inl ⟨?_, .inr same⟩
        simp [World.commit, published, Archive.extend, Function.update_of_ne (Ne.symm same)]

variable (covering : Covering digests known investigationId world)
  (separates : digests.Separates known)
  (held : ∀ pair ∈ world.pairs investigationId, pair ∈ known)
  (only : OnlyCorrects investigationId action)

include covering in
theorem Covering.latest_sound {report : ReportVersion}
    (latest : world.latest investigationId = some report) :
    Sound digests known investigationId report :=
  covering.rows report (latestVersion_mem latest)

include covering in
theorem Covering.unexpanded {index : Nat} {payload : ReanalysisPayload}
    (queued : world.task? index = some (.reanalysis payload))
    (own : payload.investigationId = investigationId) : payload.reason ≠ .expansion := by
  rw [covering.corrections index payload queued own]
  simp

include held in
theorem held_artifact {index : Nat} {payload : StagePayload} {artifact : RetrievalArtifact}
    (queued : world.task? index = some (.assessment payload artifact))
    (own : payload.investigationId = investigationId) :
    ∀ pair ∈ artifact.pairs, pair ∈ known := by
  intro pair member
  have task := List.mem_map_of_mem (f := (·.task)) (task?_mem queued)
  exact held pair (List.mem_flatMap.mpr
    ⟨_, List.mem_filter.mpr ⟨task, by simpa [Task.investigationId] using own⟩, member⟩)

include commits covering separates held in
theorem sound_commit (own : effect.investigationId = investigationId) {report : ReportVersion}
    (published : effect.report = some report) : Sound digests known investigationId report := by
  have builds (request : Publication) (target : request.investigationId = investigationId)
      (ok : Reports.publication identify world.archive request = .ok report)
      (unexpanded : ∀ full sourceId, request.builder ≠ .expansion full sourceId)
      (outcomes : ∀ outcomes captureOpen depth,
        request.builder = .assessment outcomes captureOpen depth →
          ∀ outcome ∈ outcomes, Identified digests known outcome.evidence) :
      Sound digests known investigationId report := by
    obtain ⟨built, identity, accepted, same, owner, _⟩ := publication_ok ok
    obtain ⟨cited, named, distinct, identified⟩ := build_sound accepted
      (fun previous latest => covering.latest_sound (by rw [← target]; exact latest))
      unexpanded outcomes
    refine ⟨?_, ?_, ?_, ?_, owner.trans target⟩ <;> rw [same]
    · exact cited.fixture _
    · exact named
    · exact distinct
    · exact identified
  cases commits with
  | extracted _ built | corrected _ _ built | reconciled _ built =>
      obtain rfl := Option.some.inj published
      exact builds _ own built (by simp) (by simp)
  | expanded queued expansion => exact absurd expansion (covering.unexpanded queued own)
  | @assessed index payload artifact id createdAt captureOpen answer base _ queued latest
      current built =>
      obtain rfl := Option.some.inj published
      refine builds _ own built (by simp) ?_
      rintro outcomes _ _ ⟨⟩ outcome member item belongs
      obtain ⟨named, origin, isKnown, isItem⟩ := (outcome_evidence
        (covering.artifacts index payload artifact queued own).1 separates
          (held_artifact held queued own) member).1 item belongs
      exact ⟨origin, by rw [named]; exact isKnown, by rw [named, isItem]⟩
  | waited _ _ unpublished => simp [unpublished.2.1] at published
  | _ => simp [finished, failed] at published

include covering separates held in
/-- Validation refuses no assessment of the investigation. -/
theorem Covering.valid {index : Nat} {payload : StagePayload} {artifact : RetrievalArtifact}
    (queued : world.task? index = some (.assessment payload artifact))
    (own : payload.investigationId = investigationId) {base : ReportVersion}
    (latest : world.latest payload.investigationId = some base) {id : Uuid}
    {createdAt : Timestamp} {captureOpen : Bool} {answer : Nat → RouterAnswer}
    {refused : BuildError} :
    Reports.publication identify world.archive ⟨payload.investigationId, id, createdAt,
      .assessment (assessmentOutcomes digests answer artifact base (payload.baseVersion + 1)
        captureOpen) captureOpen payload.depth⟩ ≠ .error refused := by
  have sound := covering.latest_sound (own ▸ latest)
  have assessable := (covering.artifacts index payload artifact queued own).1
  obtain ⟨report, ok⟩ := publication_assessment identify latest (sound.owner.trans own.symm)
    fun identity => (validateCitations_iff _).mpr
      (merged_cited assessable separates (held_artifact held queued own) sound.cited
        sound.identified)
  intro refusal
  rw [ok] at refusal
  simp at refusal

include commits covering separates held in
/-- A run for a claim that ends has attempted it, lost its version to a correction, or handed on
to the next job. -/
theorem handover {index : Nat} {state : JobState} (settled : effect.settled = some (index, state))
    {task : Task} (queued : world.task? index = some task) {base : ReportVersion}
    (stored : base ∈ world.archive investigationId) (reconciled : base.reconciliation.isSome)
    {claim : Claim} (serves : task.Serves investigationId base claim) :
    Ran (world.commit effect) investigationId claim ∨
      Waiting (world.commit effect) investigationId claim := by
  obtain ⟨own, ⟨payload, isPayload, isBase⟩, named, meaning⟩ := serves
  have force := covering.runs index task payload queued own isPayload
  -- the ended job, with its result, is still for the claim
  have ran (ended : (Job.mk task state).Attempted ∨ (Job.mk task state).Superseded ∧
      Corrected (world.archive investigationId) base.version) :
      Ran (world.commit effect) investigationId claim := by
    refine ⟨base, rows_commit stored, ⟨task, state⟩, settled_commit settled queued,
      ⟨own, ⟨payload, isPayload, isBase⟩, named, meaning⟩, ?_⟩
    exact ended.imp_right fun lost => ⟨lost.1, lost.2.commit⟩
  have waits (next : Task) (enqueued : effect.enqueued = some next)
      (serves : next.Serves investigationId base claim) :
      Waiting (world.commit effect) investigationId claim :=
    ⟨base, rows_commit stored, reconciled, world.jobs.length, next,
      (task?_commit commits).mpr (.inr ⟨rfl, enqueued⟩), serves⟩
  have overtaken (stale : ∀ latest, world.latest investigationId = some latest →
      latest.version ≠ payload.baseVersion) :
      Corrected (world.archive investigationId) base.version := by
    refine force.overtaken (covering.numbered _) ?_ stored isBase.symm reconciled
    intro last
    have latest := (covering.numbered investigationId).latest_of_version stored
      (isBase.symm.trans last)
    exact stale base latest isBase.symm
  cases commits with
  | extracted | scheduled | corrected | requested => simp at settled
  | snapshotLost queued' | reconciled queued' =>
      simp only [failed, Option.some.injEq, Prod.mk.injEq] at settled
      obtain ⟨rfl, rfl⟩ := settled
      obtain rfl := Option.some.inj (queued.symm.trans queued')
      simp [Task.payload?] at isPayload
  | planned queued' content =>
      simp only [finished, Option.some.injEq, Prod.mk.injEq] at settled
      obtain ⟨rfl, rfl⟩ := settled
      obtain rfl := Option.some.inj (queued.symm.trans queued')
      simp only [Task.payload?, content, if_false, Option.some.injEq] at isPayload
      subst isPayload
      exact .inr (waits _ rfl ⟨own, ⟨_, rfl, isBase⟩, named, meaning⟩)
  | waited queued' expansion unpublished =>
      obtain ⟨_, _, state', ends, _⟩ := unpublished
      rw [ends, Option.some.injEq, Prod.mk.injEq] at settled
      obtain ⟨rfl, rfl⟩ := settled
      obtain rfl := Option.some.inj (queued.symm.trans queued')
      simp [Task.payload?, expansion] at isPayload
  | expanded queued' expansion =>
      simp only [finished, Option.some.injEq, Prod.mk.injEq] at settled
      obtain ⟨rfl, rfl⟩ := settled
      obtain rfl := Option.some.inj (queued.symm.trans queued')
      simp [Task.payload?, expansion] at isPayload
  | @unavailable _ payload' _ _ _ queued' missing =>
      simp only [failed, Option.some.injEq, Prod.mk.injEq] at settled
      obtain ⟨rfl, rfl⟩ := settled
      obtain rfl := Option.some.inj (queued.symm.trans queued')
      have target : payload'.investigationId = investigationId := own
      rw [target] at missing
      have empty : world.archive investigationId = [] := List.argmax_eq_none.mp missing
      simp [empty] at stored
  | @retrieved index payload' claimLimit searched artifact queued' found =>
      simp only [finished, Option.some.injEq, Prod.mk.injEq] at settled
      obtain ⟨rfl, rfl⟩ := settled
      obtain rfl := Option.some.inj (queued.symm.trans queued')
      obtain rfl := Option.some.inj isPayload
      obtain ⟨report, latest, ⟨stale, superseded⟩ | ⟨current, unsuperseded, claims⟩⟩ :=
        retrieval_ok found
      · refine .inl (ran (.inr ⟨.inr ⟨artifact, superseded, rfl⟩, overtaken ?_⟩))
        intro other isLatest
        rw [← own, Task.investigationId, latest, Option.some.injEq] at isLatest
        exact isLatest ▸ stale
      · have isReport : report = base := (covering.numbered investigationId).eq_of_version
          (latestVersion_mem (own ▸ latest)) stored (current.trans isBase)
        subst isReport
        have names : artifact.claims.map (·.claimId) = (scope payload' report).map (·.id) := by
          rw [claims, retrieveAt_claimIds]
        have among : claim.id ∈ artifact.claims.map (·.claimId) := names ▸ named
        have nonempty : artifact.claims ≠ [] := by
          rintro none
          simp [none] at among
        refine .inr (waits (.assessment payload' artifact) ?_
          ⟨own, ⟨payload', rfl, isBase⟩, among, meaning⟩)
        simp [finished, successor, nonempty, unsuperseded]
  | @skipped index payload' artifact _ _ _ _ queued' stale =>
      simp only [finished, Option.some.injEq, Prod.mk.injEq] at settled
      obtain ⟨rfl, rfl⟩ := settled
      obtain rfl := Option.some.inj (queued.symm.trans queued')
      obtain rfl := Option.some.inj isPayload
      rcases stale with superseded | stale
      · rw [(covering.artifacts _ _ _ queued own).2] at superseded
        simp at superseded
      · refine .inl (ran (.inr ⟨.inl rfl, overtaken ?_⟩))
        intro latest isLatest
        have target : payload'.investigationId = investigationId := own
        exact stale latest (by rw [target]; exact isLatest)
  | @assessed index payload' artifact _ _ _ _ _ _ queued' =>
      simp only [finished, Option.some.injEq, Prod.mk.injEq] at settled
      obtain ⟨rfl, rfl⟩ := settled
      obtain rfl := Option.some.inj (queued.symm.trans queued')
      exact .inl (ran (.inl ⟨payload', artifact, _, rfl, rfl⟩))
  | @invalid index payload' artifact _ _ _ _ _ _ _ queued' latest current refusal =>
      simp only [failed, Option.some.injEq, Prod.mk.injEq] at settled
      obtain ⟨rfl, rfl⟩ := settled
      obtain rfl := Option.some.inj (queued.symm.trans queued')
      exact absurd refusal (covering.valid separates held queued own latest)

include commits covering separates held in
theorem waiting_commit {claim : Claim} (waiting : Waiting world investigationId claim) :
    Ran (world.commit effect) investigationId claim ∨
      Waiting (world.commit effect) investigationId claim := by
  obtain ⟨base, stored, reconciled, index, task, queued, serves⟩ := waiting
  by_cases ends : ∃ state, effect.settled = some (index, state)
  · obtain ⟨state, settled⟩ := ends
    exact handover commits covering separates held settled queued stored reconciled serves
  · refine .inr ⟨base, rows_commit stored, reconciled, index, task, ?_, serves⟩
    refine (task?_commit commits).mpr (.inl ⟨queued, ?_⟩)
    rintro ended state settled rfl
    exact ends ⟨state, settled⟩

include commits covering in
theorem commit_publishes (own : effect.investigationId = investigationId)
    {report : ReportVersion} (published : effect.report = some report) :
    Publishes world investigationId effect report := by
  cases commits with
  | extracted unscheduled built =>
      obtain rfl := Option.some.inj published
      obtain ⟨made, identity, accepted, same, _⟩ := publication_ok built
      cases Builder.build_built identify accepted with
      | extracted => exact .extracted (own ▸ unscheduled) (by rw [same]; rfl) rfl rfl
  | corrected latest _ built =>
      obtain rfl := Option.some.inj published
      obtain ⟨made, identity, accepted, same, _⟩ := publication_ok built
      cases Builder.build_built identify accepted with
      | corrected isLatest corrected =>
          obtain rfl := Option.some.inj (latest.symm.trans isLatest)
          subst own
          exact .corrected latest corrected same rfl rfl
  | reconciled queued built =>
      obtain rfl := Option.some.inj published
      obtain ⟨made, identity, accepted, same, _⟩ := publication_ok built
      cases Builder.build_built identify accepted with
      | reconciled latest unfinished revised =>
          subst own
          refine .reconciled latest ?_ (by rw [same]; rfl) queued rfl rfl
          simp only [ReportVersion.open, Bool.and_eq_true, Option.isNone_iff_eq_none] at unfinished
          exact unfinished.2
  | expanded queued expansion => exact absurd expansion (covering.unexpanded queued own)
  | @assessed index payload artifact id createdAt captureOpen answer base _ queued latest
      current built =>
      obtain rfl := Option.some.inj published
      obtain ⟨made, identity, accepted, same, _⟩ := publication_ok built
      cases Builder.build_built identify accepted with
      | merged isLatest =>
          obtain rfl := Option.some.inj (latest.symm.trans isLatest)
          refine .assessed (own ▸ latest) current queued own rfl rfl (by rw [same]; rfl)
            (by rw [same]; rfl) ?_
          intro assessment member outside
          refine ⟨assessment.renewed identity.version captureOpen, ?_, rfl⟩
          rw [same]
          refine List.mem_append_left _ (List.mem_map_of_mem (List.mem_filter.mpr ⟨member, ?_⟩))
          have unscoped : assessment.claimId ∉ assessedScope (assessmentOutcomes digests answer
              artifact base (payload.baseVersion + 1) captureOpen) := by
            intro inScope
            obtain ⟨outcome, among, isNamed⟩ := List.mem_map.mp inScope
            obtain ⟨retrieval, belongs, about⟩ :=
              assessmentOutcomes_about (List.mem_of_mem_filter among)
            refine outside (List.mem_map.mpr ⟨retrieval, belongs, ?_⟩)
            rw [← about.claim, isNamed]
          simpa using unscoped
  | waited _ _ unpublished => simp [unpublished.2.1] at published
  | _ => simp [finished, failed] at published

theorem latest_published (numbered : ∀ target, Numbered (world.archive target))
    (commits : Commits digests identify world action effect)
    (own : effect.investigationId = investigationId) {report : ReportVersion}
    (published : effect.report = some report) :
    report.version = (world.archive investigationId).length + 1 ∧
      (world.commit effect).latest investigationId = some report ∧
      report ∈ (world.commit effect).archive investigationId := by
  have stored : report ∈ (world.commit effect).archive investigationId :=
    mem_extend.mpr (.inr ⟨published, own⟩)
  have next : report.version = (world.archive investigationId).length + 1 := by
    obtain ⟨request, target, ok⟩ := commits.publication published
    obtain ⟨_, _, _, _, _, version⟩ := publication_ok ok
    rw [(numbered _).next, target, own] at version
    exact version
  refine ⟨next, (commits.numbered numbered _).latest_of_version stored ?_, stored⟩
  simp [World.commit, published, Archive.extend, own, next]

include covering in
theorem Covering.stored_version {report : ReportVersion}
    (stored : report ∈ world.archive investigationId) :
    report.version ≤ (world.archive investigationId).length :=
  ((covering.numbered investigationId).bound stored).2

include covering in
include commits covering in
theorem reconciled_commit {report : ReportVersion}
    (stored : report ∈ (world.commit effect).archive investigationId)
    (reconciled : report.reconciliation.isSome) :
    (world.commit effect).scheduled investigationId = true ∧
      ∀ latest, (world.commit effect).latest investigationId = some latest →
        latest.reconciliation.isSome := by
  have earlier {row : ReportVersion} (stored : row ∈ world.archive investigationId)
      (reconciled : row.reconciliation.isSome) :
      (world.commit effect).scheduled investigationId = true :=
    scheduled_commit (covering.scheduled row stored reconciled)
  rcases archive_commit world effect investigationId with ⟨same, _⟩ | ⟨own, fresh, published, _⟩
  · rw [same] at stored
    refine ⟨earlier stored reconciled, ?_⟩
    intro latest isLatest
    rw [World.latest, same] at isLatest
    exact covering.lasting report stored reconciled latest isLatest
  · obtain ⟨_, isFresh, _⟩ := latest_published covering.numbered commits own published
    have first := mem_extend.mp stored
    rw [published] at first
    simp only [Option.some.injEq, own, and_true] at first
    suffices held : (world.commit effect).scheduled investigationId = true ∧
        fresh.reconciliation.isSome by
      refine ⟨held.1, ?_⟩
      intro latest isLatest
      obtain rfl := Option.some.inj (isFresh.symm.trans isLatest)
      exact held.2
    cases commit_publishes commits covering own published with
    | extracted unscheduled unreconciled =>
        rcases first with old | rfl
        · rw [covering.scheduled report old reconciled] at unscheduled
          simp at unscheduled
        · simp [unreconciled] at reconciled
    | @corrected base body requestId identity made latest corrected same =>
        obtain ⟨claim, corrects⟩ := correctedReport_ok corrected
        have kept : fresh.reconciliation = base.reconciliation := by
          rw [same]
          exact corrects.reconciliation
        have lasts : base.reconciliation.isSome := by
          rcases first with old | rfl
          · exact covering.lasting report old reconciled base latest
          · exact kept ▸ reconciled
        exact ⟨earlier (latestVersion_mem latest) lasts, kept ▸ lasts⟩
    | reconciled latest unreconciled isReconciled queued =>
        refine ⟨scheduled_commit ?_, isReconciled⟩
        exact List.any_eq_true.mpr ⟨_, task?_mem queued, by simp⟩
    | @assessed base index payload artifact version latest current queued target ends adds claims
        kept =>
        have lasts : base.reconciliation.isSome := by
          rcases first with old | rfl
          · exact covering.lasting report old reconciled base latest
          · exact kept ▸ reconciled
        exact ⟨earlier (latestVersion_mem latest) lasts, kept ▸ lasts⟩

include commits only in
/-- A new evidence run of the investigation is on the version published with it, or goes on with
the run that has ended. -/
theorem enqueued_run {task : Task} (enqueued : effect.enqueued = some task)
    (own : task.investigationId = investigationId) {payload : StagePayload}
    (isPayload : task.payload? = some payload) :
    (∃ report, effect.report = some report ∧ payload.baseVersion = report.version) ∨
      effect.report = none ∧ ∃ index state ended, effect.settled = some (index, state) ∧
        world.task? index = some ended ∧ ended.investigationId = investigationId ∧
        ended.payload? = some payload := by
  cases commits with
  | extracted | snapshotLost | unavailable | invalid => simp [failed] at enqueued
  | scheduled =>
      obtain rfl := Option.some.inj enqueued
      simp [Task.payload?] at isPayload
  | corrected =>
      obtain rfl := Option.some.inj enqueued
      obtain rfl := Option.some.inj isPayload
      exact .inl ⟨_, rfl, rfl⟩
  | requested _ _ uncorrected =>
      obtain rfl := Option.some.inj enqueued
      exact absurd (only own) uncorrected
  | reconciled _ built =>
      simp only [handoff] at enqueued
      split at enqueued
      · simp at enqueued
      · obtain rfl := Option.some.inj enqueued
        obtain rfl := Option.some.inj isPayload
        exact .inl ⟨_, rfl, rfl⟩
  | planned queued content =>
      obtain rfl := Option.some.inj enqueued
      refine .inr ⟨rfl, _, _, _, rfl, queued, own, ?_⟩
      simp only [Task.payload?, content, if_false]
      exact isPayload
  | waited queued expansion unpublished again =>
      obtain ⟨poll, rfl⟩ := again task enqueued
      simp [Task.payload?, expansion] at isPayload
  | expanded | skipped | assessed => simp [finished, successor] at enqueued
  | retrieved queued found =>
      simp only [finished, successor] at enqueued
      split at enqueued
      · obtain rfl := Option.some.inj enqueued
        exact .inr ⟨rfl, _, _, _, rfl, queued, own, isPayload⟩
      · simp at enqueued

include commits covering in
theorem inForce_commit {index : Nat} {task : Task} {payload : StagePayload}
    (queued : world.task? index = some task) (own : task.investigationId = investigationId)
    (isPayload : task.payload? = some payload)
    (remains : ∀ ended state, effect.settled = some (ended, state) → ended ≠ index) :
    InForce ((world.commit effect).archive investigationId) payload := by
  have force := covering.runs index task payload queued own isPayload
  rcases archive_commit world effect investigationId with ⟨same, _⟩ | ⟨ownEffect, fresh, published, _⟩
  · rw [same]
    exact force
  · obtain ⟨base, stored, isBase, follows⟩ := force
    obtain ⟨next, _, freshStored⟩ := latest_published covering.numbered commits ownEffect published
    refine ⟨base, rows_commit stored, isBase, ?_⟩
    intro reconciled
    right
    rcases follows reconciled with last | corrected
    · have latest := (covering.numbered investigationId).latest_of_version stored
        (isBase.trans last)
      cases commit_publishes commits covering ownEffect published with
      | extracted unscheduled =>
          rw [covering.scheduled base stored reconciled] at unscheduled
          simp at unscheduled
      | corrected isLatest corrected same =>
          obtain rfl := Option.some.inj (latest.symm.trans isLatest)
          exact ⟨base, rows_commit stored, isBase, fresh, freshStored, by omega, _, _, _,
            corrected, same⟩
      | reconciled isLatest unreconciled =>
          obtain rfl := Option.some.inj (latest.symm.trans isLatest)
          simp [unreconciled] at reconciled
      | @assessed _ endedIndex payload' artifact _ isLatest current queued' target ends =>
          obtain rfl := Option.some.inj (latest.symm.trans isLatest)
          have one := covering.single endedIndex index _ task payload' payload queued' queued
            target own rfl isPayload (current.symm.trans isBase)
          exact absurd one (remains _ _ ends)
    · exact corrected.commit

include commits covering only in
theorem runs_commit {index : Nat} {task : Task} {payload : StagePayload}
    (queued : (world.commit effect).task? index = some task)
    (own : task.investigationId = investigationId) (isPayload : task.payload? = some payload) :
    InForce ((world.commit effect).archive investigationId) payload := by
  rcases (task?_commit commits).mp queued with ⟨earlier, remains⟩ | ⟨_, enqueued⟩
  · exact inForce_commit commits covering earlier own isPayload remains
  · rcases enqueued_run commits only enqueued own isPayload with
      ⟨report, published, isBase⟩ | ⟨unpublished, ended, state, before, _, queued', own', same⟩
    · have ownEffect := (commits.enqueues enqueued).symm.trans own
      obtain ⟨next, _, stored⟩ := latest_published covering.numbered commits ownEffect published
      refine ⟨report, stored, isBase.symm, fun _ => .inl ?_⟩
      rw [isBase, next]
      simp [World.commit, published, Archive.extend, ownEffect]
    · have force := covering.runs ended before payload queued' own' same
      rcases archive_commit world effect investigationId with ⟨kept, _⟩ | ⟨_, _, published, _⟩
      · rw [kept]
        exact force
      · simp [unpublished] at published

include commits covering only in
theorem single_commit {first second : Nat} {task other : Task} {payload payload' : StagePayload}
    (queued : (world.commit effect).task? first = some task)
    (queued' : (world.commit effect).task? second = some other)
    (own : task.investigationId = investigationId)
    (own' : other.investigationId = investigationId) (isPayload : task.payload? = some payload)
    (isPayload' : other.payload? = some payload')
    (same : payload.baseVersion = payload'.baseVersion) : first = second := by
  -- an older run is not on the version of the one that is enqueued
  have apart {index : Nat} {old new : Task} {oldPayload newPayload : StagePayload}
      (earlier : world.task? index = some old)
      (remains : ∀ ended state, effect.settled = some (ended, state) → ended ≠ index)
      (enqueued : effect.enqueued = some new) (oldOwn : old.investigationId = investigationId)
      (newOwn : new.investigationId = investigationId) (isOld : old.payload? = some oldPayload)
      (isNew : new.payload? = some newPayload) :
      oldPayload.baseVersion ≠ newPayload.baseVersion := by
    intro equal
    rcases enqueued_run commits only enqueued newOwn isNew with
      ⟨report, published, isBase⟩ | ⟨_, ended, state, before, settled, before', own', isBefore⟩
    · have ownEffect := (commits.enqueues enqueued).symm.trans newOwn
      obtain ⟨next, _, _⟩ := latest_published covering.numbered commits ownEffect published
      obtain ⟨base, stored, isStored, _⟩ := covering.runs index old oldPayload earlier oldOwn isOld
      have bound := covering.stored_version stored
      omega
    · exact remains ended state settled (covering.single ended index before old _ _ before'
        earlier own' oldOwn isBefore isOld equal.symm)
  rcases (task?_commit commits).mp queued with ⟨earlier, remains⟩ | ⟨isLast, enqueued⟩
  · rcases (task?_commit commits).mp queued' with ⟨earlier', _⟩ | ⟨_, enqueued⟩
    · exact covering.single first second task other payload payload' earlier earlier' own own'
        isPayload isPayload' same
    · exact absurd same (apart earlier remains enqueued own own' isPayload isPayload')
  · rcases (task?_commit commits).mp queued' with ⟨earlier', remains'⟩ | ⟨isLast', _⟩
    · exact absurd same.symm (apart earlier' remains' enqueued own' own isPayload' isPayload)
    · rw [isLast, isLast']

include commits covering only in
theorem corrections_commit {index : Nat} {payload : ReanalysisPayload}
    (queued : (world.commit effect).task? index = some (.reanalysis payload))
    (own : payload.investigationId = investigationId) : payload.reason = .correction := by
  rcases (task?_commit commits).mp queued with ⟨earlier, _⟩ | ⟨_, enqueued⟩
  · exact covering.corrections index payload earlier own
  · cases commits with
    | corrected =>
        obtain rfl := Task.reanalysis.inj (Option.some.inj enqueued)
        rfl
    | requested _ _ uncorrected =>
        obtain rfl := Task.reanalysis.inj (Option.some.inj enqueued)
        exact absurd (only own) uncorrected
    | waited isQueued expansion unpublished again =>
        obtain ⟨poll, isTask⟩ := again _ enqueued
        obtain rfl := Task.reanalysis.inj isTask
        exact absurd expansion (covering.unexpanded isQueued own)
    | reconciled =>
        simp only [handoff] at enqueued
        split at enqueued <;> simp at enqueued
    | retrieved =>
        simp only [finished, successor] at enqueued
        split at enqueued <;> simp at enqueued
    | _ => simp [finished, failed, successor] at enqueued

include commits covering in
theorem artifacts_commit {index : Nat} {payload : StagePayload} {artifact : RetrievalArtifact}
    (queued : (world.commit effect).task? index = some (.assessment payload artifact))
    (own : payload.investigationId = investigationId) :
    Assessable digests artifact ∧ artifact.superseded = false := by
  rcases (task?_commit commits).mp queued with ⟨earlier, _⟩ | ⟨_, enqueued⟩
  · exact covering.artifacts index payload artifact earlier own
  · cases commits with
    | retrieved queued found =>
        simp only [finished, successor] at enqueued
        split at enqueued
        · rename_i handed
          obtain ⟨rfl, rfl⟩ := Task.assessment.inj (Option.some.inj enqueued)
          obtain ⟨report, latest, ⟨_, superseded⟩ | ⟨_, unsuperseded, claims⟩⟩ :=
            retrieval_ok found
          · simp [superseded] at handed
          · refine ⟨⟨?_, ?_⟩, unsuperseded⟩
            · intro retrieval member
              rw [claims] at member
              obtain ⟨entry, _, rfl⟩ := List.mem_map.mp member
              exact retrieveAt_retrieved _ _ _ _
            · rw [claims, retrieveAt_claimIds]
              have distinct := (covering.latest_sound (own ▸ latest)).distinct
              rw [scope]
              split
              · exact distinct.sublist (List.filter_sublist.map _)
              · exact distinct
        · simp at enqueued
    | waited _ _ _ again =>
        obtain ⟨poll, isTask⟩ := again _ enqueued
        simp at isTask
    | reconciled =>
        simp only [handoff] at enqueued
        split at enqueued <;> simp at enqueued
    | _ => simp [finished, failed, successor] at enqueued

include commits covering in
theorem published_commit {job : Job} (member : job ∈ (world.commit effect).jobs)
    {reportId : Option Uuid} {limited : Bool}
    (isTask : job.task = .reconciliation investigationId reportId limited)
    (isPublished : job.state = .published .reconciled) :
    ∃ report ∈ (world.commit effect).archive investigationId, report.reconciliation.isSome := by
  rcases mem_commit commits member with earlier | ⟨index, settled, queued⟩ | ⟨_, fresh⟩
  · obtain ⟨report, stored, reconciled⟩ :=
      covering.published job earlier reportId limited isTask isPublished
    exact ⟨report, rows_commit stored, reconciled⟩
  · obtain ⟨_, task, isQueued, owner⟩ := commits.settles settled
    obtain rfl := Option.some.inj (queued.symm.trans isQueued)
    rw [isTask] at owner
    have own : effect.investigationId = investigationId := owner.symm
    rw [isPublished] at settled
    cases published : effect.report with
    | none =>
        cases commits with
        | waited queued' =>
            rename_i unpublished _
            obtain ⟨_, _, state, ends, _⟩ := unpublished
            rw [ends, Option.some.injEq, Prod.mk.injEq] at settled
            rw [← settled.1, queued', isTask] at queued
            simp at queued
        | reconciled => simp at published
        | _ => simp [finished, failed] at settled
    | some report =>
        obtain ⟨_, _, stored⟩ := latest_published covering.numbered commits own published
        refine ⟨report, stored, ?_⟩
        cases commit_publishes commits covering own published with
        | extracted _ _ keeps => simp [keeps] at settled
        | corrected _ _ _ keeps => simp [keeps] at settled
        | reconciled _ _ reconciled => exact reconciled
        | assessed _ _ _ _ ends => simp [ends] at settled
  · simp [isPublished] at fresh

include commits covering separates held in
/-- Every claim of the latest version stays covered. -/
theorem covered_commit {latest : ReportVersion}
    (isLatest : (world.commit effect).latest investigationId = some latest)
    (reconciled : latest.reconciliation.isSome) {claim : Claim} (member : claim ∈ latest.claims)
    (current : claim.supersededByOccurrenceId = none) :
    Covered (world.commit effect) investigationId latest claim := by
  -- what covered a claim of the version before still does
  have carries {previous : ReportVersion} {old : Claim}
      (before : world.latest investigationId = some previous)
      (lasts : previous.reconciliation.isSome) (oldMember : old ∈ previous.claims)
      (oldCurrent : old.supersededByOccurrenceId = none) :
      Assessed previous old ∨ Ran (world.commit effect) investigationId old ∨
        Waiting (world.commit effect) investigationId old := by
    rcases covering.covered previous before lasts old oldMember oldCurrent with
      assessed | ran | waiting
    · exact .inl assessed
    · exact .inr (.inl (ran.commit commits))
    · exact .inr (waiting_commit commits covering separates held waiting)
  rcases archive_commit world effect investigationId with ⟨same, _⟩ | ⟨own, fresh, published, _⟩
  · rw [World.latest, same] at isLatest
    exact carries isLatest reconciled member current
  · obtain ⟨next, isFresh, stored⟩ := latest_published covering.numbered commits own published
    obtain rfl := Option.some.inj (isFresh.symm.trans isLatest)
    have waits (task : Task) (enqueued : effect.enqueued = some task)
        (serves : task.Serves investigationId fresh claim) :
        Covered (world.commit effect) investigationId fresh claim :=
      .inr (.inr ⟨fresh, stored, reconciled, world.jobs.length, task,
        (task?_commit commits).mpr (.inr ⟨rfl, enqueued⟩), serves⟩)
    cases commit_publishes commits covering own published with
    | extracted _ unreconciled => simp [unreconciled] at reconciled
    | @corrected base body requestId identity made before corrected same _ adds =>
        obtain ⟨target, corrects⟩ := correctedReport_ok corrected
        have lasts : base.reconciliation.isSome := by
          rw [same] at reconciled
          exact corrects.reconciliation ▸ reconciled
        have isClaims : fresh.claims = made.claims := by rw [same]
        have isAssessments : fresh.assessments = made.assessments := by rw [same]
        have among := member
        rw [isClaims, corrects.claims] at among
        obtain ⟨item, belongs, isItem⟩ := List.mem_map.mp among
        by_cases named : item.id = target.id
        · -- the corrected claim gets a run of its own
          rw [if_pos named] at isItem
          have isNamed : claim.id = body.claimId := by
            rw [← isItem]
            exact corrects.claimId
          refine waits _ adds ⟨rfl, ⟨_, rfl, rfl⟩, ?_, claim, member, rfl, rfl⟩
          refine List.mem_map_of_mem (List.mem_filter.mpr ⟨member, ?_⟩)
          simp [isNamed]
        · rw [if_neg named] at isItem
          subst isItem
          rcases carries before lasts belongs current with ⟨assessment, held, isFor⟩ | later
          · left
            refine ⟨assessment.reversioned identity.version, ?_, isFor⟩
            rw [isAssessments, corrects.assessments]
            refine List.mem_map_of_mem (List.mem_filter.mpr ⟨held, ?_⟩)
            simpa [isFor] using named
          · exact .inr later
    | @reconciled previous index reportId limited before _ _ _ _ adds =>
        by_cases assessed : Assessed fresh claim
        · exact .inl assessed
        · have pending : claim.id ∈ pendingClaims fresh := by
            refine List.mem_map_of_mem (List.mem_filter.mpr ⟨member, ?_⟩)
            have unassessed : claim.id ∉ fresh.assessments.map (·.claimId) := by
              intro known
              obtain ⟨assessment, held, isFor⟩ := List.mem_map.mp known
              exact assessed ⟨assessment, held, isFor⟩
            simpa [current] using unassessed
          have sound := sound_commit commits covering separates held own published
          have nonempty : pendingClaims fresh ≠ [] := List.ne_nil_of_mem pending
          rw [handoff, if_neg nonempty] at adds
          refine waits _ adds ⟨sound.owner, ⟨_, rfl, rfl⟩, ?_, claim, member, rfl, rfl⟩
          refine List.mem_map_of_mem (List.mem_filter.mpr ⟨member, ?_⟩)
          simpa using pending
    | @assessed base index payload artifact version before onBase queued target ends _ claims
        kept carried =>
        rw [kept] at reconciled
        rw [claims] at member
        by_cases named : claim.id ∈ artifact.claims.map (·.claimId)
        · exact .inr (handover commits covering separates held ends queued
            (latestVersion_mem before) reconciled
            ⟨target, ⟨payload, rfl, onBase.symm⟩, named, claim, member, rfl, rfl⟩)
        · rcases carries before reconciled member current with ⟨assessment, held, isFor⟩ | later
          · obtain ⟨renewed, isRenewed, same⟩ := carried assessment held (isFor ▸ named)
            exact .inl ⟨renewed, isRenewed, same.trans isFor⟩
          · exact .inr later

include commits covering separates held only in
theorem Covering.commit : Covering digests known investigationId (world.commit effect) where
  numbered := commits.numbered covering.numbered
  rows := by
    intro report stored
    rcases mem_extend.mp stored with earlier | ⟨published, own⟩
    · exact covering.rows report earlier
    · exact sound_commit commits covering separates held own published
  scheduled _ stored reconciled := (reconciled_commit commits covering stored reconciled).1
  lasting _ stored reconciled := (reconciled_commit commits covering stored reconciled).2
  runs _ _ _ queued own isPayload := runs_commit commits covering only queued own isPayload
  single _ _ _ _ _ _ queued queued' own own' isPayload isPayload' same :=
    single_commit commits covering only queued queued' own own' isPayload isPayload' same
  corrections _ _ queued own := corrections_commit commits covering only queued own
  artifacts _ _ _ queued own := artifacts_commit commits covering queued own
  published _ member _ _ isTask isPublished :=
    published_commit commits covering member isTask isPublished
  covered _ isLatest reconciled _ member current :=
    covered_commit commits covering separates held isLatest reconciled member current

end Commit

end Ovrly.Evidence
