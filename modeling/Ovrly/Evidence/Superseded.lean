import Ovrly.Evidence.Commits
import Ovrly.Evidence.Validity
import Ovrly.Reports.Links

/-!
Superseded appearances are never assessed, unless a request asks for them.

A reconciliation schedules evidence for the claims that are not superseded, but a deeper search
takes every claim of its version and a correction the claim it names.
-/

namespace Ovrly.Evidence

open Runs
open Ovrly.Reports
open Ovrly.Extraction (Fresh groundedClaims groundedClaims_fresh)

/-- No assessment and no evidence item of the report is for the claim. -/
def Unassessed (report : ReportVersion) (claimId : String) : Prop :=
  (∀ assessment ∈ report.assessments, assessment.claimId ≠ claimId) ∧
    ∀ item ∈ report.evidence, item.claimId ≠ claimId

def SparesSuperseded (report : ReportVersion) : Prop :=
  ∀ claim ∈ report.claims, claim.supersededByOccurrenceId ≠ none → Unassessed report claim.id

def Current (claims : List Claim) (claimId : String) : Prop :=
  ∀ claim ∈ claims, claim.id = claimId → claim.supersededByOccurrenceId = none

def Agreeing (claims : List Claim) : Prop :=
  ∀ claim ∈ claims, claim.supersededByOccurrenceId = none → Current claims claim.id

structure Clean (report : ReportVersion) : Prop where
  cited : Cited report
  named : Named report.claims
  agreeing : Agreeing report.claims
  spares : SparesSuperseded report

theorem Clean.fixture {report : ReportVersion} (clean : Clean report) (fixture : Bool) :
    Clean { report with fixture } :=
  ⟨clean.cited.fixture fixture, clean.named, clean.agreeing, clean.spares⟩

/-- A claim of one list answers to a claim of the other with its identifier, superseded or not
as that one is. -/
def Matches (claims next : List Claim) : Prop :=
  ∀ claim ∈ next, ∃ old ∈ claims, old.id = claim.id ∧
    (old.supersededByOccurrenceId = none ↔ claim.supersededByOccurrenceId = none)

theorem Matches.agreeing {claims next : List Claim} (same : Matches claims next)
    (agreeing : Agreeing claims) : Agreeing next := by
  intro first firstMember current second secondMember sameId
  obtain ⟨old, oldMember, oldId, oldCurrent⟩ := same first firstMember
  obtain ⟨other, otherMember, otherId, otherCurrent⟩ := same second secondMember
  have known := agreeing old oldMember (oldCurrent.mpr current)
  refine otherCurrent.mp (known other otherMember ?_)
  rw [otherId, sameId, oldId]

theorem Matches.current {claims next : List Claim} (same : Matches claims next)
    {claimId : String} (current : Current claims claimId) : Current next claimId := by
  intro claim member isNamed
  obtain ⟨old, oldMember, oldId, oldCurrent⟩ := same claim member
  exact oldCurrent.mp (current old oldMember (oldId.trans isNamed))

/-- A version whose claims match those of a clean one, and whose assessments and evidence are
among its own. -/
theorem SparesSuperseded.carry {base next : ReportVersion} (spares : SparesSuperseded base)
    (same : Matches base.claims next.claims)
    (assessments : ∀ assessment ∈ next.assessments, ∃ old ∈ base.assessments,
      old.claimId = assessment.claimId)
    (evidence : ∀ item ∈ next.evidence, ∃ old ∈ base.evidence, old.claimId = item.claimId) :
    SparesSuperseded next := by
  intro claim member superseded
  obtain ⟨old, oldMember, sameId, oldCurrent⟩ := same claim member
  obtain ⟨unassessed, unproved⟩ := spares old oldMember fun current =>
    superseded (oldCurrent.mp current)
  constructor
  · intro assessment belongs named
    obtain ⟨earlier, earlierMember, isNamed⟩ := assessments assessment belongs
    exact unassessed earlier earlierMember (by rw [isNamed, named, sameId])
  · intro item belongs named
    obtain ⟨earlier, earlierMember, isNamed⟩ := evidence item belongs
    exact unproved earlier earlierMember (by rw [isNamed, named, sameId])

theorem mem_reversioned {assessments : List Assessment} {version : Nat} {assessment : Assessment}
    (member : assessment ∈ assessments.map (Assessment.reversioned version)) :
    ∃ old ∈ assessments, old.claimId = assessment.claimId := by
  obtain ⟨old, belongs, rfl⟩ := List.mem_map.mp member
  exact ⟨old, belongs, rfl⟩

/-! ### What each builder does to superseded claims -/

theorem extractedVersion_spares {incremental : Bool} {previous : Option ReportVersion}
    {claims : List Claim} {provenance : List ProcessingAttempt} {identity : NextVersion}
    (fresh : ∀ claim ∈ claims, Fresh claim)
    (holds : ∀ report, previous = some report → Clean report) :
    Agreeing (extractedVersion incremental previous claims provenance identity).claims ∧
      SparesSuperseded
        (extractedVersion incremental previous claims provenance identity) := by
  cases previous with
  | none =>
      have same := extractedVersion_claims_first incremental claims provenance identity
      have current : ∀ claim ∈ (extractedVersion incremental none claims provenance
          identity).claims, claim.supersededByOccurrenceId = none :=
        fun claim member => (fresh claim (same.mem_iff.mp member)).superseded
      exact ⟨fun _ _ _ other member _ => current other member,
        fun claim member superseded => absurd (current claim member) superseded⟩
  | some report =>
      have clean := holds report rfl
      have same := extractedVersion_claims incremental claims provenance identity report
      have split : ∀ claim ∈ (extractedVersion incremental (some report) claims provenance
          identity).claims, claim ∈ report.claims ∨
            Fresh claim ∧ claim.id ∉ report.claims.map (·.id) := by
        intro claim member
        rcases List.mem_append.mp (same.mem_iff.mp member) with old | new
        · exact .inl old
        · obtain ⟨belongs, unknown⟩ := List.mem_filter.mp new
          have isFresh := fresh claim belongs
          refine .inr ⟨isFresh, ?_⟩
          intro known
          obtain ⟨other, otherMember, sameId⟩ := List.mem_map.mp known
          have absent : claim.occurrenceId ∉ report.claims.map (·.occurrenceId) := by
            simpa using unknown
          refine absent (List.mem_map.mpr ⟨other, otherMember, ?_⟩)
          rw [clean.named other otherMember, isFresh.named, sameId]
      constructor
      · intro first firstMember current second secondMember sameId
        rcases split second secondMember with old | ⟨isFresh, _⟩
        · rcases split first firstMember with earlier | ⟨_, unknown⟩
          · exact clean.agreeing first earlier current second old sameId
          · exact absurd (List.mem_map.mpr ⟨second, old, sameId⟩) unknown
        · exact isFresh.superseded
      · intro claim member superseded
        rcases split claim member with old | ⟨isFresh, _⟩
        · obtain ⟨unassessed, unproved⟩ := clean.spares claim old superseded
          refine ⟨?_, unproved⟩
          intro assessment belongs
          obtain ⟨earlier, earlierMember, isNamed⟩ := mem_reversioned belongs
          exact isNamed ▸ unassessed earlier earlierMember
        · exact absurd isFresh.superseded superseded

/-- A reconciliation links a claim by its identifier alone, and invalidates what it
supersedes. -/
theorem reconcileClaims_superseded {output : Reconciliation} {previous : ReportVersion}
    {textOf : String → Option String} {now : Timestamp} {reconciled : Reconciled}
    (accepted : reconcileClaims output previous textOf now = .ok reconciled) :
    ∃ superseded : String → Option String,
      (∀ claim ∈ reconciled.claims, claim.supersededByOccurrenceId = superseded claim.id) ∧
        ∀ id, superseded id ≠ none → id ∈ reconciled.invalidated := by
  obtain ⟨_, _, _, revisions, _, revised, invalidated, -⟩ := reconcileClaims_ok accepted
  refine ⟨fun id => ((revisions.superseded.lookup id).bind
    (lastWith Claim.id previous.claims)).map (·.occurrenceId), ?_, ?_⟩
  · intro claim member
    obtain ⟨old, _, item, _, rfl⟩ := exists_of_forall₂ (reviseClaims_map revised) member
    rfl
  · intro id superseded
    rw [invalidated, List.mem_append]
    cases looked : revisions.superseded.lookup id with
    | none => simp [looked] at superseded
    | some later =>
        obtain ⟨before, after, whole, _⟩ := List.lookup_eq_some_iff.mp looked
        exact .inr (by simp [whole])

theorem reconcileClaims_agreeing {output : Reconciliation} {previous : ReportVersion}
    {textOf : String → Option String} {now : Timestamp} {reconciled : Reconciled}
    (accepted : reconcileClaims output previous textOf now = .ok reconciled) :
    Agreeing reconciled.claims := by
  obtain ⟨superseded, linked, _⟩ := reconcileClaims_superseded accepted
  intro first firstMember current second secondMember sameId
  rw [linked second secondMember, sameId, ← linked first firstMember]
  exact current

theorem reconciledVersion_spares {output : Reconciliation} {previous : ReportVersion}
    {textOf : String → Option String} {now : Timestamp} {reconciled : Reconciled}
    (accepted : reconcileClaims output previous textOf now = .ok reconciled) {explanation : String}
    {provenance : List ProcessingAttempt} {coverageLimited : Bool} {identity : NextVersion} :
    SparesSuperseded (reconciledVersion previous reconciled explanation provenance
      coverageLimited identity) := by
  obtain ⟨linkedTo, linked, invalidated⟩ := reconcileClaims_superseded accepted
  intro claim member superseded
  rw [linked claim member] at superseded
  have dropped := invalidated claim.id superseded
  constructor
  · intro assessment belongs named
    obtain ⟨old, oldMember, rfl⟩ := List.mem_map.mp belongs
    have kept := (List.mem_filter.mp oldMember).2
    rw [Assessment.reversioned_claimId] at named
    simp [named, dropped] at kept
  · intro item belongs named
    have kept := (List.mem_filter.mp belongs).2
    simp [named, dropped] at kept

theorem correctedReport_matches {base report : ReportVersion} {body : CorrectionReanalysis}
    {identity : NextVersion} (corrected : correctedReport base body identity = .ok report) :
    Matches base.claims report.claims ∧
      (∀ assessment ∈ report.assessments, ∃ old ∈ base.assessments,
        old.claimId = assessment.claimId) ∧
      ∀ item ∈ report.evidence, ∃ old ∈ base.evidence, old.claimId = item.claimId := by
  obtain ⟨claim, corrects⟩ := correctedReport_ok corrected
  rw [corrects.claims, corrects.assessments, corrects.evidence]
  refine ⟨?_, ?_, fun item member => ⟨item, List.mem_of_mem_filter member, rfl⟩⟩
  · intro next member
    obtain ⟨item, belongs, rfl⟩ := List.mem_map.mp member
    by_cases same : item.id = claim.id
    · rw [if_pos same]
      exact ⟨claim, corrects.member, rfl, Iff.rfl⟩
    · rw [if_neg same]
      exact ⟨item, belongs, rfl, Iff.rfl⟩
  · intro assessment member
    obtain ⟨old, belongs, isNamed⟩ := mem_reversioned member
    exact ⟨old, List.mem_of_mem_filter belongs, isNamed⟩

def OutcomesCurrent (base : ReportVersion) (outcomes : List ClaimOutcome) : Prop :=
  ∀ outcome ∈ outcomes, Current base.claims outcome.claimId ∧
    (∀ assessment ∈ outcome.assessment, assessment.claimId = outcome.claimId) ∧
    ∀ item ∈ outcome.evidence, item.claimId = outcome.claimId

theorem merged_spares {base : ReportVersion} {outcomes : List ClaimOutcome} {scope : List String}
    {captureOpen : Bool} {depth : Depth} {identity : NextVersion}
    (spares : SparesSuperseded base) (current : OutcomesCurrent base outcomes) :
    SparesSuperseded (merged base outcomes scope captureOpen depth identity) := by
  intro claim member superseded
  obtain ⟨unassessed, unproved⟩ := spares claim member superseded
  have apart : ∀ outcome ∈ outcomes, outcome.claimId ≠ claim.id :=
    fun outcome belongs same => superseded ((current outcome belongs).1 claim member same.symm)
  constructor
  · intro assessment belongs
    rcases List.mem_append.mp belongs with old | new
    · obtain ⟨earlier, kept, rfl⟩ := List.mem_map.mp old
      exact unassessed earlier (List.mem_of_mem_filter kept)
    · obtain ⟨concluded, given, rfl⟩ := List.mem_map.mp new
      obtain ⟨outcome, among, isGiven⟩ := List.mem_filterMap.mp given
      have named := (current outcome among).2.1 concluded isGiven
      exact named ▸ apart outcome among
  · intro item belongs
    rcases List.mem_append.mp belongs with old | new
    · exact unproved item (List.mem_of_mem_filter old)
    · obtain ⟨outcome, among, given⟩ := List.mem_flatMap.mp new
      have named := (current outcome (List.mem_of_mem_filter among)).2.2 item given
      exact named ▸ apart outcome (List.mem_of_mem_filter among)

theorem expanded_spares {clip full : ReportVersion} {sourceId : Uuid} {identity : NextVersion}
    (clipClean : Clean clip) (fullClean : Clean full)
    (agreeing : Agreeing (expanded clip full sourceId identity).claims) :
    SparesSuperseded (expanded clip full sourceId identity) := by
  intro claim member superseded
  -- a claim of either report under the identifier is superseded too, so that report spares it
  have both : ∀ other ∈ (expanded clip full sourceId identity).claims, other.id = claim.id →
      other.supersededByOccurrenceId ≠ none :=
    fun other belongs sameId current =>
      superseded (agreeing other belongs current claim member sameId.symm)
  have clipBoth : ∀ other ∈ clip.claims, other.id = claim.id → Unassessed clip other.id :=
    fun other belongs sameId => clipClean.spares other belongs
      (both other (by rw [expanded_claims]; exact List.mem_append_left _ belongs) sameId)
  have fullBoth : ∀ other ∈ full.claims,
      prefixed other.id (versionPrefix full.version) = claim.id → Unassessed full other.id := by
    intro other belongs sameId
    have carried := both (other.prefixed (versionPrefix full.version))
      (by
        rw [expanded_claims]
        exact List.mem_append_right _ (List.mem_map_of_mem belongs)) sameId
    exact fullClean.spares other belongs carried
  constructor
  · intro assessment belongs named
    rw [expanded_assessments] at belongs
    rcases List.mem_append.mp belongs with old | new
    · obtain ⟨earlier, earlierMember, isNamed⟩ := mem_reversioned old
      obtain ⟨other, otherMember, sameId⟩ := List.mem_map.mp
        (clipClean.cited.assessments earlier earlierMember).claim
      have unassessed := clipBoth other otherMember (by rw [sameId, isNamed, named])
      exact unassessed.1 earlier earlierMember sameId.symm
    · obtain ⟨earlier, earlierMember, rfl⟩ := List.mem_map.mp new
      obtain ⟨other, otherMember, sameId⟩ := List.mem_map.mp
        (fullClean.cited.assessments earlier earlierMember).claim
      have unassessed := fullBoth other otherMember (by rw [sameId]; exact named)
      exact unassessed.1 earlier earlierMember sameId.symm
  · intro item belongs named
    rw [expanded_evidence] at belongs
    rcases List.mem_append.mp belongs with old | new
    · obtain ⟨other, otherMember, sameId⟩ := List.mem_map.mp
        (clipClean.cited.evidenceOwned item old)
      exact (clipBoth other otherMember (by rw [sameId, named])).2 item old sameId.symm
    · obtain ⟨earlier, earlierMember, rfl⟩ := List.mem_map.mp new
      obtain ⟨other, otherMember, sameId⟩ := List.mem_map.mp
        (fullClean.cited.evidenceOwned earlier earlierMember)
      have unproved := fullBoth other otherMember (by rw [sameId]; exact named)
      exact unproved.2 earlier earlierMember sameId.symm

/-- Outcomes are for claims that are not superseded, and the claims an expansion brings together
agree. -/
def Builder.Spares (previous : ReportVersion) : Builder → Prop
  | .assessment outcomes _ _ => OutcomesCurrent previous outcomes
  | .expansion full _ =>
      Agreeing (previous.claims ++ full.claims.map (Claim.prefixed (versionPrefix full.version)))
  | _ => True

variable {identify : Uuid → List (String × Nat × Nat) → String}

theorem build_clean {builder : Builder} {previous : Option ReportVersion}
    {identity : NextVersion} {built : ReportVersion}
    (accepted : builder.build identify previous identity = .ok built)
    (holds : ∀ report, previous = some report → Clean report)
    (imported : ∀ full sourceId, builder = .expansion full sourceId → Clean full)
    (spares : ∀ report, previous = some report → Builder.Spares report builder) :
    Clean built := by
  have cited := Builder.build_cited accepted fun report latest => (holds report latest).cited
  have named := Builder.build_named accepted (fun report latest => (holds report latest).named)
    fun full sourceId isExpansion => (imported full sourceId isExpansion).named
  suffices kept : Agreeing built.claims ∧ SparesSuperseded built from
    ⟨cited, named, kept.1, kept.2⟩
  cases Builder.build_built identify accepted with
  | extracted grounded =>
      refine extractedVersion_spares (groundedClaims_fresh grounded).1 ?_
      intro report known
      split at known
      · exact holds report known
      · simp at known
  | reconciled _ _ revised =>
      exact ⟨reconcileClaims_agreeing revised, reconciledVersion_spares revised⟩
  | corrected latest corrected =>
      obtain ⟨same, assessments, evidence⟩ := correctedReport_matches corrected
      have clean := holds _ latest
      exact ⟨same.agreeing clean.agreeing, clean.spares.carry same assessments evidence⟩
  | merged latest =>
      have clean := holds _ latest
      have agreeing := clean.agreeing
      exact ⟨agreeing, merged_spares clean.spares (spares _ latest)⟩
  | expanded latest =>
      have agreeing := spares _ latest
      exact ⟨agreeing, expanded_spares (holds _ latest) (imported _ _ rfl) agreeing⟩

/-! ### Scopes -/

/-- The version a task is for is stored, and none of the claims it names there is superseded. -/
def NamesCurrent (archive : Archive) (task : Task) : Prop :=
  ∀ payload, task.payload? = some payload →
    payload.baseVersion ≤ (archive payload.investigationId).length ∧
      ∀ report ∈ archive payload.investigationId, report.version = payload.baseVersion →
        ∀ id ∈ task.names report, Current report.claims id

structure Sparing (world : World) : Prop where
  rows : ∀ investigationId, ∀ report ∈ world.archive investigationId, Clean report
  numbered : ∀ investigationId, Numbered (world.archive investigationId)
  tasks : ∀ job ∈ world.jobs, NamesCurrent world.archive job.task

/-- No accepted request asks for a superseded claim: a correction names another one, a deeper
search starts from a version without any, and an expansion brings no identifier together with
its own under which only some claims are superseded. -/
def AsksForCurrent (world : World) : Action → Prop
  | .request investigationId _ _ _ (.correction body) =>
      ∀ latest, world.latest investigationId = some latest → body.baseVersion = latest.version →
        ∀ claim, latest.claims.find? (·.id == body.claimId) = some claim →
          claim.proposition ≠ body.proposition → claim.supersededByOccurrenceId = none
  | .request investigationId _ _ _ (.deeper baseVersion) =>
      ∀ latest, world.latest investigationId = some latest → baseVersion = latest.version →
        ∀ claim ∈ latest.claims, claim.supersededByOccurrenceId = none
  | .reanalyse index _ _ =>
      ∀ payload sourceId clip full, world.task? index = some (.reanalysis payload) →
        payload.reason = .expansion → payload.sourceInvestigationId = some sourceId →
        world.latest payload.investigationId = some clip → world.latest sourceId = some full →
        Agreeing (clip.claims ++ full.claims.map (Claim.prefixed (versionPrefix full.version)))
  | _ => True

variable {digests : Digests} {world : World}

theorem Sparing.latest (sparing : Sparing world) {investigationId : Uuid} {report : ReportVersion}
    (latest : world.latest investigationId = some report) : Clean report :=
  sparing.rows investigationId report (latestVersion_mem latest)

theorem Sparing.queued (sparing : Sparing world) {index : Nat} {task : Task}
    (queued : world.task? index = some task) : NamesCurrent world.archive task :=
  sparing.tasks _ (task?_mem queued)

theorem NamesCurrent.outcomes {payload : StagePayload} {artifact : RetrievalArtifact}
    {answer : Nat → RouterAnswer} {base : ReportVersion} {version : Nat} {captureOpen : Bool}
    (names : NamesCurrent world.archive (.assessment payload artifact))
    (latest : world.latest payload.investigationId = some base)
    (current : base.version = payload.baseVersion) :
    OutcomesCurrent base
      (assessmentOutcomes digests answer artifact base version captureOpen) := by
  intro outcome member
  obtain ⟨retrieval, among, about⟩ := assessmentOutcomes_about member
  have spared := (names payload rfl).2 base (latestVersion_mem latest) current retrieval.claimId
    (List.mem_map_of_mem among)
  rw [about.claim]
  exact ⟨spared, about.owned⟩

theorem Commits.clean {action : Action} {effect : Effect}
    (commits : Commits digests identify world action effect) (sparing : Sparing world)
    (asks : AsksForCurrent world action) {report : ReportVersion}
    (published : effect.report = some report) : Clean report := by
  -- what a builder makes of the latest row is clean if the builder spares it
  have builds (request : Publication)
      (ok : Reports.publication identify world.archive request = .ok report)
      (imported : ∀ full sourceId, request.builder = .expansion full sourceId → Clean full)
      (spares : ∀ previous, world.latest request.investigationId = some previous →
        Builder.Spares previous request.builder) : Clean report := by
    obtain ⟨built, identity, accepted, same, _⟩ := publication_ok ok
    rw [same]
    exact (build_clean accepted (fun previous latest => sparing.latest latest) imported
      spares).fixture _
  cases commits with
  | extracted _ built | corrected _ _ built | reconciled _ built =>
      obtain rfl := Option.some.inj published
      exact builds _ built (by simp) fun _ _ => trivial
  | expanded queued expansion named source built =>
      obtain rfl := Option.some.inj published
      refine builds _ built ?_ fun clip latest =>
        asks _ _ clip _ queued expansion named latest source
      intro full sourceId same
      obtain ⟨rfl, rfl⟩ := Builder.expansion.inj same
      exact sparing.latest source
  | assessed queued latest current built =>
      obtain rfl := Option.some.inj published
      refine builds _ built (by simp) ?_
      intro previous isLatest
      obtain rfl := Option.some.inj (latest.symm.trans isLatest)
      exact (sparing.queued queued).outcomes latest current
  | waited _ _ unpublished => simp [unpublished.2.1] at published
  | _ => simp [finished, failed] at published

theorem NamesCurrent.extend {task : Task} (names : NamesCurrent world.archive task)
    (numbered : ∀ investigationId, Numbered (world.archive investigationId)) {action : Action}
    {effect : Effect} (commits : Commits digests identify world action effect) :
    NamesCurrent (world.commit effect).archive task := by
  intro payload isPayload
  obtain ⟨stored, current⟩ := names payload isPayload
  obtain ⟨longer, rows⟩ := commits.grows numbered payload.investigationId
  refine ⟨Nat.le_trans stored longer, ?_⟩
  intro report member isBase
  rcases rows report member with earlier | fresh
  · exact current report earlier isBase
  · omega

theorem mem_scope {payload : StagePayload} {ids : List String} {report : ReportVersion}
    (named : payload.claimIds = some ids) {id : String}
    (member : id ∈ (scope payload report).map (·.id)) : id ∈ ids := by
  obtain ⟨claim, belongs, rfl⟩ := List.mem_map.mp member
  rw [scope, named] at belongs
  simpa using (List.mem_filter.mp belongs).2

/-- A task whose base version is among the rows names current claims, if it does so in that
version. -/
theorem NamesCurrent.of_base {archive : Archive} {task : Task} {payload : StagePayload}
    (isPayload : task.payload? = some payload)
    (numbered : Numbered (archive payload.investigationId)) {base : ReportVersion}
    (stored : base ∈ archive payload.investigationId)
    (isBase : base.version = payload.baseVersion)
    (current : ∀ id ∈ task.names base, Current base.claims id) : NamesCurrent archive task := by
  intro other isOther
  obtain rfl := Option.some.inj (isPayload.symm.trans isOther)
  refine ⟨isBase ▸ (numbered.bound stored).2, ?_⟩
  intro report member version
  rw [numbered.eq_of_version member stored (version.trans isBase.symm)]
  exact current

theorem handoff_current {report : ReportVersion} (agreeing : Agreeing report.claims) :
    ∀ id ∈ pendingClaims report, Current report.claims id := by
  intro id pending
  obtain ⟨claim, member, rfl⟩ := List.mem_map.mp pending
  obtain ⟨belongs, waiting⟩ := List.mem_filter.mp member
  simp only [Bool.and_eq_true, Option.isNone_iff_eq_none] at waiting
  exact agreeing claim belongs waiting.1

/-- The corrected claim, had the correction named no superseded one. -/
theorem corrected_current {base report : ReportVersion} {body : CorrectionReanalysis}
    {identity : NextVersion} (corrected : correctedReport base body identity = .ok report)
    (clean : Clean base)
    (asks : ∀ claim, base.claims.find? (·.id == body.claimId) = some claim →
      claim.proposition ≠ body.proposition → claim.supersededByOccurrenceId = none) :
    Current report.claims body.claimId := by
  obtain ⟨claim, corrects⟩ := correctedReport_ok corrected
  refine (correctedReport_matches corrected).1.current ?_
  rw [← corrects.claimId]
  exact clean.agreeing claim corrects.member (asks claim corrects.found corrects.changed)

theorem Commits.namesCurrent {action : Action} {effect : Effect}
    (commits : Commits digests identify world action effect) (sparing : Sparing world)
    (asks : AsksForCurrent world action) {task : Task} (enqueued : effect.enqueued = some task) :
    NamesCurrent (world.commit effect).archive task := by
  have numbered := commits.numbered sparing.numbered
  have extend {queued : Task} (names : NamesCurrent world.archive queued) :=
    names.extend sparing.numbered commits
  cases commits with
  | extracted | snapshotLost | unavailable | invalid => simp [failed] at enqueued
  | scheduled =>
      obtain rfl := Option.some.inj enqueued
      simp [NamesCurrent, Task.payload?]
  | @corrected investigationId requestId id createdAt body base report latest current built =>
      obtain rfl := Option.some.inj enqueued
      obtain ⟨made, identity, accepted, same, _⟩ := publication_ok built
      have spared : Current report.claims body.claimId := by
        cases Builder.build_built identify accepted with
        | corrected isLatest corrected =>
            obtain rfl := Option.some.inj (latest.symm.trans isLatest)
            have named := corrected_current corrected (sparing.latest latest)
              (asks base latest current)
            rw [same]
            exact named
      refine NamesCurrent.of_base rfl (numbered _) (mem_extend.mpr (.inr ⟨rfl, rfl⟩)) rfl ?_
      intro other named
      obtain rfl := List.mem_singleton.mp (mem_scope rfl named)
      exact spared
  | @requested investigationId requestId id createdAt body base source latest current uncorrected =>
      obtain rfl := Option.some.inj enqueued
      cases body with
      | correction body => simp [Reanalysis.reason] at uncorrected
      | expansion => simp [NamesCurrent, Task.payload?, Reanalysis.reason]
      | deeper baseVersion =>
          refine extend (NamesCurrent.of_base rfl (sparing.numbered _)
            (latestVersion_mem latest) rfl ?_)
          intro other _ claim member _
          exact asks base latest current claim member
  | @reconciled index investigationId reportId upstreamLimited answer report limited queued built =>
      simp only [handoff] at enqueued
      split at enqueued
      · simp at enqueued
      · obtain rfl := Option.some.inj enqueued
        obtain ⟨made, identity, accepted, same, owner, _⟩ := publication_ok built
        have agreeing : Agreeing report.claims := by
          cases Builder.build_built identify accepted with
          | reconciled _ _ revised =>
              rw [same]
              exact reconcileClaims_agreeing revised
        refine NamesCurrent.of_base rfl (numbered _) (mem_extend.mpr (.inr ⟨rfl, owner.symm⟩))
          rfl ?_
        intro id named
        exact handoff_current agreeing id (mem_scope rfl named)
  | planned queued content =>
      obtain rfl := Option.some.inj enqueued
      have names := extend (sparing.queued queued)
      simp only [NamesCurrent, Task.payload?, content, if_false] at names ⊢
      exact names
  | waited queued expansion unpublished again =>
      obtain ⟨poll, rfl⟩ := again task enqueued
      simp [NamesCurrent, Task.payload?, expansion]
  | expanded | skipped | assessed => simp [finished, successor] at enqueued
  | @retrieved index payload claimLimit searched artifact queued found =>
      simp only [finished, successor] at enqueued
      split at enqueued
      · rename_i handed
        obtain rfl := Option.some.inj enqueued
        obtain ⟨report, latest, ⟨_, superseded⟩ | ⟨isBase, _, claims⟩⟩ := retrieval_ok found
        · simp [superseded] at handed
        · have names := (sparing.queued queued) payload rfl
          refine extend (NamesCurrent.of_base rfl (sparing.numbered _)
            (latestVersion_mem latest) isBase ?_)
          intro id named
          refine names.2 report (latestVersion_mem latest) isBase id ?_
          rwa [Task.names, claims, retrieveAt_claimIds] at named
      · simp at enqueued

theorem Sparing.commit (sparing : Sparing world) {action : Action}
    (asks : AsksForCurrent world action) {effect : Effect}
    (commits : Commits digests identify world action effect) : Sparing (world.commit effect) where
  rows := by
    intro investigationId report member
    rcases mem_extend.mp member with earlier | ⟨published, _⟩
    · exact sparing.rows investigationId report earlier
    · exact commits.clean sparing asks published
  numbered := commits.numbered sparing.numbered
  tasks := by
    intro job member
    rcases task_commit commits member with ⟨old, oldMember, same⟩ | enqueued
    · rw [same]
      exact (sparing.tasks old oldMember).extend sparing.numbered commits
    · exact commits.namesCurrent sparing asks enqueued

theorem Sparing.empty : Sparing World.empty where
  rows := by simp [World.empty, Archive.empty]
  numbered _ := Numbered.empty
  tasks := by simp [World.empty]

/-- In every run whose accepted requests ask for current claims only, no stored version holds an
assessment or evidence for a superseded claim, and the scope of no evidence job has one. -/
theorem superseded_unassessed {actions : List Action}
    (met : Meets (World.step digests identify) AsksForCurrent World.empty actions) :
    let world := exec (World.step digests identify) World.empty actions
    (∀ investigationId, ∀ report ∈ world.archive investigationId, SparesSuperseded report) ∧
      ∀ job ∈ world.jobs, ∀ payload, job.task = .retrieval payload →
        ∀ report ∈ world.archive payload.investigationId, report.version = payload.baseVersion →
          ∀ claim ∈ scope payload report, claim.supersededByOccurrenceId = none := by
  have sparing := exec_invariant_of_meets Sparing (fun world action asks sparing =>
    World.step_preserves (fun effect commits => sparing.commit asks commits) sparing)
    Sparing.empty met
  refine ⟨fun investigationId report member =>
    (sparing.rows investigationId report member).spares, ?_⟩
  intro job member payload isRetrieval report stored isBase claim among
  have names := sparing.tasks job member
  rw [isRetrieval] at names
  have belongs : claim ∈ report.claims := by
    rw [scope] at among
    split at among
    · exact List.mem_of_mem_filter among
    · exact among
  exact (names payload rfl).2 report stored isBase claim.id (List.mem_map_of_mem among) claim
    belongs rfl

/-! ### A reconciled video -/

def nothingFound (_ : Nat) : Searched :=
  .found ⟨[], List.nodup_nil⟩ 0 0 [] false

def extractVideo : Action :=
  .extract videoId "v1" 0 true exampleOccurrences exampleWindow []

def reconcileVideo (index : Nat) : Action :=
  .reconcile index {
    id := "v2"
    createdAt := 0
    output := exampleReconciliation
    textOf := fun id => (exampleWindow.observation? id).map (·.text)
    now := 0
    provenance := []
    coverageLimited := false }

def reconciledVideo : List Action := [extractVideo, .schedule videoId false, reconcileVideo 0]

def evidenceRun (index : Nat) (id : Uuid) : List Action :=
  [.reanalyse index "" 0, .retrieve (index + 1) 12 nothingFound,
    .assess (index + 2) id 0 false fun _ => .unavailable]

def exampleWorld (actions : List Action) : World :=
  exec (World.step exampleDigests exampleIdentify) World.empty actions

def assessesSuperseded (report : ReportVersion) : Bool :=
  report.claims.any fun claim => claim.supersededByOccurrenceId.isSome &&
    report.assessments.any (·.claimId == claim.id)

/-- A deeper search of the reconciled video assesses the superseded claim. -/
theorem deeper_assesses_superseded :
    ¬∀ actions investigationId, ∀ report ∈ (exampleWorld actions).archive investigationId,
      SparesSuperseded report := by
  intro always
  have assessed : ((exampleWorld (reconciledVideo ++
      .request videoId "r1" "" 0 (.deeper 2) :: evidenceRun 2 "v3")).archive videoId).any
        assessesSuperseded = true := by decide +kernel
  obtain ⟨report, stored, assesses⟩ := List.any_eq_true.mp assessed
  simp only [assessesSuperseded, List.any_eq_true, Bool.and_eq_true, Option.isSome_iff_ne_none,
    beq_iff_eq] at assesses
  obtain ⟨claim, member, superseded, assessment, belongs, named⟩ := assesses
  exact (always _ _ report stored claim member superseded).1 assessment belongs named

def correctVideo : CorrectionReanalysis where
  baseVersion := 2
  claimId := "e0d3d170-b643-50da-9cba-9139a388c60a"
  proposition := "The dam stood."
  bounded := by decide

/-- Correcting the claim that was not superseded keeps the other one unassessed. -/
theorem superseded_unassessed_example :
    ((exampleWorld (reconciledVideo ++ .request videoId "r1" "v3" 0 (.correction correctVideo) ::
        evidenceRun 2 "v4")).archive videoId).length = 4 ∧
      ∀ report ∈ (exampleWorld (reconciledVideo ++
        .request videoId "r1" "v3" 0 (.correction correctVideo) ::
          evidenceRun 2 "v4")).archive videoId, SparesSuperseded report := by
  refine ⟨by decide +kernel, ?_⟩
  refine (@superseded_unassessed exampleIdentify exampleDigests _ ?_).1 videoId
  rw [meets_append]
  refine ⟨⟨trivial, trivial, trivial, trivial⟩, ?_, ?_, trivial, trivial, trivial⟩
  · have current : ((exampleWorld reconciledVideo).latest videoId).all fun latest =>
        (latest.claims.find? (·.id == correctVideo.claimId)).all fun claim =>
          claim.supersededByOccurrenceId.isNone := by decide +kernel
    intro latest isLatest _ claim found _
    have isLatest' : (exampleWorld reconciledVideo).latest videoId = some latest := isLatest
    rw [isLatest'] at current
    simp only [Option.all_some, found, Option.isNone_iff_eq_none] at current
    exact current
  · have correction : ((exampleWorld (reconciledVideo ++
        [.request videoId "r1" "v3" 0 (.correction correctVideo)])).task? 2).all fun task =>
          task.payload?.isSome := by decide +kernel
    intro payload _ _ _ queued expansion
    have queued' : (exampleWorld (reconciledVideo ++
        [.request videoId "r1" "v3" 0 (.correction correctVideo)])).task? 2 =
          some (.reanalysis payload) := queued
    rw [queued'] at correction
    simp [Task.payload?, expansion] at correction

end Ovrly.Evidence
