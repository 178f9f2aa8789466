import Ovrly.Reports.Citations
import Ovrly.Reports.Reconcile
import Mathlib.Data.List.MinMax

/-!
The five builders of report versions and `publish_report_version`.

`extractedVersion` and `reconciledVersion` are the `build` closures of the two pipeline stages,
the others carry the source's own names. A builder sees the version it supersedes and the
identity of the next one, and `publishReportVersion` hands that identity out.
-/

namespace Ovrly.Reports

open Ovrly.Extraction (ExtractionInvalid ObservationWindow Occurrence groundedClaims)

inductive BuildError
  | apiError (status : Nat) (code message : String)
  | extractionInvalid (invalid : ExtractionInvalid)
  | citationInvalid (invalid : CitationInvalid)
  | publishRejected (reason : String)
  | nonRetriableInput (message : String)
  | valueError (message : String)
  deriving DecidableEq, Repr

inductive Depth
  | standard
  | deeper
  deriving DecidableEq, Repr

/-! ### Extraction -/

/-- `(interval.start_ms, interval.end_ms, id)` in tuple order. -/
def claimLE (first second : Claim) : Prop :=
  first.interval.startMs < second.interval.startMs ∨
    (first.interval.startMs = second.interval.startMs ∧
      (first.interval.endMs < second.interval.endMs ∨
        (first.interval.endMs = second.interval.endMs ∧ first.id ≤ second.id)))

instance : DecidableRel claimLE := fun _ _ => inferInstanceAs (Decidable (_ ∨ _))

def unknownClaims (previous : ReportVersion) (claims : List Claim) : List Claim :=
  claims.filter fun claim => !(previous.claims.map (·.occurrenceId)).contains claim.occurrenceId

def extractionSummary (incremental : Bool) : String :=
  if incremental then
    "Cumulative provisional extraction; newly added claims are not assessed or reconciled. " ++
      "Intervals are source observation envelopes."
  else
    "Provisional claim extraction from one observation window; not assessed or reconciled. " ++
      "Intervals are source observation envelopes."

/-- `previous` is the latest version of an incremental run, and absent otherwise. -/
def extractedVersion (incremental : Bool) (previous : Option ReportVersion) (claims : List Claim)
    (provenance : List ProcessingAttempt) (identity : NextVersion) : ReportVersion where
  id := identity.id
  investigationId := identity.investigationId
  version := identity.version
  createdAt := identity.createdAt
  provisional := true
  supersedes := identity.supersedes
  changeSummary := extractionSummary incremental
  claims :=
    let published := match previous with
      | none => claims
      | some previous => previous.claims ++ unknownClaims previous claims
    if incremental then published.insertionSort claimLE else published
  evidence := (previous.map (·.evidence)).getD []
  assessments :=
    ((previous.map (·.assessments)).getD []).map (Assessment.reversioned identity.version)
  processingAttempts := some (((previous.bind (·.processingAttempts)).getD []) ++ provenance)

section Extracted

variable (incremental : Bool) (previous : Option ReportVersion) (claims : List Claim)
  (provenance : List ProcessingAttempt) (identity : NextVersion)

@[simp] theorem extractedVersion_version :
    (extractedVersion incremental previous claims provenance identity).version =
      identity.version := rfl

@[simp] theorem extractedVersion_evidence :
    (extractedVersion incremental previous claims provenance identity).evidence =
      (previous.map (·.evidence)).getD [] := rfl

@[simp] theorem extractedVersion_assessments :
    (extractedVersion incremental previous claims provenance identity).assessments =
      ((previous.map (·.assessments)).getD []).map
        (Assessment.reversioned identity.version) := rfl

theorem extractedVersion_claims (previous : ReportVersion) :
    (extractedVersion incremental (some previous) claims provenance identity).claims.Perm
      (previous.claims ++ unknownClaims previous claims) := by
  cases incremental
  · exact List.Perm.refl _
  · exact List.perm_insertionSort _ _

theorem extractedVersion_claims_first :
    (extractedVersion incremental none claims provenance identity).claims.Perm claims := by
  cases incremental
  · exact List.Perm.refl _
  · exact List.perm_insertionSort _ _

end Extracted

/-! ### Reconciliation -/

def reconciledVersion (previous : ReportVersion) (reconciled : Reconciled) (explanation : String)
    (provenance : List ProcessingAttempt) (coverageLimited : Bool) (identity : NextVersion) :
    ReportVersion :=
  { previous with
    id := identity.id
    version := identity.version
    createdAt := identity.createdAt
    supersedes := identity.supersedes
    provisional := true
    changeSummary := explanation
    claims := reconciled.claims
    processingAttempts := some (previous.processingAttempts.getD [] ++ provenance)
    evidence := previous.evidence.filter fun item => !reconciled.invalidated.contains item.claimId
    assessments := (previous.assessments.filter fun item =>
      !reconciled.invalidated.contains item.claimId).map (Assessment.reversioned identity.version)
    reconciliation := some ⟨coverageLimited, reconciled.reassessment⟩ }

/-! ### Correction -/

structure CorrectionReanalysis where
  baseVersion : Nat
  claimId : String
  proposition : String
  bounded : 0 < proposition.length ∧ proposition.length ≤ 2000

def correctedClaim (claim : Claim) (proposition : String) (now : Timestamp) : Claim :=
  { claim with proposition, correction := some ⟨.user, now, claim.proposition⟩ }

def correctedReport (base : ReportVersion) (body : CorrectionReanalysis) (identity : NextVersion) :
    Except BuildError ReportVersion :=
  match base.claims.find? (·.id == body.claimId) with
  | none =>
      .error (.apiError 422 "CLAIM_NOT_IN_VERSION" "The claim is not part of this report version")
  | some claim =>
      if claim.proposition = body.proposition then
        .error (.apiError 422 "CORRECTION_UNCHANGED"
          "The corrected meaning equals the current one")
      else
        .ok { base with
          id := identity.id
          version := identity.version
          createdAt := identity.createdAt
          provisional := true
          changeSummary :=
            "Correction: the user corrected the normalized meaning of claim " ++ claim.id ++
              "; its evidence and assessment will be rerun. Version " ++
              toString base.version ++ " is kept."
          supersedes := identity.supersedes
          claims := base.claims.map fun item =>
            if item.id = claim.id then correctedClaim claim body.proposition identity.createdAt
            else item
          evidence := base.evidence.filter fun item => item.claimId != claim.id
          assessments := (base.assessments.filter fun item => item.claimId != claim.id).map
            (Assessment.reversioned identity.version) }

structure Corrects (base : ReportVersion) (body : CorrectionReanalysis) (identity : NextVersion)
    (report : ReportVersion) (claim : Claim) : Prop where
  member : claim ∈ base.claims
  found : base.claims.find? (·.id == body.claimId) = some claim
  claimId : claim.id = body.claimId
  changed : claim.proposition ≠ body.proposition
  claims : report.claims = base.claims.map fun item =>
    if item.id = claim.id then correctedClaim claim body.proposition identity.createdAt else item
  evidence : report.evidence = base.evidence.filter fun item => item.claimId != claim.id
  assessments : report.assessments = (base.assessments.filter fun item =>
    item.claimId != claim.id).map (Assessment.reversioned identity.version)
  version : report.version = identity.version
  reconciliation : report.reconciliation = base.reconciliation

theorem correctedReport_ok {base report : ReportVersion} {body : CorrectionReanalysis}
    {identity : NextVersion} (corrected : correctedReport base body identity = .ok report) :
    ∃ claim, Corrects base body identity report claim := by
  simp only [correctedReport] at corrected
  split at corrected
  · simp at corrected
  · rename_i claim found
    split at corrected
    · simp at corrected
    · rename_i changed
      rw [Except.ok.injEq] at corrected
      subst corrected
      have named : claim.id = body.claimId := by simpa using List.find?_some found
      exact ⟨claim, List.mem_of_find?_eq_some found, found, named, changed, rfl, rfl, rfl, rfl,
        rfl⟩

/-! ### Assessment -/

structure ClaimOutcome where
  claimId : String
  assessment : Option Assessment
  evidence : List Evidence
  reason : Option String
  deriving DecidableEq, Repr

def assessedScope (outcomes : List ClaimOutcome) : List String :=
  (outcomes.filter (·.assessment.isSome)).map (·.claimId)

/-- `outcome.reason or "unknown"` -/
def ClaimOutcome.unassessedReason (outcome : ClaimOutcome) : String :=
  match outcome.reason with
  | none | some "" => "unknown"
  | some reason => reason

/-- `sorted(unassessed.items())` -/
def unassessedReasons (outcomes : List ClaimOutcome) : List (String × Nat) :=
  let reasons := (outcomes.filter (·.assessment.isNone)).map (·.unassessedReason)
  (reasons.dedup.insertionSort (· ≤ ·)).map fun reason => (reason, reasons.count reason)

def mergedSummary (outcomes : List ClaimOutcome) (provisional : Bool) (depth : Depth) : String :=
  let done := (outcomes.filter (·.assessment.isSome)).length
  let unassessed := unassessedReasons outcomes
  "Evidence check" ++ (if depth = .deeper then " (deeper search)" else "") ++ ": " ++
    toString done ++ " of " ++ toString outcomes.length ++
    " claims in scope assessed against Scholarxiv results." ++
    (if unassessed.isEmpty then ""
      else " Kept visible but unassessed: " ++ String.intercalate ", " (unassessed.map fun entry =>
        toString entry.2 ++ " " ++
          String.ofList (entry.1.toList.map fun letter => if letter = '_' then ' ' else letter)) ++
        ".") ++
    (if provisional then " The report stays provisional." else "")

def Assessment.renewed (version : Nat) (captureOpen : Bool) (assessment : Assessment) :
    Assessment :=
  { assessment with version, provisional := captureOpen }

def waits (base : ReportVersion) (assessments : List Assessment) (outcomes : List ClaimOutcome)
    (claim : Claim) : Bool :=
  claim.supersededByOccurrenceId.isNone && !(assessments.map (·.claimId)).contains claim.id &&
    !(outcomes.map (·.claimId)).contains claim.id && base.provisional

/-- The merged version before its citations are validated. -/
def merged (base : ReportVersion) (outcomes : List ClaimOutcome) (scope : List String)
    (captureOpen : Bool) (depth : Depth) (identity : NextVersion) : ReportVersion :=
  let assessments :=
    (base.assessments.filter fun item => !scope.contains item.claimId).map
        (Assessment.renewed identity.version captureOpen) ++
      (outcomes.filterMap (·.assessment)).map (Assessment.renewed identity.version captureOpen)
  let provisional := captureOpen || base.claims.any (waits base assessments outcomes)
  { base with
    id := identity.id
    version := identity.version
    createdAt := identity.createdAt
    provisional
    changeSummary := String.ofList ((mergedSummary outcomes provisional depth).toList.take 600)
    supersedes := identity.supersedes
    evidence := (base.evidence.filter fun item => !scope.contains item.claimId) ++
      (outcomes.filter (·.assessment.isSome)).flatMap (·.evidence)
    assessments }

def mergedVersion (base : ReportVersion) (outcomes : List ClaimOutcome) (scope : List String)
    (captureOpen : Bool) (depth : Depth) (identity : NextVersion) :
    Except CitationInvalid ReportVersion := do
  let report := merged base outcomes scope captureOpen depth identity
  validateCitations report
  return report

theorem mergedVersion_ok {base report : ReportVersion} {outcomes : List ClaimOutcome}
    {scope : List String} {captureOpen : Bool} {depth : Depth} {identity : NextVersion}
    (accepted : mergedVersion base outcomes scope captureOpen depth identity = .ok report) :
    report = merged base outcomes scope captureOpen depth identity ∧
      validateCitations report = .ok () := by
  simp only [mergedVersion] at accepted
  cases valid : validateCitations (merged base outcomes scope captureOpen depth identity) with
  | error invalid => simp [valid, bind, Except.bind] at accepted
  | ok _ =>
      simp only [valid, bind, Except.bind, pure, Except.pure, Except.ok.injEq] at accepted
      subst accepted
      exact ⟨rfl, valid⟩

/-! ### Expansion -/

@[irreducible] def versionPrefix (version : Nat) : String := "fv" ++ toString version ++ "_"

@[irreducible] def prefixed (value pre : String) : String := String.ofList ((pre ++ value).toList.take 128)

def Claim.prefixed (pre : String) (claim : Claim) : Claim :=
  { claim with
    id := Reports.prefixed claim.id pre
    occurrenceId := Reports.prefixed claim.occurrenceId pre }

@[simp] theorem Claim.prefixed_id (pre : String) (claim : Claim) :
    (claim.prefixed pre).id = Reports.prefixed claim.id pre := rfl

@[simp] theorem Claim.prefixed_occurrenceId (pre : String) (claim : Claim) :
    (claim.prefixed pre).occurrenceId = Reports.prefixed claim.occurrenceId pre := rfl

@[simp] theorem Claim.prefixed_correctsOccurrenceId (pre : String) (claim : Claim) :
    (claim.prefixed pre).correctsOccurrenceId = claim.correctsOccurrenceId := rfl

@[simp] theorem Claim.prefixed_supersededByOccurrenceId (pre : String) (claim : Claim) :
    (claim.prefixed pre).supersededByOccurrenceId = claim.supersededByOccurrenceId := rfl

def Evidence.prefixed (pre : String) (item : Evidence) : Evidence :=
  { item with
    id := Reports.prefixed item.id pre
    claimId := Reports.prefixed item.claimId pre }

@[simp] theorem Evidence.prefixed_id (pre : String) (item : Evidence) :
    (item.prefixed pre).id = Reports.prefixed item.id pre := rfl

@[simp] theorem Evidence.prefixed_claimId (pre : String) (item : Evidence) :
    (item.prefixed pre).claimId = Reports.prefixed item.claimId pre := rfl

def EvidenceRelation.prefixed (pre : String) (relation : EvidenceRelation) : EvidenceRelation :=
  { relation with evidenceId := Reports.prefixed relation.evidenceId pre }

@[simp] theorem EvidenceRelation.prefixed_evidenceId (pre : String)
    (relation : EvidenceRelation) :
    (relation.prefixed pre).evidenceId = Reports.prefixed relation.evidenceId pre := rfl

def Assessment.prefixed (pre : String) (version : Nat) (item : Assessment) : Assessment :=
  { item with
    id := Reports.prefixed item.id pre
    claimId := Reports.prefixed item.claimId pre
    version
    relations := item.relations.map (EvidenceRelation.prefixed pre) }

@[simp] theorem Assessment.prefixed_claimId (pre : String) (version : Nat) (item : Assessment) :
    (item.prefixed pre version).claimId = Reports.prefixed item.claimId pre := rfl

@[simp] theorem Assessment.prefixed_relations (pre : String) (version : Nat)
    (item : Assessment) :
    (item.prefixed pre version).relations =
      item.relations.map (EvidenceRelation.prefixed pre) := rfl

@[simp] theorem Assessment.prefixed_overall (pre : String) (version : Nat) (item : Assessment) :
    (item.prefixed pre version).overall = item.overall := rfl

def expanded (clip full : ReportVersion) (sourceId : Uuid) (identity : NextVersion) :
    ReportVersion :=
  let pre := versionPrefix full.version
  { clip with
    id := identity.id
    version := identity.version
    createdAt := identity.createdAt
    provisional := clip.provisional || full.provisional
    changeSummary :=
      "Expanded to the confirmed full video: added " ++ toString full.claims.length ++
        " claims from investigation " ++ sourceId ++ " report version " ++
        toString full.version ++ ". The clip's own claims are kept; version " ++
        toString clip.version ++ " is unchanged."
    supersedes := identity.supersedes
    claims := clip.claims ++ full.claims.map (Claim.prefixed pre)
    evidence := clip.evidence ++ full.evidence.map (Evidence.prefixed pre)
    assessments := clip.assessments.map (Assessment.reversioned identity.version) ++
      full.assessments.map (Assessment.prefixed pre identity.version) }

theorem expanded_claims (clip full : ReportVersion) (sourceId : Uuid) (identity : NextVersion) :
    (expanded clip full sourceId identity).claims =
      clip.claims ++ full.claims.map (Claim.prefixed (versionPrefix full.version)) := rfl

theorem expanded_evidence (clip full : ReportVersion) (sourceId : Uuid) (identity : NextVersion) :
    (expanded clip full sourceId identity).evidence =
      clip.evidence ++ full.evidence.map (Evidence.prefixed (versionPrefix full.version)) := rfl

theorem expanded_assessments (clip full : ReportVersion) (sourceId : Uuid)
    (identity : NextVersion) :
    (expanded clip full sourceId identity).assessments =
      clip.assessments.map (Assessment.reversioned identity.version) ++ full.assessments.map
        (Assessment.prefixed (versionPrefix full.version) identity.version) := rfl

/-- The clip's claims plus the full video's, re-identified. -/
def expandedVersion (clip full : ReportVersion) (sourceId : Uuid) (identity : NextVersion) :
    Except CitationInvalid ReportVersion := do
  let report := expanded clip full sourceId identity
  validateCitations report
  return report

theorem expandedVersion_ok {clip full report : ReportVersion} {sourceId : Uuid}
    {identity : NextVersion} (accepted : expandedVersion clip full sourceId identity = .ok report) :
    report = expanded clip full sourceId identity ∧ validateCitations report = .ok () := by
  simp only [expandedVersion] at accepted
  cases valid : validateCitations (expanded clip full sourceId identity) with
  | error invalid => simp [valid, bind, Except.bind] at accepted
  | ok _ =>
      simp only [valid, bind, Except.bind, pure, Except.pure, Except.ok.injEq] at accepted
      subst accepted
      exact ⟨rfl, valid⟩

/-! ### Publishing -/

/-- What a publisher builds the next version from, besides the version it supersedes. -/
inductive Builder
  | extraction (incremental : Bool) (occurrences : List Occurrence) (window : ObservationWindow)
      (provenance : List ProcessingAttempt)
  | reconciliation (output : Reconciliation) (textOf : String → Option String) (now : Timestamp)
      (provenance : List ProcessingAttempt) (coverageLimited : Bool)
  | correction (body : CorrectionReanalysis)
  | assessment (outcomes : List ClaimOutcome) (captureOpen : Bool) (depth : Depth)
  | expansion (full : ReportVersion) (sourceId : Uuid)

def ReportVersion.open (report : ReportVersion) : Bool :=
  report.provisional && report.reconciliation.isNone

variable (identify : Uuid → List (String × Nat × Nat) → String)

def Builder.build (builder : Builder) (previous : Option ReportVersion) (identity : NextVersion) :
    Except BuildError ReportVersion :=
  match builder, previous with
  | .extraction incremental occurrences window provenance, previous =>
      match groundedClaims identify occurrences window identity.investigationId with
      | .error invalid => .error (.extractionInvalid invalid)
      | .ok claims =>
          if incremental then
            if previous.any (!·.open) then
              .error (.publishRejected "incremental report was finalized")
            else .ok (extractedVersion true previous claims provenance identity)
          else .ok (extractedVersion false none claims provenance identity)
  | .reconciliation output textOf now provenance coverageLimited, some previous =>
      if !previous.open then
        .error (.nonRetriableInput "Reconciliation snapshot was superseded")
      else
        match reconcileClaims output previous textOf now with
        | .error invalid => .error (.extractionInvalid invalid)
        | .ok reconciled =>
            .ok (reconciledVersion previous reconciled output.explanation provenance
              coverageLimited identity)
  | .reconciliation _ _ _ _ _, none =>
      .error (.nonRetriableInput "No provisional extraction is available")
  | .correction body, some base => correctedReport base body identity
  | .correction _, none =>
      .error (.apiError 409 "REPORT_NOT_AVAILABLE"
        "The check has no published report to reanalyse yet")
  | .assessment outcomes captureOpen depth, some base =>
      (mergedVersion base outcomes (assessedScope outcomes) captureOpen depth identity).mapError
        .citationInvalid
  | .assessment _ _ _, none =>
      .error (.nonRetriableInput "no published report version to retrieve evidence for")
  | .expansion full sourceId, some clip =>
      (expandedVersion clip full sourceId identity).mapError .citationInvalid
  | .expansion _ _, none => .error (.publishRejected "superseded")

/-- What a builder that does not refuse makes of the version it reads. -/
inductive Built (identity : NextVersion) (previous : Option ReportVersion) :
    Builder → ReportVersion → Prop
  | extracted {incremental occurrences window provenance claims}
      (grounded : groundedClaims identify occurrences window identity.investigationId = .ok claims)
      (unfinished : incremental = true → ∀ report, previous = some report → report.open = true) :
      Built identity previous (.extraction incremental occurrences window provenance)
        (extractedVersion incremental (if incremental then previous else none) claims provenance
          identity)
  | reconciled {output textOf now provenance coverageLimited report reconciled}
      (latest : previous = some report) (unfinished : report.open = true)
      (revised : reconcileClaims output report textOf now = .ok reconciled) :
      Built identity previous (.reconciliation output textOf now provenance coverageLimited)
        (reconciledVersion report reconciled output.explanation provenance coverageLimited identity)
  | corrected {body base report} (latest : previous = some base)
      (corrected : correctedReport base body identity = .ok report) :
      Built identity previous (.correction body) report
  | merged {outcomes captureOpen depth base} (latest : previous = some base)
      (valid : validateCitations (merged base outcomes (assessedScope outcomes) captureOpen depth
        identity) = .ok ()) :
      Built identity previous (.assessment outcomes captureOpen depth)
        (merged base outcomes (assessedScope outcomes) captureOpen depth identity)
  | expanded {full sourceId clip} (latest : previous = some clip)
      (valid : validateCitations (expanded clip full sourceId identity) = .ok ()) :
      Built identity previous (.expansion full sourceId) (expanded clip full sourceId identity)

theorem mapError_ok {ε ε' α : Type} {result : Except ε α} {change : ε → ε'} {value : α}
    (accepted : result.mapError change = .ok value) : result = .ok value := by
  cases result with
  | error refused => simp [Except.mapError] at accepted
  | ok value' =>
      rw [Except.mapError, Except.ok.injEq] at accepted
      rw [accepted]

theorem Builder.build_built {builder : Builder} {previous : Option ReportVersion}
    {identity : NextVersion} {built : ReportVersion}
    (accepted : builder.build identify previous identity = .ok built) :
    Built identify identity previous builder built := by
  cases builder with
  | extraction incremental occurrences window provenance =>
      simp only [Builder.build] at accepted
      split at accepted
      · simp at accepted
      · rename_i claims grounded
        cases incremental with
        | true =>
            simp only [if_true] at accepted
            split at accepted
            · simp at accepted
            · rename_i unfinished
              rw [Except.ok.injEq] at accepted
              subst accepted
              refine .extracted grounded ?_
              rintro _ report rfl
              simpa using unfinished
        | false =>
            simp only [Bool.false_eq_true, if_false, Except.ok.injEq] at accepted
            subst accepted
            exact .extracted grounded (by simp)
  | reconciliation output textOf now provenance coverageLimited =>
      cases previous with
      | none => simp [Builder.build] at accepted
      | some report =>
          simp only [Builder.build] at accepted
          split at accepted
          · simp at accepted
          · rename_i unfinished
            split at accepted
            · simp at accepted
            · rename_i reconciled revised
              rw [Except.ok.injEq] at accepted
              subst accepted
              exact .reconciled rfl (by simpa using unfinished) revised
  | correction body =>
      cases previous with
      | none => simp [Builder.build] at accepted
      | some base => exact .corrected rfl accepted
  | assessment outcomes captureOpen depth =>
      cases previous with
      | none => simp [Builder.build] at accepted
      | some base =>
          obtain ⟨rfl, valid⟩ := mergedVersion_ok (mapError_ok accepted)
          exact .merged rfl valid
  | expansion full sourceId =>
      cases previous with
      | none => simp [Builder.build] at accepted
      | some clip =>
          obtain ⟨rfl, valid⟩ := expandedVersion_ok (mapError_ok accepted)
          exact .expanded rfl valid

/-- The `fixture` flag a publisher passes on. -/
def Builder.fixture : Builder → Option ReportVersion → Bool
  | .extraction incremental _ _ _, previous => incremental && previous.any (·.fixture)
  | .expansion full _, previous => previous.any (·.fixture) || full.fixture
  | _, previous => previous.any (·.fixture)

/-- `ORDER BY version DESC LIMIT 1` -/
def latestVersion (rows : List ReportVersion) : Option ReportVersion :=
  rows.argmax (·.version)

def nextIdentity (investigationId id : Uuid) (createdAt : Timestamp)
    (latest : Option ReportVersion) : NextVersion where
  id
  investigationId
  version := match latest with
    | none => 1
    | some report => report.version + 1
  supersedes := latest.map (·.id)
  createdAt

def publishReportVersion (rows : List ReportVersion) (investigationId id : Uuid)
    (createdAt : Timestamp) (fixture : Bool)
    (build : NextVersion → Except BuildError ReportVersion) : Except BuildError ReportVersion :=
  let identity := nextIdentity investigationId id createdAt (latestVersion rows)
  match build identity with
  | .error refused => .error refused
  | .ok built =>
      let report := { built with fixture }
      if (report.id, report.investigationId, report.version, report.supersedes) ≠
          (identity.id, identity.investigationId, identity.version, identity.supersedes) then
        .error (.valueError
          "the built report does not carry the identity of the next version")
      else .ok report

end Ovrly.Reports
