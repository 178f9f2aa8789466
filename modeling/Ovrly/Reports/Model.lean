/-!
Report versions as `api/schemas.py` and `claims.py` define them.

UUIDs are their canonical text, timestamps microseconds and offsets code points. What a
validator of the source rejects is not a value of these types: a source reference carries the
order of its offsets, and an interpretation the consistency of its labels.
-/

namespace Ovrly.Reports

abbrev Uuid := String
abbrev Timestamp := Int

inductive Taxonomy
  | empirical | causal | documentary | predictive | normative | mixed | unclear
  deriving DecidableEq, Repr

inductive AssertionMode
  | asserted | reported | questioned | hypothetical | counterfactual | unclear
  deriving DecidableEq, Repr

inductive SpeakerCommitment
  | endorsed | rejected | uncommitted | unclear
  deriving DecidableEq, Repr

inductive EligibilityReason
  | factualClaim | factualPremise | opinion | quotedNotEndorsed | insufficientContext | notAClaim
  deriving DecidableEq, Repr

inductive UncertaintyFlag
  | unresolvedReference | missingContext | ambiguousAttribution | ambiguousCommitment
  | ambiguousMeaning | sourceTextConflict
  deriving DecidableEq, Repr

inductive Timebase
  | capture | media
  deriving DecidableEq, Repr

inductive Modality
  | speech | text | both
  deriving DecidableEq, Repr

inductive Relation
  | support | challenge | qualify | mixed | insufficient
  deriving DecidableEq, Repr

inductive OverallAssessment
  | supported | challenged | qualified | mixed | insufficientEvidence
  deriving DecidableEq, Repr

inductive SourceInspectionLevel
  | abstractOnly | fullText | metadataOnly | unknown
  deriving DecidableEq, Repr

inductive SourceType
  | peerReviewed | preprint | government | news | referenceWork | primaryDocument | organization
  | other
  deriving DecidableEq, Repr

inductive RetrievalRelevance
  | high | medium | low
  deriving DecidableEq, Repr

inductive RetractionStatus
  | none | corrected | retracted | withdrawn | unknown
  deriving DecidableEq, Repr

inductive CorrectionAttribution
  | user | pipeline
  deriving DecidableEq, Repr

structure SourceRef where
  observationId : String
  startChar : Nat
  endChar : Nat
  ordered : startChar < endChar
  deriving DecidableEq

def SourceRef.identity (ref : SourceRef) : String × Nat × Nat :=
  (ref.observationId, ref.startChar, ref.endChar)

def EligibilityReason.eligible : EligibilityReason → Bool
  | .factualClaim | .factualPremise => true
  | _ => false

structure Consistent (taxonomy : Taxonomy) (assertionMode : AssertionMode)
    (speakerCommitment : SpeakerCommitment) (eligibilityReason : EligibilityReason)
    (uncertaintyFlags : List UncertaintyFlag) : Prop where
  judgment : taxonomy = .normative → eligibilityReason.eligible = false
  scenario : assertionMode = .questioned ∨ assertionMode = .hypothetical →
    eligibilityReason.eligible = false
  quoted : eligibilityReason = .quotedNotEndorsed → speakerCommitment ≠ .endorsed
  flags : uncertaintyFlags.Nodup

structure Interpretation where
  taxonomy : Taxonomy
  sourceRefs : List SourceRef
  contextRefs : List SourceRef
  assertionMode : AssertionMode
  speakerCommitment : SpeakerCommitment
  attributedTo : Option String
  eligibilityReason : EligibilityReason
  uncertaintyFlags : List UncertaintyFlag
  cited : sourceRefs ≠ []
  consistent : Consistent taxonomy assertionMode speakerCommitment eligibilityReason
    uncertaintyFlags
  deriving DecidableEq

/-- Half-open `[startMs, endMs)` on the named timebase. -/
structure Interval where
  startMs : Nat
  endMs : Nat
  timebase : Timebase
  positive : 0 < endMs
  deriving DecidableEq

structure ClaimCorrection where
  attributedTo : CorrectionAttribution
  correctedAt : Timestamp
  supersededProposition : String
  deriving DecidableEq, Repr

structure Claim where
  id : String
  occurrenceId : String
  interval : Interval
  modality : Modality
  originalText : String
  proposition : String
  correction : Option ClaimCorrection
  interpretation : Option Interpretation := none
  correctsOccurrenceId : Option String := none
  supersededByOccurrenceId : Option String := none
  deriving DecidableEq

structure EvidenceSource where
  id : String
  title : String
  publisher : String
  url : Option String
  publishedAt : Option Timestamp
  deriving DecidableEq, Repr

structure Evidence where
  id : String
  claimId : String
  source : EvidenceSource
  sourceType : SourceType
  inspectionLevel : SourceInspectionLevel
  retrievalRelevance : RetrievalRelevance
  retractionStatus : RetractionStatus
  excerpt : Option String
  retrievedAt : Timestamp
  deriving DecidableEq, Repr

structure EvidenceRelation where
  evidenceId : String
  relation : Relation
  note : Option String
  deriving DecidableEq, Repr

structure Assessment where
  id : String
  claimId : String
  version : Nat
  relations : List EvidenceRelation
  overall : OverallAssessment
  provisional : Bool
  summary : String
  deriving DecidableEq, Repr

structure ProcessingAttempt where
  provider : String
  model : Option String
  decisionId : Option String
  task : String
  outcome : String
  promptTokens : Option Nat
  completionTokens : Option Nat
  totalTokens : Option Nat
  thinkingLeaked : Bool
  fenced : Bool
  repair : Bool
  feedback : Option String
  deriving DecidableEq, Repr

structure ReconciliationSummary where
  coverageLimited : Bool
  reassessmentClaimIds : List String
  deriving DecidableEq, Repr

structure ReportVersion where
  id : Uuid
  investigationId : Uuid
  version : Nat
  createdAt : Timestamp
  provisional : Bool
  changeSummary : String
  supersedes : Option Uuid
  claims : List Claim
  evidence : List Evidence
  assessments : List Assessment
  fixture : Bool := false
  processingAttempts : Option (List ProcessingAttempt) := none
  reconciliation : Option ReconciliationSummary := none
  deriving DecidableEq

structure NextVersion where
  id : Uuid
  investigationId : Uuid
  version : Nat
  supersedes : Option Uuid
  createdAt : Timestamp
  deriving DecidableEq, Repr

def Assessment.reversioned (version : Nat) (assessment : Assessment) : Assessment :=
  { assessment with version }

@[simp] theorem Assessment.reversioned_claimId (version : Nat) (assessment : Assessment) :
    (assessment.reversioned version).claimId = assessment.claimId := rfl

end Ovrly.Reports
