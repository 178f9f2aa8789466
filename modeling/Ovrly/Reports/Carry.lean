import Ovrly.Reports.Archive

/-!
What each builder carries over from the version it supersedes: every claim with its origin, and
the evidence and assessments of all claims but those its own rule removes.

Two builders rewrite claims by identifier. They carry every claim over when the claims they
rewrite as one have one origin.
-/

namespace Ovrly.Reports

open Ovrly.Extraction (groundedClaims)

def Claim.sourceRefs (claim : Claim) : Option (List SourceRef) :=
  claim.interpretation.map (·.sourceRefs)

/-- The same wording at the same place of the same source. -/
structure SameOrigin (claim next : Claim) : Prop where
  occurrenceId : next.occurrenceId = claim.occurrenceId
  originalText : next.originalText = claim.originalText
  interval : next.interval = claim.interval
  modality : next.modality = claim.modality
  sourceRefs : next.sourceRefs = claim.sourceRefs

instance (claim next : Claim) : Decidable (SameOrigin claim next) :=
  decidable_of_iff
    (next.occurrenceId = claim.occurrenceId ∧ next.originalText = claim.originalText ∧
      next.interval = claim.interval ∧ next.modality = claim.modality ∧
      next.sourceRefs = claim.sourceRefs)
    ⟨fun ⟨occurrence, text, interval, modality, refs⟩ =>
      ⟨occurrence, text, interval, modality, refs⟩,
      fun ⟨occurrence, text, interval, modality, refs⟩ =>
        ⟨occurrence, text, interval, modality, refs⟩⟩

theorem SameOrigin.refl (claim : Claim) : SameOrigin claim claim := ⟨rfl, rfl, rfl, rfl, rfl⟩

/-- The claims a builder rewrites as one have one origin. -/
def Builder.Unambiguous (previous : ReportVersion) : Builder → Prop
  | .extraction incremental _ _ _ => incremental = true
  | .reconciliation .. => ∀ claim ∈ previous.claims, ∀ other ∈ previous.claims,
      claim.id = other.id → claim.sourceRefs = other.sourceRefs
  | .correction body => ∀ claim ∈ previous.claims, ∀ other ∈ previous.claims,
      claim.id = body.claimId → other.id = body.claimId → SameOrigin claim other
  | .assessment .. | .expansion .. => True

instance (previous : ReportVersion) : ∀ builder : Builder, Decidable (builder.Unambiguous previous)
  | .extraction incremental _ _ _ => inferInstanceAs (Decidable (incremental = true))
  | .reconciliation .. => inferInstanceAs (Decidable (∀ claim ∈ previous.claims,
      ∀ other ∈ previous.claims, claim.id = other.id → claim.sourceRefs = other.sourceRefs))
  | .correction body => inferInstanceAs (Decidable (∀ claim ∈ previous.claims,
      ∀ other ∈ previous.claims, claim.id = body.claimId → other.id = body.claimId →
        SameOrigin claim other))
  | .assessment .. | .expansion .. => .isTrue trivial

/-- The builder's own rule drops the evidence and assessment of a claim. -/
def Builder.Removes (previous : ReportVersion) (claimId : String) : Builder → Prop
  | .reconciliation output textOf now _ _ => ∃ reconciled,
      reconcileClaims output previous textOf now = .ok reconciled ∧
        claimId ∈ reconciled.invalidated
  | .correction body => claimId = body.claimId
  | .assessment outcomes _ _ => claimId ∈ assessedScope outcomes
  | .extraction .. | .expansion .. => False

def SameAssessment (assessment next : Assessment) : Prop :=
  next = assessment.renewed next.version next.provisional

structure Carries (builder : Builder) (previous next : ReportVersion) : Prop where
  claims : ∀ claim ∈ previous.claims, ∃ carried ∈ next.claims,
    carried.id = claim.id ∧ SameOrigin claim carried
  evidence : ∀ item ∈ previous.evidence,
    item ∈ next.evidence ∨ builder.Removes previous item.claimId
  assessments : ∀ assessment ∈ previous.assessments,
    (∃ carried ∈ next.assessments, SameAssessment assessment carried) ∨
      builder.Removes previous assessment.claimId

theorem Carries.fixture {builder : Builder} {previous next : ReportVersion}
    (carries : Carries builder previous next) (fixture : Bool) :
    Carries builder previous { next with fixture } :=
  ⟨carries.claims, carries.evidence, carries.assessments⟩

theorem kept_or_removed {removed : String → Prop} {keep : String → Bool}
    (dropped : ∀ id, keep id = false → removed id) {evidence : List Evidence}
    {assessments : List Assessment} (version : Nat) :
    (∀ item ∈ evidence, item ∈ evidence.filter (fun item => keep item.claimId) ∨
      removed item.claimId) ∧
    ∀ assessment ∈ assessments,
      (∃ carried ∈ (assessments.filter fun item => keep item.claimId).map
        (Assessment.reversioned version), SameAssessment assessment carried) ∨
      removed assessment.claimId := by
  constructor
  · intro item member
    cases kept : keep item.claimId with
    | false => exact Or.inr (dropped _ kept)
    | true => exact Or.inl (List.mem_filter.mpr ⟨member, kept⟩)
  · intro assessment member
    cases kept : keep assessment.claimId with
    | false => exact Or.inr (dropped _ kept)
    | true =>
        left
        exact ⟨_, List.mem_map_of_mem (List.mem_filter.mpr ⟨member, kept⟩), rfl⟩

section Builders

variable {builder : Builder} {previous next : ReportVersion} {identity : NextVersion}

theorem extractedVersion_carries {occurrences : List Extraction.Occurrence}
    {window : Extraction.ObservationWindow} {claims : List Claim}
    {provenance : List ProcessingAttempt} :
    Carries (.extraction true occurrences window provenance) previous
      (extractedVersion true (some previous) claims provenance identity) where
  claims claim member := by
    refine ⟨claim, ?_, rfl, SameOrigin.refl claim⟩
    rw [(extractedVersion_claims _ _ _ _ _).mem_iff]
    exact List.mem_append_left _ member
  evidence item member := Or.inl member
  assessments assessment member :=
    Or.inl ⟨assessment.reversioned identity.version, List.mem_map_of_mem member, rfl⟩

theorem reconciledVersion_carries {output : Reconciliation} {textOf : String → Option String}
    {now : Timestamp} {provenance : List ProcessingAttempt} {coverageLimited : Bool}
    {reconciled : Reconciled}
    (accepted : reconcileClaims output previous textOf now = .ok reconciled)
    (unambiguous : ∀ claim ∈ previous.claims, ∀ other ∈ previous.claims,
      claim.id = other.id → claim.sourceRefs = other.sourceRefs) :
    Carries (.reconciliation output textOf now provenance coverageLimited) previous
      (reconciledVersion previous reconciled output.explanation provenance coverageLimited
        identity) := by
  obtain ⟨_, _, _, revisions, folded, revised, invalidated, -⟩ :=
    reconcileClaims_ok accepted
  obtain ⟨updates, _, _⟩ := foldlM_revise (fun _ _ found => lastWith_key found) folded
    List.nodup_nil
  have dropped : ∀ id, (!reconciled.invalidated.contains id) = false →
      (Builder.reconciliation output textOf now provenance coverageLimited).Removes previous
        id := by
    intro id named
    exact ⟨reconciled, accepted, by simpa using named⟩
  obtain ⟨evidence, assessments⟩ := kept_or_removed dropped identity.version
  refine ⟨?_, evidence, assessments⟩
  intro claim member
  obtain ⟨next, nextMember, item, found, rfl⟩ :=
    exists_of_forall₂ (reviseClaims_map revised).flip member
  obtain ⟨original, isOriginal, sourceRefs⟩ := (updates item (lastWith_mem found)).claim
  have sameId : original.id = claim.id := (lastWith_key isOriginal).trans (lastWith_key found)
  refine ⟨_, nextMember, rfl, rfl, rfl, rfl, rfl, ?_⟩
  rw [← unambiguous original (lastWith_mem isOriginal) claim member sameId]
  exact sourceRefs.symm

theorem correctedReport_carries {body : CorrectionReanalysis}
    (corrected : correctedReport previous body identity = .ok next)
    (unambiguous : ∀ claim ∈ previous.claims, ∀ other ∈ previous.claims,
      claim.id = body.claimId → other.id = body.claimId → SameOrigin claim other) :
    Carries (.correction body) previous next := by
  simp only [correctedReport] at corrected
  split at corrected
  · simp at corrected
  · rename_i claim found
    have named : claim.id = body.claimId := by
      have matched := List.find?_some found
      simpa using matched
    have claimMember := List.mem_of_find?_eq_some found
    split at corrected
    · simp at corrected
    · rw [Except.ok.injEq] at corrected
      subst corrected
      have dropped : ∀ id, (id != claim.id) = false → id = body.claimId := by
        intro id same
        rw [bne_eq_false_iff_eq.mp same, named]
      obtain ⟨evidence, assessments⟩ := kept_or_removed dropped identity.version
      refine ⟨?_, evidence, assessments⟩
      intro item member
      by_cases same : item.id = claim.id
      · refine ⟨correctedClaim claim body.proposition identity.createdAt, ?_, same.symm, ?_⟩
        · exact List.mem_map.mpr ⟨item, member, if_pos same⟩
        · have origin := unambiguous item member claim claimMember (same.trans named) named
          exact ⟨origin.occurrenceId, origin.originalText, origin.interval, origin.modality,
            origin.sourceRefs⟩
      · exact ⟨item, List.mem_map.mpr ⟨item, member, if_neg same⟩, rfl, SameOrigin.refl item⟩

theorem merged_carries {outcomes : List ClaimOutcome} {captureOpen : Bool} {depth : Depth} :
    Carries (.assessment outcomes captureOpen depth) previous
      (merged previous outcomes (assessedScope outcomes) captureOpen depth identity) where
  claims claim member := ⟨claim, member, rfl, SameOrigin.refl claim⟩
  evidence item member := by
    by_cases assessed : item.claimId ∈ assessedScope outcomes
    · exact Or.inr assessed
    · left
      exact List.mem_append_left _ (List.mem_filter.mpr ⟨member, by simpa using assessed⟩)
  assessments assessment member := by
    by_cases assessed : assessment.claimId ∈ assessedScope outcomes
    · exact Or.inr assessed
    · left
      refine ⟨assessment.renewed identity.version captureOpen, ?_, rfl⟩
      exact List.mem_append_left _
        (List.mem_map_of_mem (List.mem_filter.mpr ⟨member, by simpa using assessed⟩))

theorem expanded_carries {full : ReportVersion} {sourceId : Uuid} :
    Carries (.expansion full sourceId) previous (expanded previous full sourceId identity) where
  claims claim member := by
    refine ⟨claim, ?_, rfl, SameOrigin.refl claim⟩
    rw [expanded_claims]
    exact List.mem_append_left _ member
  evidence item member := by
    left
    rw [expanded_evidence]
    exact List.mem_append_left _ member
  assessments assessment member := by
    left
    refine ⟨assessment.reversioned identity.version, ?_, rfl⟩
    rw [expanded_assessments]
    exact List.mem_append_left _ (List.mem_map_of_mem member)

variable {identify : Uuid → List (String × Nat × Nat) → String}

theorem Builder.build_carries
    (accepted : builder.build identify (some previous) identity = .ok next)
    (unambiguous : builder.Unambiguous previous) : Carries builder previous next := by
  cases Builder.build_built identify accepted with
  | extracted =>
      simp only [Builder.Unambiguous] at unambiguous
      subst unambiguous
      exact extractedVersion_carries
  | reconciled latest _ revised =>
      obtain rfl := Option.some.inj latest
      exact reconciledVersion_carries revised unambiguous
  | corrected latest corrected =>
      obtain rfl := Option.some.inj latest
      exact correctedReport_carries corrected unambiguous
  | merged latest =>
      obtain rfl := Option.some.inj latest
      exact merged_carries
  | expanded latest =>
      obtain rfl := Option.some.inj latest
      exact expanded_carries

end Builders

end Ovrly.Reports
