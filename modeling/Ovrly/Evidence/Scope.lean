import Ovrly.Evidence.Aggregation

/-!
What an evidence run leaves as it was (`merged_version` of `evidence/stages.py`): the claims, and
the evidence and the assessments of every claim outside its scope.
-/

namespace Ovrly.Evidence

open Ovrly.Reports

def evidenceFor (claimId : String) (report : ReportVersion) : List Reports.Evidence :=
  report.evidence.filter (·.claimId == claimId)

def assessmentsFor (claimId : String) (report : ReportVersion) : List Assessment :=
  report.assessments.filter (·.claimId == claimId)

def mergedEvidence (base : ReportVersion) (outcomes : List ClaimOutcome) (scope : List String) :
    List Reports.Evidence :=
  (base.evidence.filter fun item => !scope.contains item.claimId) ++ outcomes.flatMap (·.evidence)

/-- The new version differs from the base in its scope only. -/
structure Framed (base : ReportVersion) (outcomes : List ClaimOutcome) (captureOpen : Bool)
    (identity : NextVersion) (report : ReportVersion) : Prop where
  claims : report.claims = base.claims
  outside : ∀ claimId ∉ assessedScope outcomes,
    evidenceFor claimId report = evidenceFor claimId base ∧
      assessmentsFor claimId report =
        (assessmentsFor claimId base).map (Assessment.renewed identity.version captureOpen)
  inside : ∀ outcome ∈ outcomes, ∀ assessment, outcome.assessment = some assessment →
    evidenceFor outcome.claimId report = outcome.evidence ∧
      assessmentsFor outcome.claimId report = [assessment.renewed identity.version captureOpen]
  provisional : report.provisional = true ↔ captureOpen = true ∨ base.provisional = true ∧
    ∃ claim ∈ base.claims, claim.supersededByOccurrenceId = none ∧
      claim.id ∉ report.assessments.map (·.claimId) ∧ claim.id ∉ outcomes.map (·.claimId)

variable {base : ReportVersion} {outcomes : List ClaimOutcome} {scope : List String}
  {captureOpen : Bool} {depth : Depth} {identity : NextVersion}

theorem mem_assessedScope_iff {claimId : String} : claimId ∈ assessedScope outcomes ↔
    ∃ outcome ∈ outcomes, outcome.assessment.isSome = true ∧ outcome.claimId = claimId := by
  simp only [assessedScope, List.mem_map, List.mem_filter, and_assoc]

theorem filter_key {α : Type} {key : α → String} {items : List α} {item : α}
    (distinct : (items.map key).Nodup) (member : item ∈ items) :
    items.filter (key · == key item) = [item] := by
  induction items with
  | nil => cases member
  | cons first rest ih =>
      rw [List.map_cons, List.nodup_cons] at distinct
      rcases List.mem_cons.mp member with rfl | later
      · have others : rest.filter (key · == key item) = [] := by
          refine List.filter_eq_nil_iff.mpr fun other listed same => distinct.1 ?_
          rw [← beq_iff_eq.mp same]
          exact List.mem_map_of_mem listed
        simp [others]
      · have differs : ¬ (key first == key item) = true := by
          rw [beq_iff_eq]
          intro same
          exact distinct.1 (same ▸ List.mem_map_of_mem later)
        rw [List.filter_cons, if_neg differs]
        exact ih distinct.2 later

theorem flatMap_filter {α β : Type} (keep : α → Bool) (parts : α → List β) (items : List α) :
    (items.filter keep).flatMap parts =
      items.flatMap fun item => if keep item then parts item else [] := by
  induction items with
  | nil => rfl
  | cons item items ih =>
      by_cases kept : keep item = true
      · rw [List.filter_cons, if_pos kept, List.flatMap_cons, List.flatMap_cons, if_pos kept, ih]
      · rw [List.filter_cons, if_neg kept, List.flatMap_cons, if_neg kept, List.nil_append, ih]

namespace RunOn

theorem evidence_unassessed (run : RunOn base outcomes) {outcome : ClaimOutcome}
    (member : outcome ∈ outcomes) (unassessed : outcome.assessment.isSome ≠ true) :
    outcome.evidence = [] := by
  obtain ⟨retrieval, about⟩ := run.about outcome member
  rcases about.evidence with ⟨none, -⟩ | ⟨-, assessment, known, -⟩
  · exact none
  · simp [known] at unassessed

theorem merged_evidence (run : RunOn base outcomes) :
    (merged base outcomes scope captureOpen depth identity).evidence =
      mergedEvidence base outcomes scope := by
  have each : (outcomes.filter (·.assessment.isSome)).flatMap (·.evidence) =
      outcomes.flatMap (·.evidence) := by
    rw [flatMap_filter]
    refine List.flatMap_congr fun outcome member => ?_
    by_cases assessed : outcome.assessment.isSome = true
    · rw [if_pos assessed]
    · rw [if_neg assessed, run.evidence_unassessed member assessed]
  exact congrArg _ each

/-- The evidence of one claim among the new evidence is that of its outcome. -/
theorem evidence_of (run : RunOn base outcomes) {outcome : ClaimOutcome}
    (member : outcome ∈ outcomes) :
    (outcomes.flatMap (·.evidence)).filter (·.claimId == outcome.claimId) = outcome.evidence := by
  have only : ∀ other ∈ outcomes, other.evidence.filter (·.claimId == outcome.claimId) =
      if other.claimId == outcome.claimId then other.evidence else [] := by
    intro other listed
    by_cases same : other.claimId = outcome.claimId
    · rw [if_pos (beq_iff_eq.mpr same), List.filter_eq_self]
      intro item belongs
      rw [(run.owned listed).2 item belongs, same]
      exact beq_self_eq_true _
    · rw [if_neg (by simpa using same), List.filter_eq_nil_iff]
      intro item belongs
      rw [(run.owned listed).2 item belongs]
      simpa using same
  have single := filter_key run.distinct member
  calc (outcomes.flatMap (·.evidence)).filter (·.claimId == outcome.claimId)
      = outcomes.flatMap fun other => other.evidence.filter (·.claimId == outcome.claimId) :=
        List.filter_flatMap ..
    _ = outcomes.flatMap fun other =>
          if other.claimId == outcome.claimId then other.evidence else [] :=
        List.flatMap_congr only
    _ = (outcomes.filter (·.claimId == outcome.claimId)).flatMap (·.evidence) := by
        rw [flatMap_filter]
    _ = outcome.evidence := by rw [single, List.flatMap_singleton]

theorem outside (run : RunOn base outcomes)
    (cover : ∀ id, id ∈ scope ↔ id ∈ assessedScope outcomes)
    {claimId : String} (absent : claimId ∉ assessedScope outcomes) :
    let report := merged base outcomes scope captureOpen depth identity
    evidenceFor claimId report = evidenceFor claimId base ∧
      assessmentsFor claimId report =
        (assessmentsFor claimId base).map (Assessment.renewed identity.version captureOpen) := by
  intro report
  have out : claimId ∉ scope := fun member => absent ((cover _).mp member)
  have unclaimed : ∀ outcome ∈ outcomes, outcome.assessment.isSome = true →
      outcome.claimId ≠ claimId := fun outcome member assessed same =>
    absent (mem_assessedScope_iff.mpr ⟨outcome, member, assessed, same⟩)
  constructor
  · have none : (outcomes.flatMap (·.evidence)).filter (·.claimId == claimId) = [] := by
      refine List.filter_eq_nil_iff.mpr fun item belongs same => ?_
      obtain ⟨outcome, member, among⟩ := List.mem_flatMap.mp belongs
      by_cases assessed : outcome.assessment.isSome = true
      · refine unclaimed outcome member assessed ?_
        rw [← (run.owned member).2 item among, beq_iff_eq.mp same]
      · rw [run.evidence_unassessed member assessed] at among
        cases among
    rw [evidenceFor, run.merged_evidence, mergedEvidence, List.filter_append, none,
      List.append_nil, List.filter_filter]
    refine List.filter_congr fun item _ => ?_
    by_cases same : item.claimId = claimId
    · simp [same, out]
    · simp [same]
  · have none : ((outcomes.filterMap (·.assessment)).map
        (Assessment.renewed identity.version captureOpen)).filter (·.claimId == claimId) = [] := by
      refine List.filter_eq_nil_iff.mpr fun item belongs same => ?_
      obtain ⟨given, among, rfl⟩ := List.mem_map.mp belongs
      obtain ⟨outcome, member, assessed⟩ := List.mem_filterMap.mp among
      refine unclaimed outcome member (by simp [assessed]) ?_
      rw [← (run.owned member).1 given assessed]
      exact beq_iff_eq.mp same
    rw [assessmentsFor]
    show ((base.assessments.filter _).map _ ++ _).filter _ = _
    rw [List.filter_append, none, List.append_nil, List.filter_map, assessmentsFor,
      List.filter_filter]
    refine congrArg _ (List.filter_congr fun item _ => ?_)
    by_cases same : item.claimId = claimId
    · simp [Assessment.renewed, same, out]
    · simp [Assessment.renewed, same]

theorem inside (run : RunOn base outcomes)
    (cover : ∀ id, id ∈ scope ↔ id ∈ assessedScope outcomes)
    {outcome : ClaimOutcome} (member : outcome ∈ outcomes) {assessment : Assessment}
    (assessed : outcome.assessment = some assessment) :
    let report := merged base outcomes scope captureOpen depth identity
    evidenceFor outcome.claimId report = outcome.evidence ∧
      assessmentsFor outcome.claimId report =
        [assessment.renewed identity.version captureOpen] := by
  intro report
  have among : outcome.claimId ∈ scope := (cover _).mpr
    (mem_assessedScope_iff.mpr ⟨outcome, member, by simp [assessed], rfl⟩)
  constructor
  · have old : (base.evidence.filter fun item => !scope.contains item.claimId).filter
        (·.claimId == outcome.claimId) = [] := by
      refine List.filter_eq_nil_iff.mpr fun item kept same => ?_
      have outside := (List.mem_filter.mp kept).2
      rw [beq_iff_eq.mp same] at outside
      simp [among] at outside
    rw [evidenceFor, run.merged_evidence, mergedEvidence, List.filter_append, old,
      List.nil_append, run.evidence_of member]
  · have old : ((base.assessments.filter fun item => !scope.contains item.claimId).map
        (Assessment.renewed identity.version captureOpen)).filter
          (·.claimId == outcome.claimId) = [] := by
      refine List.filter_eq_nil_iff.mpr fun item kept same => ?_
      obtain ⟨earlier, before, rfl⟩ := List.mem_map.mp kept
      have outside := (List.mem_filter.mp before).2
      rw [show earlier.claimId = outcome.claimId from beq_iff_eq.mp same] at outside
      simp [among] at outside
    have distinct : ((outcomes.filterMap (·.assessment)).map (·.claimId)).Nodup := by
      rw [assessedScope_eq fun outcome member => (run.owned member).1]
      exact run.distinct.sublist (List.filter_sublist.map _)
    have single := filter_key distinct (List.mem_filterMap.mpr ⟨outcome, member, assessed⟩)
    rw [(run.owned member).1 assessment assessed] at single
    rw [assessmentsFor]
    show ((base.assessments.filter _).map _ ++ _).filter _ = _
    rw [List.filter_append, old, List.nil_append, List.filter_map]
    exact congrArg _ single

theorem framed (run : RunOn base outcomes)
    (cover : ∀ id, id ∈ scope ↔ id ∈ assessedScope outcomes) :
    Framed base outcomes captureOpen identity
      (merged base outcomes scope captureOpen depth identity) where
  claims := rfl
  outside _ absent := run.outside cover absent
  inside _ member _ assessed := run.inside cover member assessed
  provisional := by
    have provisional : (merged base outcomes scope captureOpen depth identity).provisional =
        (captureOpen || base.claims.any (waits base
          (merged base outcomes scope captureOpen depth identity).assessments outcomes)) := rfl
    rw [provisional, Bool.or_eq_true, List.any_eq_true]
    refine or_congr_right ?_
    constructor
    · rintro ⟨claim, member, waiting⟩
      simp only [waits, Bool.and_eq_true, Option.isNone_iff_eq_none, Bool.not_eq_true',
        List.contains_eq_mem, decide_eq_false_iff_not] at waiting
      obtain ⟨⟨⟨current, unassessed⟩, untried⟩, before⟩ := waiting
      exact ⟨before, claim, member, current, unassessed, untried⟩
    · rintro ⟨before, claim, member, current, unassessed, untried⟩
      refine ⟨claim, member, ?_⟩
      simp only [waits, Bool.and_eq_true, Option.isNone_iff_eq_none, Bool.not_eq_true',
        List.contains_eq_mem, decide_eq_false_iff_not]
      exact ⟨⟨⟨current, unassessed⟩, untried⟩, before⟩

end RunOn

/-- An outcome that `Assessor.assess` produced for a claim of the base. -/
def Produced (digests : Digests) (base : ReportVersion) (outcome : ClaimOutcome) : Prop :=
  ∃ retrieval version provisional answer, retrieval.claimId ∈ base.claims.map (·.id) ∧
    outcome = assess digests retrieval version provisional answer

theorem runOn_produced {digests : Digests}
    (produced : ∀ outcome ∈ outcomes, Produced digests base outcome)
    (distinct : (outcomes.map (·.claimId)).Nodup) : RunOn base outcomes where
  about outcome member := by
    obtain ⟨retrieval, version, provisional, answer, -, rfl⟩ := produced outcome member
    exact ⟨retrieval, assess_about retrieval version provisional answer⟩
  known outcome member := by
    obtain ⟨retrieval, version, provisional, answer, known, rfl⟩ := produced outcome member
    rw [(assess_about retrieval version provisional answer).claim]
    exact known
  distinct := distinct

/-- An evidence run touches only its scope. It publishes nothing exactly when an identifier of its
evidence occurs twice, there or in what the version keeps. -/
theorem mergedVersion_framed (digests : Digests) (base : ReportVersion)
    (outcomes : List ClaimOutcome) (scope : List String) (captureOpen : Bool) (depth : Depth)
    (identity : NextVersion) (valid : validateCitations base = .ok ())
    (produced : ∀ outcome ∈ outcomes, Produced digests base outcome)
    (distinct : (outcomes.map (·.claimId)).Nodup)
    (cover : ∀ id, id ∈ scope ↔ id ∈ assessedScope outcomes) :
    ((∃ report, mergedVersion base outcomes scope captureOpen depth identity = .ok report) ↔
        ((mergedEvidence base outcomes scope).map (·.id)).Nodup) ∧
      ∀ report, mergedVersion base outcomes scope captureOpen depth identity = .ok report →
        Framed base outcomes captureOpen identity report := by
  have run := runOn_produced produced distinct
  have cited := (validateCitations_iff base).mp valid
  refine ⟨?_, ?_⟩
  · have evidence : (merged base outcomes scope captureOpen depth identity).evidence =
        mergedEvidence base outcomes scope := run.merged_evidence
    rw [← evidence]
    constructor
    · rintro ⟨report, built⟩
      obtain ⟨rfl, passes⟩ := mergedVersion_ok built
      exact ((validateCitations_iff _).mp passes).evidenceDistinct
    · intro evidenceDistinct
      have passes := (validateCitations_iff _).mpr (run.merged_cited cited cover evidenceDistinct)
      refine ⟨merged base outcomes scope captureOpen depth identity, ?_⟩
      simp only [mergedVersion, passes]
      rfl
  · intro report built
    obtain ⟨rfl, -⟩ := mergedVersion_ok built
    exact run.framed cover

section Example

def exampleClaim (id : String) : Claim where
  id := id
  occurrenceId := "occ_" ++ id
  interval := ⟨0, 1000, .capture, Nat.succ_pos 999⟩
  modality := .speech
  originalText := "Sleep improves memory."
  proposition := "Sleep improves memory."
  correction := none

def exampleBase (evidenceId : String) : ReportVersion where
  id := "version_1"
  investigationId := "investigation"
  version := 1
  createdAt := 0
  provisional := false
  changeSummary := ""
  supersedes := none
  claims := [exampleClaim "a", exampleClaim "b"]
  evidence := [toEvidence "b" ⟨examplePaper "old" .none, "p1", evidenceId⟩]
  assessments := []

def exampleIdentity : NextVersion := ⟨"version_2", "investigation", 2, some "version_1", 0⟩

def exampleOutcome : ClaimOutcome :=
  assess exampleDigests (retrieve exampleDigests "a"
    (.found ⟨[examplePaper "new" .none], List.nodup_singleton _⟩ 1 0 [] false)) 2 false
    (.replied [⟨"p1", .supports, "It reports an effect."⟩])

theorem exampleOutcome_produced (evidenceId : String) :
    ∀ outcome ∈ [exampleOutcome], Produced exampleDigests (exampleBase evidenceId) outcome := by
  intro outcome member
  rw [List.mem_singleton.mp member]
  refine ⟨_, 2, false, _, ?_, rfl⟩
  rw [retrieve_claimId]
  exact List.mem_cons_self (a := "a") (l := ["b"])

theorem mergedVersion_framed_example : ∃ report,
    mergedVersion (exampleBase "evd_old") [exampleOutcome] ["a"] false .standard exampleIdentity =
        .ok report ∧
      Framed (exampleBase "evd_old") [exampleOutcome] false exampleIdentity report := by
  obtain ⟨built, framed⟩ := mergedVersion_framed exampleDigests (exampleBase "evd_old")
    [exampleOutcome] ["a"] false .standard exampleIdentity (by decide +kernel)
    (exampleOutcome_produced "evd_old") (List.nodup_singleton _)
    (fun id => by rw [show assessedScope [exampleOutcome] = ["a"] by decide +kernel])
  obtain ⟨report, merged⟩ := built.mpr (by decide +kernel)
  exact ⟨report, merged, framed report merged⟩

/-- Evidence of one claim under the identifier that a run gives the evidence of another. -/
theorem mergedVersion_collision :
    let base := exampleBase (exampleDigests.evidenceId "a" "new")
    validateCitations base = .ok () ∧
      (∀ outcome ∈ [exampleOutcome], Produced exampleDigests base outcome) ∧
      assessedScope [exampleOutcome] = ["a"] ∧
      ¬ ∃ report, mergedVersion base [exampleOutcome] ["a"] false .standard exampleIdentity =
        .ok report := by
  refine ⟨by decide +kernel, exampleOutcome_produced _, by decide +kernel, ?_⟩
  rintro ⟨report, built⟩
  obtain ⟨rfl, passes⟩ := mergedVersion_ok built
  exact absurd ((validateCitations_iff _).mp passes).evidenceDistinct (by decide +kernel)

end Example

end Ovrly.Evidence
