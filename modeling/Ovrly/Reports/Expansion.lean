import Ovrly.Reports.Links

/-!
Identifiers under expansion.

`expanded_version` re-identifies what it imports by a prefix that holds only the number of the
imported version, and cuts the result. The identifiers stay distinct exactly when the cut
identifiers do and none of them is already in the clip.
-/

namespace Ovrly.Reports

structure Distinct (report : ReportVersion) : Prop where
  claims : (report.claims.map (·.id)).Nodup
  occurrences : (report.claims.map (·.occurrenceId)).Nodup
  evidence : (report.evidence.map (·.id)).Nodup
  assessments : (report.assessments.map (·.id)).Nodup

instance (report : ReportVersion) : Decidable (Distinct report) :=
  decidable_of_iff
    ((report.claims.map (·.id)).Nodup ∧ (report.claims.map (·.occurrenceId)).Nodup ∧
      (report.evidence.map (·.id)).Nodup ∧ (report.assessments.map (·.id)).Nodup)
    ⟨fun ⟨claims, occurrences, evidence, assessments⟩ =>
      ⟨claims, occurrences, evidence, assessments⟩,
      fun ⟨claims, occurrences, evidence, assessments⟩ =>
        ⟨claims, occurrences, evidence, assessments⟩⟩

/-- Prefixing and cutting tells the imported identifiers apart, and apart from the known
ones. -/
structure Separates (pre : String) (known imported : List String) : Prop where
  fresh : ∀ id ∈ known, ∀ other ∈ imported, prefixed other pre ≠ id
  injective : ∀ id ∈ imported, ∀ other ∈ imported, prefixed id pre = prefixed other pre →
    id = other

theorem Separates.mono {pre : String} {known imported known' imported' : List String}
    (separates : Separates pre known imported) (fewer : known' ⊆ known)
    (fewerImported : imported' ⊆ imported) : Separates pre known' imported' where
  fresh id member other otherMember :=
    separates.fresh id (fewer member) other (fewerImported otherMember)
  injective id member other otherMember :=
    separates.injective id (fewerImported member) other (fewerImported otherMember)

theorem nodup_append_map (pre : String) {known imported : List String}
    (knownDistinct : known.Nodup) (importedDistinct : imported.Nodup) :
    (known ++ imported.map (prefixed · pre)).Nodup ↔ Separates pre known imported := by
  rw [List.nodup_append]
  constructor
  · rintro ⟨_, mapped, apart⟩
    refine ⟨?_, ?_⟩
    · intro id member other otherMember same
      exact apart id member _ (List.mem_map_of_mem otherMember) same.symm
    · intro id member other otherMember same
      exact List.inj_on_of_nodup_map mapped member otherMember same
  · intro separates
    refine ⟨knownDistinct, ?_, ?_⟩
    · exact importedDistinct.map_on separates.injective
    · intro id member other otherMember same
      obtain ⟨source, sourceMember, rfl⟩ := List.mem_map.mp otherMember
      exact separates.fresh id member source sourceMember same.symm

/-- The condition on all four kinds of identifiers. -/
structure Collisionless (clip full : ReportVersion) : Prop where
  claims : Separates (versionPrefix full.version) (clip.claims.map (·.id))
    (full.claims.map (·.id))
  occurrences : Separates (versionPrefix full.version) (clip.claims.map (·.occurrenceId))
    (full.claims.map (·.occurrenceId))
  evidence : Separates (versionPrefix full.version) (clip.evidence.map (·.id))
    (full.evidence.map (·.id))
  assessments : Separates (versionPrefix full.version) (clip.assessments.map (·.id))
    (full.assessments.map (·.id))

instance (pre : String) (known imported : List String) :
    Decidable (Separates pre known imported) :=
  decidable_of_iff
    ((∀ id ∈ known, ∀ other ∈ imported, prefixed other pre ≠ id) ∧
      ∀ id ∈ imported, ∀ other ∈ imported, prefixed id pre = prefixed other pre → id = other)
    ⟨fun ⟨fresh, injective⟩ => ⟨fresh, injective⟩, fun ⟨fresh, injective⟩ => ⟨fresh, injective⟩⟩

instance (clip full : ReportVersion) : Decidable (Collisionless clip full) :=
  decidable_of_iff
    (Separates (versionPrefix full.version) (clip.claims.map (·.id)) (full.claims.map (·.id)) ∧
      Separates (versionPrefix full.version) (clip.claims.map (·.occurrenceId))
        (full.claims.map (·.occurrenceId)) ∧
      Separates (versionPrefix full.version) (clip.evidence.map (·.id))
        (full.evidence.map (·.id)) ∧
      Separates (versionPrefix full.version) (clip.assessments.map (·.id))
        (full.assessments.map (·.id)))
    ⟨fun ⟨claims, occurrences, evidence, assessments⟩ =>
      ⟨claims, occurrences, evidence, assessments⟩,
      fun ⟨claims, occurrences, evidence, assessments⟩ =>
        ⟨claims, occurrences, evidence, assessments⟩⟩

/-- The report holds every claim, evidence item, assessment and relation of the source under the
renaming, and what each of them refers to is the image of what it referred to, and nothing else. -/
structure Carried (rename : String → String) (claimOf : Claim → Claim)
    (evidenceOf : Evidence → Evidence) (source report : ReportVersion) : Prop where
  claims : ∀ claim ∈ source.claims,
    claimOf claim ∈ report.claims ∧ (claimOf claim).id = rename claim.id
  evidence : ∀ item ∈ source.evidence, evidenceOf item ∈ report.evidence ∧
    (evidenceOf item).id = rename item.id ∧ (evidenceOf item).claimId = rename item.claimId ∧
    ∀ claim ∈ source.claims, claim.id = item.claimId →
      ∀ other ∈ report.claims, other.id = rename item.claimId → other = claimOf claim
  assessments : ∀ assessment ∈ source.assessments, ∃ carried ∈ report.assessments,
    carried.id = rename assessment.id ∧ carried.claimId = rename assessment.claimId ∧
    carried.relations = assessment.relations.map
      (fun relation => { relation with evidenceId := rename relation.evidenceId }) ∧
    ∀ claim ∈ source.claims, claim.id = assessment.claimId →
      ∀ other ∈ report.claims, other.id = rename assessment.claimId → other = claimOf claim
  relations : ∀ assessment ∈ source.assessments, ∀ relation ∈ assessment.relations,
    ∀ item ∈ source.evidence, item.id = relation.evidenceId →
      ∀ other ∈ report.evidence, other.id = rename relation.evidenceId → other = evidenceOf item

/-- What the clip holds is in the report as it was, and what the full version holds is in it under
its prefix. -/
structure Attached (clip full report : ReportVersion) : Prop where
  clip : Carried id id id clip report
  full : Carried (prefixed · (versionPrefix full.version))
    (Claim.prefixed (versionPrefix full.version))
    (Evidence.prefixed (versionPrefix full.version)) full report

section Expanded

variable {clip full : ReportVersion} {sourceId : Uuid} {identity : NextVersion}

theorem expanded_claimIds :
    (expanded clip full sourceId identity).claims.map (·.id) =
      clip.claims.map (·.id) ++
        (full.claims.map (·.id)).map (prefixed · (versionPrefix full.version)) := by
  rw [expanded_claims, List.map_append, List.map_map, List.map_map]
  rfl

theorem expanded_occurrenceIds :
    (expanded clip full sourceId identity).claims.map (·.occurrenceId) =
      clip.claims.map (·.occurrenceId) ++
        (full.claims.map (·.occurrenceId)).map (prefixed · (versionPrefix full.version)) := by
  rw [expanded_claims, List.map_append, List.map_map, List.map_map]
  rfl

theorem expanded_evidenceIds :
    (expanded clip full sourceId identity).evidence.map (·.id) =
      clip.evidence.map (·.id) ++
        (full.evidence.map (·.id)).map (prefixed · (versionPrefix full.version)) := by
  rw [expanded_evidence, List.map_append, List.map_map, List.map_map]
  rfl

theorem expanded_assessmentIds :
    (expanded clip full sourceId identity).assessments.map (·.id) =
      clip.assessments.map (·.id) ++
        (full.assessments.map (·.id)).map (prefixed · (versionPrefix full.version)) := by
  rw [expanded_assessments, List.map_append, List.map_map, List.map_map, List.map_map]
  rfl

theorem expanded_oldClaim {claim : Claim} (member : claim ∈ clip.claims) :
    claim ∈ (expanded clip full sourceId identity).claims := by
  rw [expanded_claims]
  exact List.mem_append_left _ member

theorem expanded_newClaim {claim : Claim} (member : claim ∈ full.claims) :
    claim.prefixed (versionPrefix full.version) ∈
      (expanded clip full sourceId identity).claims := by
  rw [expanded_claims]
  exact List.mem_append_right _ (List.mem_map_of_mem member)

theorem expanded_oldEvidence {item : Evidence} (member : item ∈ clip.evidence) :
    item ∈ (expanded clip full sourceId identity).evidence := by
  rw [expanded_evidence]
  exact List.mem_append_left _ member

theorem expanded_newEvidence {item : Evidence} (member : item ∈ full.evidence) :
    item.prefixed (versionPrefix full.version) ∈
      (expanded clip full sourceId identity).evidence := by
  rw [expanded_evidence]
  exact List.mem_append_right _ (List.mem_map_of_mem member)

theorem expanded_distinct_iff (clipDistinct : Distinct clip) (fullDistinct : Distinct full) :
    Distinct (expanded clip full sourceId identity) ↔ Collisionless clip full := by
  have claims := nodup_append_map (versionPrefix full.version) clipDistinct.claims
    fullDistinct.claims
  have occurrences := nodup_append_map (versionPrefix full.version) clipDistinct.occurrences
    fullDistinct.occurrences
  have evidence := nodup_append_map (versionPrefix full.version) clipDistinct.evidence
    fullDistinct.evidence
  have assessments := nodup_append_map (versionPrefix full.version) clipDistinct.assessments
    fullDistinct.assessments
  rw [← expanded_claimIds] at claims
  rw [← expanded_occurrenceIds] at occurrences
  rw [← expanded_evidenceIds] at evidence
  rw [← expanded_assessmentIds] at assessments
  constructor
  · intro distinct
    exact ⟨claims.mp distinct.claims, occurrences.mp distinct.occurrences,
      evidence.mp distinct.evidence, assessments.mp distinct.assessments⟩
  · intro apart
    exact ⟨claims.mpr apart.claims, occurrences.mpr apart.occurrences,
      evidence.mpr apart.evidence, assessments.mpr apart.assessments⟩

theorem expanded_cited (clipCited : Cited clip) (fullCited : Cited full)
    (claims : Separates (versionPrefix full.version) (clip.claims.map (·.id))
      (full.claims.map (·.id)))
    (evidence : ((expanded clip full sourceId identity).evidence.map (·.id)).Nodup) :
    Cited (expanded clip full sourceId identity) := by
  have known : ∀ id ∈ clip.claims.map (·.id),
      id ∈ (expanded clip full sourceId identity).claims.map (·.id) := by
    intro id member
    rw [expanded_claimIds]
    exact List.mem_append_left _ member
  have imported : ∀ id ∈ full.claims.map (·.id), prefixed id (versionPrefix full.version) ∈
      (expanded clip full sourceId identity).claims.map (·.id) := by
    intro id member
    rw [expanded_claimIds]
    exact List.mem_append_right _ (List.mem_map_of_mem member)
  refine ⟨evidence, ?_, ?_, ?_⟩
  · intro item member
    rw [expanded_evidence] at member
    rcases List.mem_append.mp member with old | new
    · exact known _ (clipCited.evidenceOwned item old)
    · obtain ⟨source, belongs, rfl⟩ := List.mem_map.mp new
      rw [Evidence.prefixed_claimId]
      exact imported _ (fullCited.evidenceOwned source belongs)
  · have assessed : (expanded clip full sourceId identity).assessments.map (·.claimId) =
        clip.assessments.map (·.claimId) ++
          (full.assessments.map (·.claimId)).map (prefixed · (versionPrefix full.version)) := by
      rw [expanded_assessments, List.map_append, List.map_map, List.map_map, List.map_map]
      rfl
    rw [assessed]
    refine (nodup_append_map _ clipCited.assessedOnce fullCited.assessedOnce).mpr
      (claims.mono ?_ ?_)
    · intro id member
      obtain ⟨assessment, belongs, rfl⟩ := List.mem_map.mp member
      exact (clipCited.assessments assessment belongs).claim
    · intro id member
      obtain ⟨assessment, belongs, rfl⟩ := List.mem_map.mp member
      exact (fullCited.assessments assessment belongs).claim
  · intro assessment member
    rw [expanded_assessments] at member
    rcases List.mem_append.mp member with old | new
    · obtain ⟨source, belongs, rfl⟩ := List.mem_map.mp old
      have cited := clipCited.assessments source belongs
      refine ⟨known _ cited.claim, rfl, ?_, cited.abstains⟩
      intro relation related
      obtain ⟨item, itemMember, sameId, sameClaim⟩ := cited.relations relation related
      exact ⟨item, expanded_oldEvidence itemMember, sameId, sameClaim⟩
    · obtain ⟨source, belongs, rfl⟩ := List.mem_map.mp new
      have cited := fullCited.assessments source belongs
      refine ⟨?_, rfl, ?_, ?_⟩
      · rw [Assessment.prefixed_claimId]
        exact imported _ cited.claim
      · intro relation related
        rw [Assessment.prefixed_relations] at related
        obtain ⟨original, originalRelated, rfl⟩ := List.mem_map.mp related
        obtain ⟨item, itemMember, sameId, sameClaim⟩ := cited.relations original originalRelated
        refine ⟨item.prefixed (versionPrefix full.version), expanded_newEvidence itemMember,
          ?_, ?_⟩
        · rw [Evidence.prefixed_id, EvidenceRelation.prefixed_evidenceId, sameId]
        · rw [Evidence.prefixed_claimId, Assessment.prefixed_claimId, sameClaim]
      · intro silent
        rw [Assessment.prefixed_relations, List.map_eq_nil_iff] at silent
        rw [Assessment.prefixed_overall]
        exact cited.abstains silent

theorem Carried.of_distinct {rename : String → String} {claimOf : Claim → Claim}
    {evidenceOf : Evidence → Evidence} {source report : ReportVersion} (distinct : Distinct report)
    (claims : ∀ claim ∈ source.claims,
      claimOf claim ∈ report.claims ∧ (claimOf claim).id = rename claim.id)
    (evidence : ∀ item ∈ source.evidence, evidenceOf item ∈ report.evidence ∧
      (evidenceOf item).id = rename item.id ∧ (evidenceOf item).claimId = rename item.claimId)
    (assessments : ∀ assessment ∈ source.assessments, ∃ carried ∈ report.assessments,
      carried.id = rename assessment.id ∧ carried.claimId = rename assessment.claimId ∧
      carried.relations = assessment.relations.map
        (fun relation => { relation with evidenceId := rename relation.evidenceId })) :
    Carried rename claimOf evidenceOf source report := by
  have owner : ∀ claim ∈ source.claims, ∀ claimId, claim.id = claimId →
      ∀ other ∈ report.claims, other.id = rename claimId → other = claimOf claim := by
    rintro claim member _ rfl other otherMember same
    obtain ⟨carried, renamed⟩ := claims claim member
    exact List.inj_on_of_nodup_map distinct.claims otherMember carried (same.trans renamed.symm)
  refine ⟨claims, ?_, ?_, ?_⟩
  · intro item member
    obtain ⟨carried, renamed, owned⟩ := evidence item member
    exact ⟨carried, renamed, owned, fun claim known => owner claim known item.claimId⟩
  · intro assessment member
    obtain ⟨carried, stored, renamed, owned, related⟩ := assessments assessment member
    exact ⟨carried, stored, renamed, owned, related,
      fun claim known => owner claim known assessment.claimId⟩
  · intro _ _ relation _ item member cites other otherMember same
    obtain ⟨carried, renamed, _⟩ := evidence item member
    rw [← cites] at same
    exact List.inj_on_of_nodup_map distinct.evidence otherMember carried (same.trans renamed.symm)

/-- Distinct identifiers leave every reference with one possible target. -/
theorem expanded_attached (distinct : Distinct (expanded clip full sourceId identity)) :
    Attached clip full (expanded clip full sourceId identity) where
  clip := by
    refine .of_distinct distinct ?_ ?_ ?_
    · exact fun claim member => ⟨expanded_oldClaim member, rfl⟩
    · exact fun item member => ⟨expanded_oldEvidence member, rfl, rfl⟩
    · intro assessment member
      refine ⟨assessment.reversioned identity.version, ?_, rfl, rfl, (List.map_id _).symm⟩
      rw [expanded_assessments]
      exact List.mem_append_left _ (List.mem_map_of_mem member)
  full := by
    refine .of_distinct distinct ?_ ?_ ?_
    · exact fun claim member => ⟨expanded_newClaim member, rfl⟩
    · exact fun item member => ⟨expanded_newEvidence member, rfl, rfl⟩
    · intro assessment member
      refine ⟨assessment.prefixed (versionPrefix full.version) identity.version, ?_, rfl, rfl, rfl⟩
      rw [expanded_assessments]
      exact List.mem_append_right _ (List.mem_map_of_mem member)

/-- Expanding two published versions with distinct identifiers succeeds with distinct identifiers
and every reference in place, if and only if the cut, prefixed identifiers collide neither with
each other nor with the clip's. -/
theorem expandedVersion_distinct_iff (clipCited : Cited clip) (fullCited : Cited full)
    (clipDistinct : Distinct clip) (fullDistinct : Distinct full) :
    (∃ report, expandedVersion clip full sourceId identity = .ok report ∧ Distinct report ∧
      Attached clip full report) ↔ Collisionless clip full := by
  constructor
  · rintro ⟨report, accepted, distinct, _⟩
    rw [(expandedVersion_ok accepted).1] at distinct
    exact (expanded_distinct_iff clipDistinct fullDistinct).mp distinct
  · intro apart
    have distinct : Distinct (expanded clip full sourceId identity) :=
      (expanded_distinct_iff clipDistinct fullDistinct).mpr apart
    have cited := expanded_cited clipCited fullCited apart.claims distinct.evidence
    refine ⟨expanded clip full sourceId identity, ?_, distinct, expanded_attached distinct⟩
    simp only [expandedVersion, (validateCitations_iff _).mpr cited]
    rfl

end Expanded

/-! ### Importing one version twice -/

def expandedClip : Option ReportVersion :=
  latestVersion (published exampleIdentify
    (expandExample [extractExample clipId "c1", extractExample videoId "v1"]) clipId)

def firstVideo : Option ReportVersion :=
  latestVersion (published exampleIdentify [extractExample videoId "v1"] videoId)

theorem validated {report : ReportVersion} (passes : (validateCitations report).toBool = true) :
    Cited report := by
  cases outcome : validateCitations report with
  | ok _ => exact (validateCitations_iff report).mp outcome
  | error invalid => simp [outcome, Except.toBool] at passes

/-- A second expansion from the same version repeats every identifier of the first. -/
theorem expansion_repeats_identifiers :
    ¬∀ clip full sourceId identity, Cited clip → Cited full → Distinct clip → Distinct full →
      ∃ report, expandedVersion clip full sourceId identity = .ok report ∧ Distinct report ∧
        Attached clip full report := by
  intro always
  have collides : expandedClip.any (fun clip => firstVideo.any fun video =>
      (validateCitations clip).toBool && (validateCitations video).toBool && Distinct clip &&
        Distinct video &&
        !(Distinct (expanded clip video videoId (nextIdentity clipId "c3" 0 (some clip))) : Bool)) =
      true := by decide +kernel
  simp only [Option.any_eq_true, Bool.and_eq_true, decide_eq_true_eq, Bool.not_eq_true',
    decide_eq_false_iff_not] at collides
  obtain ⟨clip, _, video, _, ⟨⟨⟨clipValid, videoValid⟩, clipDistinct⟩, videoDistinct⟩, repeats⟩ :=
    collides
  obtain ⟨report, accepted, distinct, _⟩ := always clip video videoId
    (nextIdentity clipId "c3" 0 (some clip)) (validated clipValid) (validated videoValid) clipDistinct
    videoDistinct
  rw [(expandedVersion_ok accepted).1] at distinct
  exact repeats distinct

/-- The first expansion of the clip keeps all identifiers apart. -/
theorem expandedVersion_distinct_example :
    ∃ clip video report,
      expandedVersion clip video videoId (nextIdentity clipId "c2" 0 (some clip)) = .ok report ∧
        Distinct report ∧ Attached clip video report := by
  have apart : (latestVersion (published exampleIdentify [extractExample clipId "c1"] clipId)).any
      (fun clip => firstVideo.any fun video =>
        (validateCitations clip).toBool && (validateCitations video).toBool && Distinct clip &&
          Distinct video && Collisionless clip video) = true := by decide +kernel
  simp only [Option.any_eq_true, Bool.and_eq_true, decide_eq_true_eq] at apart
  obtain ⟨clip, _, video, _, ⟨⟨⟨clipValid, videoValid⟩, clipDistinct⟩, videoDistinct⟩, apart⟩ :=
    apart
  obtain ⟨report, accepted⟩ := (expandedVersion_distinct_iff (validated clipValid)
    (validated videoValid) clipDistinct videoDistinct).mpr apart
  exact ⟨clip, video, report, accepted⟩

end Ovrly.Reports
