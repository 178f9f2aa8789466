import Ovrly.Reports.Model
import Mathlib.Data.List.Nodup

/-!
Citation validation (`validate_citations` of `evidence/assessment.py`) and what keeps it.
-/

namespace Ovrly.Reports

structure CitationInvalid where
  message : String
  deriving DecidableEq, Repr

def evidenceOf (report : ReportVersion) (id : String) : Option Evidence :=
  report.evidence.find? (·.id == id)

/-- The loop of `validate_citations` over the assessments. -/
def checkAssessments (report : ReportVersion) (assessed : List String) :
    List Assessment → Except CitationInvalid Unit
  | [] => .ok ()
  | assessment :: rest =>
      if assessment.claimId ∉ report.claims.map (·.id) ∨ assessment.claimId ∈ assessed then
        .error ⟨"assessment refers to an unknown or repeated claim"⟩
      else if assessment.version ≠ report.version then
        .error ⟨"assessment version differs from the report"⟩
      else if assessment.relations.any fun relation =>
          (evidenceOf report relation.evidenceId).all (·.claimId != assessment.claimId) then
        .error ⟨"relation cites missing or foreign evidence"⟩
      else if assessment.relations.isEmpty ∧ assessment.overall ≠ .insufficientEvidence then
        .error ⟨"an assessment without relations must abstain"⟩
      else checkAssessments report (assessment.claimId :: assessed) rest

/-- Every relation cites existing evidence of the same claim. -/
def validateCitations (report : ReportVersion) : Except CitationInvalid Unit :=
  if ¬(report.evidence.map (·.id)).Nodup then .error ⟨"duplicate evidence id"⟩
  else if ∃ item ∈ report.evidence, item.claimId ∉ report.claims.map (·.id) then
    .error ⟨"evidence refers to a claim outside the version"⟩
  else checkAssessments report [] report.assessments

structure Assessment.CitedIn (assessment : Assessment) (report : ReportVersion) : Prop where
  claim : assessment.claimId ∈ report.claims.map (·.id)
  version : assessment.version = report.version
  relations : ∀ relation ∈ assessment.relations, ∃ item ∈ report.evidence,
    item.id = relation.evidenceId ∧ item.claimId = assessment.claimId
  abstains : assessment.relations = [] → assessment.overall = .insufficientEvidence

structure Cited (report : ReportVersion) : Prop where
  evidenceDistinct : (report.evidence.map (·.id)).Nodup
  evidenceOwned : ∀ item ∈ report.evidence, item.claimId ∈ report.claims.map (·.id)
  assessedOnce : (report.assessments.map (·.claimId)).Nodup
  assessments : ∀ assessment ∈ report.assessments, assessment.CitedIn report

theorem evidenceOf_eq {report : ReportVersion} (distinct : (report.evidence.map (·.id)).Nodup)
    {id : String} {item : Evidence} :
    evidenceOf report id = some item ↔ item ∈ report.evidence ∧ item.id = id := by
  constructor
  · intro found
    have matched := List.find?_some found
    exact ⟨List.mem_of_find?_eq_some found, by simpa using matched⟩
  · rintro ⟨member, rfl⟩
    cases found : evidenceOf report item.id with
    | none =>
        have absent := List.find?_eq_none.mp found item member
        simp at absent
    | some other =>
        have matched := List.find?_some found
        have sameId : other.id = item.id := by simpa using matched
        rw [Option.some.injEq]
        exact List.inj_on_of_nodup_map distinct (List.mem_of_find?_eq_some found) member sameId

theorem foreign_iff {report : ReportVersion} (distinct : (report.evidence.map (·.id)).Nodup)
    (id claimId : String) :
    (evidenceOf report id).all (·.claimId != claimId) = false ↔
      ∃ item ∈ report.evidence, item.id = id ∧ item.claimId = claimId := by
  cases found : evidenceOf report id with
  | none =>
      simp only [Option.all_none, Bool.true_eq_false, false_iff]
      rintro ⟨item, member, same, _⟩
      rw [(evidenceOf_eq distinct).mpr ⟨member, same⟩] at found
      simp at found
  | some item =>
      obtain ⟨member, same⟩ := (evidenceOf_eq distinct).mp found
      simp only [Option.all_some, bne_eq_false_iff_eq]
      constructor
      · exact fun owner => ⟨item, member, same, owner⟩
      · rintro ⟨other, otherMember, otherSame, owner⟩
        rw [List.inj_on_of_nodup_map distinct member otherMember (same.trans otherSame.symm)]
        exact owner

theorem checkAssessments_iff {report : ReportVersion}
    (distinct : (report.evidence.map (·.id)).Nodup) {assessed : List String}
    {assessments : List Assessment} :
    checkAssessments report assessed assessments = .ok () ↔
      (∀ assessment ∈ assessments, assessment.CitedIn report ∧ assessment.claimId ∉ assessed) ∧
        (assessments.map (·.claimId)).Nodup := by
  induction assessments generalizing assessed with
  | nil => simp [checkAssessments]
  | cons assessment rest ih =>
      have head : checkAssessments report assessed (assessment :: rest) = .ok () ↔
          (assessment.CitedIn report ∧ assessment.claimId ∉ assessed) ∧
            checkAssessments report (assessment.claimId :: assessed) rest = .ok () := by
        simp only [checkAssessments]
        split
        · rename_i refused
          simp only [reduceCtorEq, false_iff, not_and]
          rintro ⟨cited, unseen⟩
          exact absurd refused (by simp [cited.claim, unseen])
        · rename_i known
          push Not at known
          split
          · rename_i other
            simp only [reduceCtorEq, false_iff, not_and]
            exact fun ⟨cited, _⟩ => absurd cited.version other
          · rename_i sameVersion
            split
            · rename_i foreign
              simp only [reduceCtorEq, false_iff, not_and]
              rintro ⟨cited, _⟩
              obtain ⟨relation, member, foreign⟩ := List.any_eq_true.mp foreign
              have owned := (foreign_iff distinct _ _).mpr (cited.relations relation member)
              rw [owned] at foreign
              exact absurd foreign Bool.false_ne_true
            · rename_i owned
              split
              · rename_i silent
                simp only [reduceCtorEq, false_iff, not_and]
                rintro ⟨cited, _⟩
                exact absurd (cited.abstains (by simpa using silent.1)) silent.2
              · rename_i spoken
                refine ⟨fun rest => ⟨⟨⟨known.1, by simpa using sameVersion, ?_, ?_⟩, known.2⟩, rest⟩,
                  fun both => both.2⟩
                · intro relation member
                  rw [Bool.not_eq_true, List.any_eq_false] at owned
                  have cites := owned relation member
                  rw [Bool.not_eq_true] at cites
                  exact (foreign_iff distinct _ _).mp cites
                · intro silent
                  by_contra speaks
                  exact spoken ⟨by simp [silent], speaks⟩
      rw [head, ih, List.map_cons, List.nodup_cons]
      constructor
      · rintro ⟨⟨cited, unseen⟩, others, distinctRest⟩
        refine ⟨?_, ?_, distinctRest⟩
        · intro other member
          rcases List.mem_cons.mp member with rfl | member
          · exact ⟨cited, unseen⟩
          · exact ⟨(others other member).1, fun seen =>
              (others other member).2 (List.mem_cons_of_mem _ seen)⟩
        · intro repeated
          obtain ⟨other, member, same⟩ := List.mem_map.mp repeated
          exact (others other member).2 (same ▸ List.mem_cons_self)
      · rintro ⟨all, fresh, distinctRest⟩
        refine ⟨all assessment List.mem_cons_self, ?_, distinctRest⟩
        intro other member
        refine ⟨(all other (List.mem_cons_of_mem _ member)).1, ?_⟩
        intro seen
        rcases List.mem_cons.mp seen with same | seen
        · exact fresh (List.mem_map.mpr ⟨other, member, same⟩)
        · exact (all other (List.mem_cons_of_mem _ member)).2 seen

theorem validateCitations_iff (report : ReportVersion) :
    validateCitations report = .ok () ↔ Cited report := by
  simp only [validateCitations]
  split
  · rename_i repeated
    simp only [reduceCtorEq, false_iff]
    exact fun cited => repeated cited.evidenceDistinct
  · rename_i distinct
    rw [not_not] at distinct
    split
    · rename_i outside
      simp only [reduceCtorEq, false_iff]
      intro cited
      obtain ⟨item, member, unknown⟩ := outside
      exact unknown (cited.evidenceOwned item member)
    · rename_i owned
      push Not at owned
      rw [checkAssessments_iff distinct]
      constructor
      · rintro ⟨all, once⟩
        exact ⟨distinct, owned, once, fun assessment member => (all assessment member).1⟩
      · intro cited
        exact ⟨fun assessment member => ⟨cited.assessments assessment member, by simp⟩,
          cited.assessedOnce⟩

/-- Dropping the evidence and the assessments of some claims, and none of the claims, keeps the
citations of the rest. -/
theorem Cited.restrict {base next : ReportVersion} (cited : Cited base) (keep : String → Bool)
    (claims : ∀ id ∈ base.claims.map (·.id), id ∈ next.claims.map (·.id))
    (evidence : next.evidence = base.evidence.filter fun item => keep item.claimId)
    (assessments : next.assessments = (base.assessments.filter fun assessment =>
      keep assessment.claimId).map (Assessment.reversioned next.version)) : Cited next where
  evidenceDistinct := by
    rw [evidence]
    exact cited.evidenceDistinct.sublist (List.filter_sublist.map _)
  evidenceOwned := by
    intro item member
    rw [evidence] at member
    exact claims _ (cited.evidenceOwned item (List.mem_of_mem_filter member))
  assessedOnce := by
    rw [assessments, List.map_map]
    exact cited.assessedOnce.sublist (List.filter_sublist.map _)
  assessments := by
    intro assessment member
    rw [assessments] at member
    obtain ⟨old, oldMember, rfl⟩ := List.mem_map.mp member
    obtain ⟨belongs, kept⟩ := List.mem_filter.mp oldMember
    have citedIn := cited.assessments old belongs
    refine ⟨claims _ citedIn.claim, rfl, ?_, citedIn.abstains⟩
    intro relation related
    obtain ⟨item, itemMember, sameId, sameClaim⟩ := citedIn.relations relation related
    refine ⟨item, ?_, sameId, sameClaim⟩
    rw [evidence, List.mem_filter]
    exact ⟨itemMember, by rw [sameClaim]; exact kept⟩

end Ovrly.Reports
