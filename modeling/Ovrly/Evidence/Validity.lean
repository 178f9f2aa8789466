import Ovrly.Evidence.Stages

/-!
Citation validation passes what an evidence run publishes.

Evidence identifiers are digests of the claim and the origin, cut to 24 digits. Where those of
the pairs an investigation has retrieved differ, a version none of whose evidence came from
elsewhere takes the outcomes of any artifact about its claims.
-/

namespace Ovrly.Evidence

open Ovrly.Reports

def RetrievalArtifact.pairs (artifact : RetrievalArtifact) : List (String × String) :=
  artifact.claims.flatMap fun retrieval => retrieval.passages.map fun passage =>
    (retrieval.claimId, passage.origin)

/-- `evidence_id` gives the given pairs of a claim and an origin different identifiers. -/
def Digests.Separates (digests : Digests) (pairs : List (String × String)) : Prop :=
  ∀ first ∈ pairs, ∀ second ∈ pairs,
    digests.evidenceId first.1 first.2 = digests.evidenceId second.1 second.2 → first = second

instance (digests : Digests) (pairs : List (String × String)) :
    Decidable (digests.Separates pairs) :=
  inferInstanceAs (Decidable (∀ first ∈ pairs, ∀ second ∈ pairs, _ → first = second))

def exampleDigests : Digests where
  evidenceId claimId origin := String.ofList
    (List.replicate claimId.toList.length 'x' ++ '_' :: (claimId.toList ++ origin.toList))
  assessmentId claimId version := "as_" ++ claimId ++ "_" ++ toString version
  note text := text

structure Retrieved (digests : Digests) (retrieval : ClaimRetrieval) : Prop where
  named : ∀ passage ∈ retrieval.passages,
    passage.evidenceId = digests.evidenceId retrieval.claimId passage.origin
  origins : (retrieval.passages.map (·.origin)).Nodup

/-- The evidence of a report carries identifiers of its claims, for known origins. -/
def Identified (digests : Digests) (known : List (String × String))
    (evidence : List Reports.Evidence) : Prop :=
  ∀ item ∈ evidence, ∃ origin, (item.claimId, origin) ∈ known ∧
    item.id = digests.evidenceId item.claimId origin

variable {digests : Digests} {known : List (String × String)}

theorem retrieveAt_retrieved (claimLimit : Nat) (searched : Nat → Searched) (claim : Claim)
    (index : Nat) : Retrieved digests (retrieveAt digests claimLimit searched claim index) := by
  simp only [retrieveAt]
  split
  · exact ⟨by simp, by simp⟩
  · cases searched index with
    | unavailable => exact ⟨by simp [retrieve], by simp [retrieve]⟩
    | found candidates =>
        constructor
        · intro passage member
          obtain ⟨entry, _, rfl⟩ := List.mem_map.mp member
          rfl
        · have same : (passagesOf digests claim.id candidates.papers).map (·.origin) =
              candidates.papers.map (·.origin) := by
            rw [passagesOf, List.map_map]
            conv_rhs => rw [← List.zipIdx_map_fst 0 candidates.papers, List.map_map]
            rfl
          exact same ▸ candidates.deduped

theorem Retrieved.distinct {retrieval : ClaimRetrieval} (retrieved : Retrieved digests retrieval)
    (separates : digests.Separates known)
    (held : ∀ passage ∈ retrieval.passages, (retrieval.claimId, passage.origin) ∈ known) :
    (retrieval.passages.map (·.evidenceId)).Nodup := by
  refine List.Nodup.map_on ?_ (List.Nodup.of_map _ retrieved.origins)
  intro first firstMember second secondMember same
  rw [retrieved.named first firstMember, retrieved.named second secondMember] at same
  have one := separates _ (held first firstMember) _ (held second secondMember) same
  exact List.inj_on_of_nodup_map retrieved.origins firstMember secondMember
    (Prod.mk.inj one).2

/-! ### The outcomes of a run -/

section Outcomes

variable {answer : Nat → RouterAnswer} {artifact : RetrievalArtifact} {base : ReportVersion}
  {version : Nat} {captureOpen : Bool}

theorem assessmentOutcomes_claimIds :
    (assessmentOutcomes digests answer artifact base version captureOpen).map (·.claimId) =
      (artifact.claims.map (·.claimId)).filter fun id => id ∈ base.claims.map (·.id) := by
  have each (claims : List ClaimRetrieval) (start : Nat) :
      ((claims.zipIdx start).filterMap fun item =>
        if item.1.claimId ∈ base.claims.map (·.id) then
          some (assess digests item.1 version captureOpen (answer item.2))
        else none).map (·.claimId) =
        (claims.map (·.claimId)).filter fun id => id ∈ base.claims.map (·.id) := by
    induction claims generalizing start with
    | nil => rfl
    | cons retrieval rest ih =>
        rw [List.zipIdx_cons, List.map_cons, List.filterMap_cons]
        by_cases known : retrieval.claimId ∈ base.claims.map (·.id)
        · rw [List.filter_cons_of_pos (by simpa using known), ← ih (start + 1)]
          simp only [known, if_true, List.map_cons]
          rw [(assess_about _ _ _ _).claim]
        · rw [List.filter_cons_of_neg (by simpa using known), ← ih (start + 1)]
          simp only [known, if_false]
  exact each artifact.claims 0

/-- What validation needs of an artifact and of the version it is about. -/
structure Assessable (digests : Digests) (artifact : RetrievalArtifact) : Prop where
  retrieved : ∀ retrieval ∈ artifact.claims, Retrieved digests retrieval
  distinct : (artifact.claims.map (·.claimId)).Nodup

structure Concluded (outcome : ClaimOutcome) (retrieval : ClaimRetrieval)
    (assessment : Assessment) : Prop where
  claim : outcome.claimId = retrieval.claimId
  assessed : outcome.assessment = some assessment
  assessedClaim : assessment.claimId = retrieval.claimId
  evidence : outcome.evidence = retrieval.passages.map (toEvidence retrieval.claimId)
  cites : assessment.relations.map (·.evidenceId) = retrieval.passages.map (·.evidenceId)
  abstains : assessment.relations = [] → assessment.overall = .insufficientEvidence

theorem About.concluded {outcome : ClaimOutcome} {retrieval : ClaimRetrieval}
    (about : About outcome retrieval) {assessment : Assessment}
    (assessed : outcome.assessment = some assessment) :
    Concluded outcome retrieval assessment := by
  rcases about.evidence with ⟨_, none⟩ | ⟨evidence, other, isOther, named, cites, abstains⟩
  · simp [none] at assessed
  · obtain rfl := Option.some.inj (isOther.symm.trans assessed)
    exact ⟨about.claim, assessed, named, evidence, cites, abstains⟩

theorem mem_assessedScope {outcomes : List ClaimOutcome} {outcome : ClaimOutcome}
    (member : outcome ∈ outcomes.filter (·.assessment.isSome)) :
    outcome.claimId ∈ assessedScope outcomes :=
  List.mem_map_of_mem member

theorem assessedScope_eq {outcomes : List ClaimOutcome}
    (owned : ∀ outcome ∈ outcomes, ∀ assessment ∈ outcome.assessment,
      assessment.claimId = outcome.claimId) :
    (outcomes.filterMap (·.assessment)).map (·.claimId) = assessedScope outcomes := by
  induction outcomes with
  | nil => rfl
  | cons outcome rest ih =>
      have later := ih fun other member => owned other (List.mem_cons_of_mem _ member)
      rw [assessedScope] at later ⊢
      cases assessed : outcome.assessment with
      | none =>
          rw [List.filterMap_cons_none assessed, List.filter_cons_of_neg (by simp [assessed])]
          exact later
      | some assessment =>
          rw [List.filterMap_cons_some assessed, List.filter_cons_of_pos (by simp [assessed]),
            List.map_cons, List.map_cons, later,
            owned outcome List.mem_cons_self assessment assessed]

/-- The outcomes of one run: each speaks of one claim of the base, no two of the same. -/
structure RunOn (base : ReportVersion) (outcomes : List ClaimOutcome) : Prop where
  about : ∀ outcome ∈ outcomes, ∃ retrieval, About outcome retrieval
  known : ∀ outcome ∈ outcomes, outcome.claimId ∈ base.claims.map (·.id)
  distinct : (outcomes.map (·.claimId)).Nodup

namespace RunOn

variable {base : ReportVersion} {outcomes : List ClaimOutcome} {scope : List String}
  {captureOpen : Bool} {depth : Depth} {identity : NextVersion}

theorem owned (run : RunOn base outcomes) {outcome : ClaimOutcome} (member : outcome ∈ outcomes) :
    (∀ assessment ∈ outcome.assessment, assessment.claimId = outcome.claimId) ∧
      ∀ item ∈ outcome.evidence, item.claimId = outcome.claimId := by
  obtain ⟨retrieval, about⟩ := run.about outcome member
  rw [about.claim]
  exact about.owned

theorem assessedOnce (run : RunOn base outcomes) (cited : Cited base)
    (inScope : ∀ id, id ∈ scope ↔ id ∈ assessedScope outcomes) :
    ((merged base outcomes scope captureOpen depth identity).assessments.map
      (·.claimId)).Nodup := by
  have renewedClaim : (·.claimId) ∘ Assessment.renewed identity.version captureOpen =
      Assessment.claimId := rfl
  have distinct : (assessedScope outcomes).Nodup :=
    run.distinct.sublist (List.filter_sublist.map _)
  rw [merged, List.map_append, List.map_map, List.map_map, renewedClaim,
    assessedScope_eq fun outcome member => (run.owned member).1, List.nodup_append]
  refine ⟨cited.assessedOnce.sublist (List.filter_sublist.map _), distinct, ?_⟩
  rintro id old id' new rfl
  obtain ⟨assessment, kept, rfl⟩ := List.mem_map.mp old
  have outside := (List.mem_filter.mp kept).2
  simp only [Bool.not_eq_true', List.contains_eq_mem, decide_eq_false_iff_not] at outside
  exact outside ((inScope _).mpr new)

/-- Only the identifiers of the evidence can make a merged version invalid. -/
theorem merged_cited (run : RunOn base outcomes) (cited : Cited base)
    (inScope : ∀ id, id ∈ scope ↔ id ∈ assessedScope outcomes)
    (evidenceDistinct :
      ((merged base outcomes scope captureOpen depth identity).evidence.map (·.id)).Nodup) :
    Cited (merged base outcomes scope captureOpen depth identity) := by
  refine ⟨evidenceDistinct, ?_, run.assessedOnce cited inScope, ?_⟩
  · intro item member
    rcases List.mem_append.mp member with old | new
    · exact cited.evidenceOwned item (List.mem_of_mem_filter old)
    · obtain ⟨outcome, among, belongs⟩ := List.mem_flatMap.mp new
      have member := List.mem_of_mem_filter among
      rw [(run.owned member).2 item belongs]
      exact run.known outcome member
  · intro assessment member
    rcases List.mem_append.mp member with old | new
    · obtain ⟨earlier, kept, rfl⟩ := List.mem_map.mp old
      obtain ⟨belongs, outside⟩ := List.mem_filter.mp kept
      have citedIn := cited.assessments earlier belongs
      refine ⟨citedIn.claim, rfl, ?_, citedIn.abstains⟩
      intro relation related
      obtain ⟨item, itemMember, sameId, sameClaim⟩ := citedIn.relations relation related
      refine ⟨item, List.mem_append_left _ (List.mem_filter.mpr ⟨itemMember, ?_⟩), sameId,
        sameClaim⟩
      rw [sameClaim]
      exact outside
    · obtain ⟨given, among, rfl⟩ := List.mem_map.mp new
      obtain ⟨outcome, member, assessed⟩ := List.mem_filterMap.mp among
      obtain ⟨retrieval, about⟩ := run.about outcome member
      have concluded := about.concluded assessed
      have ofClaim : given.claimId = outcome.claimId :=
        concluded.assessedClaim.trans concluded.claim.symm
      refine ⟨?_, rfl, ?_, concluded.abstains⟩
      · show given.claimId ∈ base.claims.map (·.id)
        rw [ofClaim]
        exact run.known outcome member
      · intro relation related
        have cites := List.mem_map_of_mem (f := (·.evidenceId)) related
        rw [show (Assessment.renewed identity.version captureOpen given).relations =
          given.relations from rfl, concluded.cites] at cites
        obtain ⟨passage, isPassage, sameId⟩ := List.mem_map.mp cites
        have carried : toEvidence retrieval.claimId passage ∈ outcome.evidence := by
          rw [concluded.evidence]
          exact List.mem_map_of_mem isPassage
        refine ⟨_, List.mem_append_right _ (List.mem_flatMap.mpr
          ⟨outcome, List.mem_filter.mpr ⟨member, by simp [assessed]⟩, carried⟩), sameId, ?_⟩
        exact concluded.assessedClaim.symm

end RunOn

variable (assessable : Assessable digests artifact)

include assessable in
theorem outcomes_distinct :
    ((assessmentOutcomes digests answer artifact base version captureOpen).map
      (·.claimId)).Nodup := by
  rw [assessmentOutcomes_claimIds]
  exact assessable.distinct.filter _

theorem outcome_known {outcome : ClaimOutcome}
    (member : outcome ∈ assessmentOutcomes digests answer artifact base version captureOpen) :
    outcome.claimId ∈ base.claims.map (·.id) := by
  have named := List.mem_map_of_mem (f := (·.claimId)) member
  rw [assessmentOutcomes_claimIds, List.mem_filter] at named
  simpa using named.2

variable (separates : digests.Separates known) (held : ∀ pair ∈ artifact.pairs, pair ∈ known)

include assessable separates held in
theorem outcome_evidence {outcome : ClaimOutcome}
    (member : outcome ∈ assessmentOutcomes digests answer artifact base version captureOpen) :
    (∀ item ∈ outcome.evidence, item.claimId = outcome.claimId ∧
        ∃ origin, (outcome.claimId, origin) ∈ known ∧
          item.id = digests.evidenceId outcome.claimId origin) ∧
      (outcome.evidence.map (·.id)).Nodup := by
  obtain ⟨retrieval, among, about⟩ := assessmentOutcomes_about member
  have retrieved := assessable.retrieved retrieval among
  have own : ∀ passage ∈ retrieval.passages, (retrieval.claimId, passage.origin) ∈ known :=
    fun passage belongs => held _ (List.mem_flatMap.mpr
      ⟨retrieval, among, List.mem_map_of_mem belongs⟩)
  rw [about.claim]
  rcases about.evidence with ⟨none, _⟩ | ⟨evidence, _⟩
  · simp [none]
  · rw [evidence]
    constructor
    · intro item belongs
      obtain ⟨passage, isPassage, rfl⟩ := List.mem_map.mp belongs
      exact ⟨rfl, passage.origin, own passage isPassage, retrieved.named passage isPassage⟩
    · rw [List.map_map]
      exact retrieved.distinct separates own

section Merged

variable (cited : Cited base) (identified : Identified digests known base.evidence)

include assessable separates held cited identified in
theorem merged_evidenceDistinct {depth : Depth} {identity : NextVersion} :
    let outcomes := assessmentOutcomes digests answer artifact base version captureOpen
    ((merged base outcomes (assessedScope outcomes) captureOpen depth identity).evidence.map
      (·.id)).Nodup := by
  intro outcomes
  have evidence : ∀ outcome ∈ outcomes, _ := fun outcome member =>
    outcome_evidence assessable separates held member
  rw [merged, List.map_append, List.nodup_append]
  refine ⟨cited.evidenceDistinct.sublist (List.filter_sublist.map _), ?_, ?_⟩
  · rw [List.map_flatMap, List.nodup_flatMap]
    refine ⟨fun outcome member => (evidence outcome (List.mem_of_mem_filter member)).2, ?_⟩
    have distinct : ((outcomes.filter (·.assessment.isSome)).map (·.claimId)).Nodup :=
      (outcomes_distinct assessable).sublist (List.filter_sublist.map _)
    refine (List.pairwise_map.mp distinct).imp_of_mem ?_
    intro first second firstMember secondMember different id firstHas secondHas
    obtain ⟨item, itemMember, rfl⟩ := List.mem_map.mp firstHas
    obtain ⟨other, otherMember, same⟩ := List.mem_map.mp secondHas
    obtain ⟨_, origin, isKnown, isItem⟩ :=
      (evidence first (List.mem_of_mem_filter firstMember)).1 item itemMember
    obtain ⟨_, origin', isKnown', isOther⟩ :=
      (evidence second (List.mem_of_mem_filter secondMember)).1 other otherMember
    exact different (Prod.mk.inj (separates _ isKnown _ isKnown'
      (isItem.symm.trans (same.symm.trans isOther)))).1
  · rintro id old id' new rfl
    obtain ⟨item, kept, rfl⟩ := List.mem_map.mp old
    obtain ⟨other, otherMember, same⟩ := List.mem_map.mp new
    obtain ⟨outcome, member, among⟩ := List.mem_flatMap.mp otherMember
    obtain ⟨belongs, outside⟩ := List.mem_filter.mp kept
    obtain ⟨origin, isKnown, isItem⟩ := identified item belongs
    obtain ⟨_, origin', isKnown', isOther⟩ :=
      (evidence outcome (List.mem_of_mem_filter member)).1 other among
    have sameClaim := (Prod.mk.inj (separates _ isKnown _ isKnown'
      (isItem.symm.trans (same.symm.trans isOther)))).1
    have inScope := mem_assessedScope member
    rw [← sameClaim] at inScope
    simp only [Bool.not_eq_true', List.contains_eq_mem, decide_eq_false_iff_not] at outside
    exact outside inScope

include assessable in
theorem runOn : RunOn base
    (assessmentOutcomes digests answer artifact base version captureOpen) where
  about _ member := by
    obtain ⟨retrieval, _, about⟩ := assessmentOutcomes_about member
    exact ⟨retrieval, about⟩
  known _ member := outcome_known member
  distinct := outcomes_distinct assessable

include assessable separates held cited identified in
/-- An assessment of an artifact on the version it is about passes validation. -/
theorem merged_cited {depth : Depth} {identity : NextVersion} :
    let outcomes := assessmentOutcomes digests answer artifact base version captureOpen
    Cited (merged base outcomes (assessedScope outcomes) captureOpen depth identity) :=
  (runOn assessable).merged_cited cited (fun _ => Iff.rfl)
    (merged_evidenceDistinct assessable separates held cited identified)

end Merged

end Outcomes

end Ovrly.Evidence
