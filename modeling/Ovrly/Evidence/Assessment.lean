import Ovrly.Reports.Builders

/-!
What an evidence run finds and concludes for one claim (`evidence/retrieval.py` and
`evidence/assessment.py`).

The candidate papers and the router's reply come from outside. Hashed identifiers and the
clean-up of a rationale are parameters.
-/

namespace Ovrly.Evidence

open Ovrly.Reports

structure Digests where
  evidenceId : String → String → String
  assessmentId : String → Nat → String
  /-- `_note`: white space collapsed, credentials redacted, cut to the limit. -/
  note : String → String

/-! ### Retrieval -/

structure Candidate where
  origin : String
  source : EvidenceSource
  sourceType : SourceType
  inspectionLevel : SourceInspectionLevel
  retrievalRelevance : RetrievalRelevance
  retractionStatus : RetractionStatus
  excerpt : Option String
  retrievedAt : Timestamp
  deriving DecidableEq, Repr

/-- The chosen candidates: `dedupe` leaves one of each origin. -/
structure Candidates where
  papers : List Candidate
  deduped : (papers.map (·.origin)).Nodup

structure Passage extends Candidate where
  passageId : String
  evidenceId : String
  deriving DecidableEq, Repr

structure ClaimRetrieval where
  claimId : String
  retrieved : Bool
  reason : Option String := none
  llmCallsUsed : Nat := 0
  failedQueries : Nat := 0
  unknownSources : List String := []
  federatedUnavailable : Bool := false
  passages : List Passage := []
  deriving DecidableEq, Repr

inductive Searched
  | unavailable (llmCallsUsed failedQueries : Nat)
  | found (candidates : Candidates) (llmCallsUsed failedQueries : Nat)
      (unknownSources : List String) (federatedUnavailable : Bool)

variable (digests : Digests)

def passagesOf (claimId : String) (papers : List Candidate) : List Passage :=
  papers.zipIdx.map fun (paper, index) =>
    { toCandidate := paper
      passageId := "p" ++ toString (index + 1)
      evidenceId := digests.evidenceId claimId paper.origin }

def retrieve (claimId : String) : Searched → ClaimRetrieval
  | .unavailable llmCallsUsed failedQueries =>
      { claimId, retrieved := false, reason := some "retrieval_unavailable", llmCallsUsed,
        failedQueries }
  | .found candidates llmCallsUsed failedQueries unknownSources federatedUnavailable =>
      { claimId, retrieved := true, llmCallsUsed, failedQueries, unknownSources,
        federatedUnavailable, passages := passagesOf digests claimId candidates.papers }

@[simp] theorem retrieve_claimId (claimId : String) (searched : Searched) :
    (retrieve digests claimId searched).claimId = claimId := by
  cases searched <;> rfl

/-! ### Assessment -/

inductive RouterLabel
  | supports | challenges | qualifies | context | cannotAssess
  deriving DecidableEq, Repr

/-- `LABELS` -/
def RouterLabel.relation : RouterLabel → Relation
  | .supports => .support
  | .challenges => .challenge
  | .qualifies => .qualify
  | .context | .cannotAssess => .insufficient

structure RelationItem where
  passageId : String
  relation : RouterLabel
  rationale : String
  deriving DecidableEq, Repr

inductive RouterAnswer
  | budgetExhausted
  | unavailable
  | replied (relations : List RelationItem)
  deriving DecidableEq, Repr

/-- `check_reply` accepts: every passage is labelled exactly once, and nothing else. -/
def checkReply (passages : List Passage) (relations : List RelationItem) : Bool :=
  relations.all (fun item => (passages.map (·.passageId)).contains item.passageId) &&
    (relations.map (·.passageId)).Nodup &&
    passages.all (fun passage => (relations.map (·.passageId)).contains passage.passageId)

def overall (pairs : List (Relation × String)) : OverallAssessment :=
  let seen (relation : Relation) : Bool := pairs.any (·.1 == relation)
  if seen .mixed || (seen .challenge && (seen .support || seen .qualify)) then .mixed
  else if seen .challenge then .challenged
  else if seen .qualify then .qualified
  else if seen .support then .supported
  else .insufficientEvidence

def discredited (passage : Passage) : Bool :=
  passage.retractionStatus == .retracted || passage.retractionStatus == .withdrawn

def RetractionStatus.text : RetractionStatus → String
  | .none => "none"
  | .corrected => "corrected"
  | .retracted => "retracted"
  | .withdrawn => "withdrawn"
  | .unknown => "unknown"

def counted (pairs : List (Relation × String)) (relation : Relation) : Nat :=
  (pairs.dedup.filter (·.1 == relation)).length

def summary (label : OverallAssessment) (pairs : List (Relation × String))
    (passages : List Passage) (retrieval : ClaimRetrieval) : String :=
  let found := [(Relation.support, "support"), (.challenge, "challenge"), (.qualify, "qualify"),
      (.mixed, "give mixed evidence on")].filterMap fun (relation, word) =>
    let sources := counted pairs relation
    if sources = 0 then none
    else some (toString sources ++ (if sources = 1 then " source " else " sources ") ++ word)
  let parts :=
    (if passages.isEmpty then ["No relevant source was found in the searched index."]
    else
      [if found.isEmpty then "The sources found do not settle this claim either way."
        else String.intercalate ", " found ++ " this claim."] ++
      (if passages.any (·.inspectionLevel == .fullText) then []
        else ["Only abstracts or metadata were read, not full texts."]) ++
      (if passages.any discredited then ["A retracted or withdrawn source was not counted."]
        else [])) ++
    (if retrieval.failedQueries ≠ 0 ∨ retrieval.unknownSources ≠ [] ∨
        retrieval.federatedUnavailable then
      ["The search was incomplete, so missing evidence is not evidence of absence."] else []) ++
    (if label = .insufficientEvidence then
      ["This is a statement about the evidence, not about whether the claim is true."] else [])
  let text := String.intercalate " " parts
  if text.length ≤ 600 then text
  else String.ofList (((text.toList.take 597).reverse.dropWhile Extraction.isSpace).reverse) ++ "..."

def toEvidence (claimId : String) (passage : Passage) : Reports.Evidence where
  id := passage.evidenceId
  claimId := claimId
  source := passage.source
  sourceType := passage.sourceType
  inspectionLevel := passage.inspectionLevel
  retrievalRelevance := passage.retrievalRelevance
  retractionStatus := passage.retractionStatus
  excerpt := passage.excerpt
  retrievedAt := passage.retrievedAt

def labelled (relations : List RelationItem) (passage : Passage) : Relation × String :=
  let label := match relations.find? (·.passageId == passage.passageId) with
    | some item => (item.relation.relation, digests.note item.rationale)
    | none => (.insufficient, "")
  if discredited passage then
    (.insufficient, digests.note ("Not counted: the source is " ++
      RetractionStatus.text passage.retractionStatus ++ ". " ++ label.2))
  else label

def concluded (retrieval : ClaimRetrieval) (version : Nat) (provisional : Bool)
    (relations : List RelationItem) : ClaimOutcome :=
  let pairs := retrieval.passages.map fun passage =>
    ((labelled digests relations passage).1, passage.origin)
  { claimId := retrieval.claimId
    assessment := some {
      id := digests.assessmentId retrieval.claimId version
      claimId := retrieval.claimId
      version
      relations := retrieval.passages.map fun passage =>
        ⟨passage.evidenceId, (labelled digests relations passage).1,
          some (labelled digests relations passage).2⟩
      overall := overall pairs
      provisional
      summary := summary (overall pairs) pairs retrieval.passages retrieval }
    evidence := retrieval.passages.map (toEvidence retrieval.claimId)
    reason := none }

/-- `Assessor.assess`; a reply that `check_reply` refuses counts as none. -/
def assess (retrieval : ClaimRetrieval) (version : Nat) (provisional : Bool)
    (answer : RouterAnswer) : ClaimOutcome :=
  let unassessed (reason : Option String) : ClaimOutcome := ⟨retrieval.claimId, none, [], reason⟩
  if retrieval.retrieved = false then unassessed retrieval.reason
  else if retrieval.passages = [] then concluded digests retrieval version provisional []
  else
    match answer with
    | .budgetExhausted => unassessed (some "llm_budget_exhausted")
    | .unavailable => unassessed (some "assessment_unavailable")
    | .replied relations =>
        if checkReply retrieval.passages relations then
          concluded digests retrieval version provisional relations
        else unassessed (some "assessment_unavailable")

/-! ### What an outcome is about -/

/-- An outcome speaks of its own claim only: its evidence is that of the passages, and its
assessment cites nothing else. -/
structure About (outcome : ClaimOutcome) (retrieval : ClaimRetrieval) : Prop where
  claim : outcome.claimId = retrieval.claimId
  evidence : outcome.evidence = [] ∧ outcome.assessment = none ∨
    outcome.evidence = retrieval.passages.map (toEvidence retrieval.claimId) ∧
      ∃ assessment, outcome.assessment = some assessment ∧
        assessment.claimId = retrieval.claimId ∧
        assessment.relations.map (·.evidenceId) = retrieval.passages.map (·.evidenceId) ∧
        (assessment.relations = [] → assessment.overall = .insufficientEvidence)

variable {digests}

theorem concluded_about (retrieval : ClaimRetrieval) (version : Nat) (provisional : Bool)
    (relations : List RelationItem) :
    About (concluded digests retrieval version provisional relations) retrieval := by
  refine ⟨rfl, .inr ⟨rfl, _, rfl, rfl, ?_, ?_⟩⟩
  · rw [List.map_map]
    rfl
  · intro none
    have empty : retrieval.passages = [] := List.map_eq_nil_iff.mp none
    simp [empty, overall]

theorem assess_about (retrieval : ClaimRetrieval) (version : Nat) (provisional : Bool)
    (answer : RouterAnswer) :
    About (assess digests retrieval version provisional answer) retrieval := by
  have unassessed (reason : Option String) :
      About ⟨retrieval.claimId, none, [], reason⟩ retrieval := ⟨rfl, .inl ⟨rfl, rfl⟩⟩
  simp only [assess]
  split
  · exact unassessed _
  · split
    · exact concluded_about retrieval version provisional []
    · cases answer with
      | budgetExhausted => exact unassessed _
      | unavailable => exact unassessed _
      | replied relations =>
          dsimp only
          split
          · exact concluded_about retrieval version provisional relations
          · exact unassessed _

theorem About.owned {outcome : ClaimOutcome} {retrieval : ClaimRetrieval}
    (about : About outcome retrieval) :
    (∀ assessment ∈ outcome.assessment, assessment.claimId = retrieval.claimId) ∧
      ∀ item ∈ outcome.evidence, item.claimId = retrieval.claimId := by
  rcases about.evidence with ⟨evidence, assessment⟩ | ⟨evidence, assessment, known, claim, _⟩
  · simp [evidence, assessment]
  · refine ⟨?_, ?_⟩
    · rw [known]
      rintro _ ⟨⟩
      exact claim
    · rw [evidence]
      intro item member
      obtain ⟨passage, _, rfl⟩ := List.mem_map.mp member
      rfl

end Ovrly.Evidence
