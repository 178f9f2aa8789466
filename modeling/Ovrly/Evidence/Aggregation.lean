import Ovrly.Evidence.Validity

/-!
The label of a claim depends on which relations its origins have, and on nothing else: not on the
order of the passages, on how often an origin occurs or on what a discredited source says.
-/

namespace Ovrly.Evidence

open Ovrly.Reports

variable (digests : Digests)

/-- The (relation, origin) pairs that `Assessor.assess` counts. -/
def countedPairs (retrieval : ClaimRetrieval) (relations : List RelationItem) :
    List (Relation × String) :=
  retrieval.passages.map fun passage => ((labelled digests relations passage).1, passage.origin)

def judged (version : Nat) (provisional : Bool) (retrieval : ClaimRetrieval)
    (relations : List RelationItem) : Option OverallAssessment × (Relation → Nat) :=
  ((assess digests retrieval version provisional (.replied relations)).assessment.map (·.overall),
    counted (countedPairs digests retrieval relations))

def relabel (passageId : String) (label : RouterLabel) (rationale : String)
    (relations : List RelationItem) : List RelationItem :=
  relations.map fun item => if item.passageId = passageId then
    { item with relation := label, rationale := rationale } else item

section Sets

variable {pairs others : List (Relation × String)}

theorem any_relation_iff {relation : Relation} :
    pairs.any (·.1 == relation) = true ↔ ∃ pair ∈ pairs, pair.1 = relation := by
  simp only [List.any_eq_true, beq_iff_eq]

/-- Only the relations that settle something decide the label. -/
theorem overall_congr (same : ∀ relation ≠ .insufficient,
    ((∃ pair ∈ pairs, pair.1 = relation) ↔ ∃ pair ∈ others, pair.1 = relation)) :
    overall pairs = overall others := by
  have seen (relation : Relation) (settles : relation ≠ .insufficient) :
      pairs.any (·.1 == relation) = others.any (·.1 == relation) := by
    rw [Bool.eq_iff_iff, any_relation_iff, any_relation_iff]
    exact same relation settles
  simp only [overall, seen .mixed (by decide), seen .challenge (by decide),
    seen .support (by decide), seen .qualify (by decide)]

theorem counted_congr (same : ∀ pair, pair ∈ pairs ↔ pair ∈ others) :
    counted pairs = counted others := by
  funext relation
  have distinct : pairs.dedup.Perm others.dedup :=
    (List.perm_ext_iff_of_nodup pairs.nodup_dedup others.nodup_dedup).mpr fun pair => by
      rw [List.mem_dedup, List.mem_dedup]
      exact same pair
  exact (distinct.filter _).length_eq

theorem overall_abstains_iff :
    overall pairs = .insufficientEvidence ↔ ∀ pair ∈ pairs, pair.1 = .insufficient := by
  unfold overall
  constructor
  · intro abstains pair member
    cases relation : pair.1 with
    | insufficient => rfl
    | support =>
        have seen := any_relation_iff.mpr ⟨pair, member, relation⟩
        revert abstains
        simp only [seen]
        split <;> [simp; (split <;> [simp; (split <;> simp)])]
    | challenge =>
        have seen := any_relation_iff.mpr ⟨pair, member, relation⟩
        revert abstains
        simp only [seen]
        split <;> simp
    | qualify =>
        have seen := any_relation_iff.mpr ⟨pair, member, relation⟩
        revert abstains
        simp only [seen]
        split <;> [simp; (split <;> simp)]
    | mixed =>
        have seen := any_relation_iff.mpr ⟨pair, member, relation⟩
        revert abstains
        simp only [seen]
        simp
  · intro none
    have unseen (relation : Relation) (settles : relation ≠ .insufficient) :
        pairs.any (·.1 == relation) = false := by
      rw [Bool.eq_false_iff]
      intro seen
      obtain ⟨pair, member, rfl⟩ := any_relation_iff.mp seen
      exact settles (none pair member)
    simp [unseen]

theorem overall_challenged (challenge : ∃ pair ∈ pairs, pair.1 = .challenge) :
    overall pairs = .mixed ∨ overall pairs = .challenged := by
  have seen := any_relation_iff.mpr challenge
  unfold overall
  simp only [seen]
  split
  · exact Or.inl rfl
  · exact Or.inr rfl

end Sets

section Replies

variable {digests} {retrieval : ClaimRetrieval} {relations : List RelationItem}

/-- What `check_reply` accepts. -/
theorem checkReply_iff {passages : List Passage} : checkReply passages relations = true ↔
    (∀ item ∈ relations, item.passageId ∈ passages.map (·.passageId)) ∧
      (relations.map (·.passageId)).Nodup ∧
      ∀ passage ∈ passages, passage.passageId ∈ relations.map (·.passageId) := by
  simp only [checkReply, Bool.and_eq_true, List.all_eq_true, List.contains_iff_mem,
    decide_eq_true_eq, and_assoc]

theorem find_item {item : RelationItem} (distinct : (relations.map (·.passageId)).Nodup)
    (member : item ∈ relations) :
    relations.find? (·.passageId == item.passageId) = some item := by
  induction relations with
  | nil => cases member
  | cons first rest ih =>
      rw [List.map_cons, List.nodup_cons] at distinct
      rcases List.mem_cons.mp member with rfl | later
      · simp
      · have differs : first.passageId ≠ item.passageId := fun same =>
          distinct.1 (same ▸ List.mem_map_of_mem later)
        rw [List.find?_cons_of_neg (by simpa using differs)]
        exact ih distinct.2 later

theorem labelled_congr {others : List RelationItem} {passage : Passage}
    (distinct : (relations.map (·.passageId)).Nodup) (again : (others.map (·.passageId)).Nodup)
    (item : RelationItem) (named : item.passageId = passage.passageId) (member : item ∈ relations)
    (present : item ∈ others) :
    labelled digests others passage = labelled digests relations passage := by
  unfold labelled
  rw [← named, find_item distinct member, find_item again present]

theorem labelled_discredited {passage : Passage} (retracted : discredited passage = true) :
    (labelled digests relations passage).1 = .insufficient := by
  rw [labelled, if_pos retracted]

theorem labelled_counts {passage : Passage} (counts : discredited passage = false)
    (distinct : (relations.map (·.passageId)).Nodup) {item : RelationItem}
    (member : item ∈ relations) (named : item.passageId = passage.passageId) :
    (labelled digests relations passage).1 = item.relation.relation := by
  rw [labelled, if_neg (by simp [counts]), ← named, find_item distinct member]

variable {version : Nat} {provisional : Bool}

theorem judged_accepted (retrieved : retrieval.retrieved = true)
    (accepted : checkReply retrieval.passages relations = true) :
    judged digests version provisional retrieval relations =
      (some (overall (countedPairs digests retrieval relations)),
        counted (countedPairs digests retrieval relations)) := by
  unfold judged
  by_cases empty : retrieval.passages = []
  · simp [assess, retrieved, empty, concluded, countedPairs]
  · simp [assess, retrieved, empty, accepted, concluded, countedPairs]

theorem judged_congr {other : ClaimRetrieval} {others : List RelationItem}
    (retrieved : retrieval.retrieved = true) (retrieved' : other.retrieved = true)
    (accepted : checkReply retrieval.passages relations = true)
    (accepted' : checkReply other.passages others = true)
    (same : ∀ pair, pair ∈ countedPairs digests other others ↔
      pair ∈ countedPairs digests retrieval relations) :
    judged digests version provisional other others =
      judged digests version provisional retrieval relations := by
  have label : overall (countedPairs digests other others) =
      overall (countedPairs digests retrieval relations) :=
    overall_congr fun relation _ => by simp only [same]
  rw [judged_accepted retrieved accepted, judged_accepted retrieved' accepted', label,
    counted_congr same]

theorem checkReply_perm {passages others : List Passage} {reply : List RelationItem}
    (moved : others.Perm passages) (replied : reply.Perm relations)
    (accepted : checkReply passages relations = true) : checkReply others reply = true := by
  obtain ⟨known, distinct, complete⟩ := checkReply_iff.mp accepted
  refine checkReply_iff.mpr ⟨?_, ?_, ?_⟩
  · intro item member
    exact (moved.map _).symm.subset (known item (replied.subset member))
  · exact (replied.map _).nodup_iff.mpr distinct
  · intro passage member
    exact (replied.map _).symm.subset (complete passage (moved.subset member))

theorem mem_countedPairs {pair : Relation × String} :
    pair ∈ countedPairs digests retrieval relations ↔ ∃ passage ∈ retrieval.passages,
      (labelled digests relations passage).1 = pair.1 ∧ passage.origin = pair.2 := by
  unfold countedPairs
  rw [List.mem_map]
  constructor
  · rintro ⟨passage, member, rfl⟩
    exact ⟨passage, member, rfl, rfl⟩
  · rintro ⟨passage, member, relation, origin⟩
    exact ⟨passage, member, Prod.ext relation origin⟩

theorem labelled_extended {extra : List RelationItem} {passage : Passage}
    (accepted : checkReply retrieval.passages relations = true)
    (member : passage ∈ retrieval.passages) (distinct : (extra.map (·.passageId)).Nodup)
    (more : relations ⊆ extra) :
    labelled digests extra passage = labelled digests relations passage := by
  obtain ⟨-, once, complete⟩ := checkReply_iff.mp accepted
  obtain ⟨item, listed, named⟩ := List.mem_map.mp (complete passage member)
  exact labelled_congr once distinct item named listed (more listed)

theorem checkReply_relabel {passages : List Passage} (passageId : String) (label : RouterLabel)
    (rationale : String) (accepted : checkReply passages relations = true) :
    checkReply passages (relabel passageId label rationale relations) = true := by
  have ids : (relabel passageId label rationale relations).map (·.passageId) =
      relations.map (·.passageId) := by
    rw [relabel, List.map_map]
    refine List.map_congr_left fun item _ => ?_
    simp only [Function.comp_apply]
    split <;> rfl
  obtain ⟨known, distinct, complete⟩ := checkReply_iff.mp accepted
  refine checkReply_iff.mpr ⟨?_, ?_, ?_⟩
  · intro item member
    have named := List.mem_map_of_mem (f := (·.passageId)) member
    rw [ids] at named
    obtain ⟨before, listed, same⟩ := List.mem_map.mp named
    rw [← same]
    exact known before listed
  · rw [ids]
    exact distinct
  · rw [ids]
    exact complete

theorem labelled_relabel {passage other : Passage} {label : RouterLabel} {rationale : String}
    (numbered : (retrieval.passages.map (·.passageId)).Nodup)
    (accepted : checkReply retrieval.passages relations = true)
    (member : passage ∈ retrieval.passages) (retracted : discredited passage = true)
    (among : other ∈ retrieval.passages) :
    (labelled digests (relabel passage.passageId label rationale relations) other).1 =
      (labelled digests relations other).1 := by
  by_cases same : other.passageId = passage.passageId
  · rw [List.inj_on_of_nodup_map numbered among member same, labelled_discredited retracted,
      labelled_discredited retracted]
  · have relabelled := checkReply_relabel passage.passageId label rationale accepted
    obtain ⟨-, distinct, complete⟩ := checkReply_iff.mp accepted
    obtain ⟨item, listed, named⟩ := List.mem_map.mp (complete other among)
    refine congrArg Prod.fst (labelled_congr distinct (checkReply_iff.mp relabelled).2.1 item named
      listed ?_)
    have kept : item.passageId ≠ passage.passageId := fun equal => same (named.symm.trans equal)
    exact List.mem_map.mpr ⟨item, listed, if_neg kept⟩

end Replies

section Judgements

structure Extended (retrieval : ClaimRetrieval) (relations : List RelationItem) (extra : Passage)
    (item : RelationItem) (other : ClaimRetrieval) (reply : List RelationItem) : Prop where
  retrieved : other.retrieved = true
  passages : other.passages.Perm (extra :: retrieval.passages)
  replied : reply.Perm (item :: relations)
  named : item.passageId = extra.passageId
  accepted : checkReply other.passages reply = true

/-- Discredited sources never count and order never matters. -/
structure Impartial (version : Nat) (provisional : Bool) (retrieval : ClaimRetrieval)
    (relations : List RelationItem) : Prop where
  anyOrder : ∀ passages reply, passages.Perm retrieval.passages → reply.Perm relations →
    judged digests version provisional { retrieval with passages := passages } reply =
      judged digests version provisional retrieval relations
  retracted : ∀ passage ∈ retrieval.passages, discredited passage = true → ∀ label rationale,
    judged digests version provisional retrieval
        (relabel passage.passageId label rationale relations) =
      judged digests version provisional retrieval relations
  duplicates : ∀ extra item other reply, Extended retrieval relations extra item other reply →
    (∃ passage ∈ retrieval.passages, passage.origin = extra.origin ∧
      (labelled digests relations passage).1 = (labelled digests reply extra).1) →
    judged digests version provisional other reply =
      judged digests version provisional retrieval relations
  abstains : (judged digests version provisional retrieval relations).1 =
      some .insufficientEvidence ↔
    ¬ ∃ passage ∈ retrieval.passages, discredited passage = false ∧
      (labelled digests relations passage).1 ∈
        [Relation.support, .challenge, .qualify, .mixed]
  challenged : ∀ extra item other reply, Extended retrieval relations extra item other reply →
    item.relation = .challenges →
    if discredited extra then
      (judged digests version provisional other reply).1 =
        (judged digests version provisional retrieval relations).1
    else
      (judged digests version provisional other reply).1 ∈ [some .mixed, some .challenged]

variable {digests} {retrieval : ClaimRetrieval} {relations : List RelationItem}

namespace Extended

variable {extra : Passage} {item : RelationItem} {other : ClaimRetrieval}
  {reply : List RelationItem}

/-- One pair more is counted, and no other one changes. -/
theorem pairs (extended : Extended retrieval relations extra item other reply)
    (accepted : checkReply retrieval.passages relations = true) (pair : Relation × String) :
    pair ∈ countedPairs digests other reply ↔
      pair = ((labelled digests reply extra).1, extra.origin) ∨
        pair ∈ countedPairs digests retrieval relations := by
  have distinct := (checkReply_iff.mp extended.accepted).2.1
  have kept : ∀ passage ∈ retrieval.passages,
      labelled digests reply passage = labelled digests relations passage := fun passage member =>
    labelled_extended accepted member distinct fun item listed =>
      extended.replied.symm.subset (List.mem_cons_of_mem _ listed)
  rw [mem_countedPairs, mem_countedPairs]
  constructor
  · rintro ⟨passage, member, relation, origin⟩
    rcases List.mem_cons.mp (extended.passages.subset member) with rfl | earlier
    · exact Or.inl (Prod.ext relation.symm origin.symm)
    · rw [kept passage earlier] at relation
      exact Or.inr ⟨passage, earlier, relation, origin⟩
  · rintro (rfl | ⟨passage, member, relation, origin⟩)
    · exact ⟨extra, extended.passages.symm.subset (by simp), rfl, rfl⟩
    · refine ⟨passage, extended.passages.symm.subset (by simp [member]), ?_, origin⟩
      rw [kept passage member]
      exact relation

theorem challenge (extended : Extended retrieval relations extra item other reply)
    (counts : discredited extra = false) (challenges : item.relation = .challenges) :
    (labelled digests reply extra).1 = .challenge := by
  rw [labelled_counts counts (checkReply_iff.mp extended.accepted).2.1
    (extended.replied.symm.subset (by simp)) extended.named, challenges]
  rfl

end Extended

theorem assess_impartial (digests : Digests) (version : Nat) (provisional : Bool)
    (retrieval : ClaimRetrieval) (relations : List RelationItem)
    (retrieved : retrieval.retrieved = true)
    (numbered : (retrieval.passages.map (·.passageId)).Nodup)
    (accepted : checkReply retrieval.passages relations = true) :
    Impartial digests version provisional retrieval relations := by
  refine ⟨?_, ?_, ?_, ?_, ?_⟩
  · intro passages reply moved replied
    have accepted' := checkReply_perm moved replied accepted
    refine judged_congr retrieved retrieved accepted accepted' fun pair => ?_
    rw [mem_countedPairs, mem_countedPairs]
    have same : ∀ passage ∈ retrieval.passages,
        labelled digests reply passage = labelled digests relations passage := fun passage member =>
      labelled_extended accepted member (checkReply_iff.mp accepted').2.1 replied.symm.subset
    constructor
    · rintro ⟨passage, member, relation, origin⟩
      rw [same passage (moved.subset member)] at relation
      exact ⟨passage, moved.subset member, relation, origin⟩
    · rintro ⟨passage, member, relation, origin⟩
      rw [← same passage member] at relation
      exact ⟨passage, moved.symm.subset member, relation, origin⟩
  · intro passage member retracted label rationale
    refine judged_congr retrieved retrieved accepted
      (checkReply_relabel _ _ _ accepted) fun pair => ?_
    rw [mem_countedPairs, mem_countedPairs]
    constructor
    · rintro ⟨other, among, relation, origin⟩
      rw [labelled_relabel numbered accepted member retracted among] at relation
      exact ⟨other, among, relation, origin⟩
    · rintro ⟨other, among, relation, origin⟩
      rw [← @labelled_relabel digests _ _ _ other label rationale numbered accepted member
        retracted among] at relation
      exact ⟨other, among, relation, origin⟩
  · rintro extra item other reply extended ⟨passage, member, origin, relation⟩
    refine judged_congr retrieved extended.retrieved accepted extended.accepted fun pair => ?_
    rw [extended.pairs accepted]
    constructor
    · rintro (rfl | earlier)
      · exact mem_countedPairs.mpr ⟨passage, member, relation, origin⟩
      · exact earlier
    · exact Or.inr
  · rw [judged_accepted retrieved accepted]
    simp only [Option.some.injEq, overall_abstains_iff]
    constructor
    · rintro none ⟨passage, member, -, settles⟩
      have relation := none _ (mem_countedPairs.mpr ⟨passage, member, rfl, rfl⟩ :
        ((labelled digests relations passage).1, passage.origin) ∈ _)
      dsimp only at relation
      rw [relation] at settles
      simp at settles
    · intro none pair member
      obtain ⟨passage, among, relation, -⟩ := mem_countedPairs.mp member
      cases discredits : discredited passage with
      | true => rw [← relation, labelled_discredited discredits]
      | false =>
          by_contra settles
          refine none ⟨passage, among, discredits, ?_⟩
          rw [relation]
          revert settles
          cases pair.1 <;> simp
  · intro extra item other reply extended challenges
    rw [judged_accepted retrieved accepted, judged_accepted extended.retrieved extended.accepted]
    split
    · next retracted =>
        have abstaining := @labelled_discredited digests reply _ retracted
        have unchanged : overall (countedPairs digests other reply) =
            overall (countedPairs digests retrieval relations) := by
          refine overall_congr fun relation settles => ?_
          constructor
          · rintro ⟨pair, member, rfl⟩
            rcases (extended.pairs accepted pair).mp member with rfl | earlier
            · exact absurd abstaining settles
            · exact ⟨pair, earlier, rfl⟩
          · rintro ⟨pair, member, rfl⟩
            exact ⟨pair, (extended.pairs accepted pair).mpr (Or.inr member), rfl⟩
        rw [unchanged]
    · next counts =>
        have pair := (@Extended.pairs digests _ _ _ _ _ _ extended accepted _).mpr (Or.inl rfl)
        rw [extended.challenge (by simpa using counts) challenges] at pair
        rcases overall_challenged ⟨_, pair, rfl⟩ with label | label
        · simp [label]
        · simp [label]

end Judgements

section Example

/-- `retrieve` numbers its passages. -/
theorem retrieve_numbered (claimId : String) (searched : Searched) :
    ((retrieve digests claimId searched).passages.map (·.passageId)).Nodup := by
  cases searched with
  | unavailable => simp [retrieve]
  | found candidates =>
      have ids : (passagesOf digests claimId candidates.papers).map (·.passageId) =
          (candidates.papers.zipIdx.map Prod.snd).map fun index => "p" ++ toString (index + 1) := by
        rw [passagesOf, List.map_map, List.map_map]
        rfl
      rw [retrieve, ids, List.zipIdx_map_snd]
      refine List.Nodup.map ?_ List.nodup_range'
      intro first second same
      have texts : toString (first + 1) = toString (second + 1) := by simpa using same
      have := Nat.repr_injective texts
      omega

def examplePaper (origin : String) (retractionStatus : RetractionStatus) : Candidate where
  origin := origin
  source := ⟨"src_" ++ origin, "Sleep and memory", "arXiv", none, none⟩
  sourceType := .preprint
  inspectionLevel := .abstractOnly
  retrievalRelevance := .high
  retractionStatus := retractionStatus
  excerpt := some "Sleep improves memory."
  retrievedAt := 0

def examplePapers : List Candidate := [examplePaper "a" .none, examplePaper "b" .retracted]

theorem examplePapers_deduped : (examplePapers.map (·.origin)).Nodup := by
  decide

def exampleSearched : Searched :=
  .found ⟨examplePapers, examplePapers_deduped⟩ 1 0 [] false

theorem assess_impartial_example :
    Impartial exampleDigests 2 false (retrieve exampleDigests "clm_1" exampleSearched)
      [⟨"p1", .supports, "It reports an effect."⟩, ⟨"p2", .challenges, "It reports none."⟩] :=
  assess_impartial exampleDigests 2 false _ _ rfl (retrieve_numbered _ _ _) (by decide)

end Example

end Ovrly.Evidence
