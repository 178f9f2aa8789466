import Ovrly.Reports.Archive

/-!
Correction links between the claims of one version.

A reconciliation draws the links; every later builder has to carry them along. The links are
closed when each names the occurrence of exactly one claim and the two directions are inverse.
-/

namespace Ovrly.Reports

open Runs
open Ovrly.Extraction (groundedClaims groundedClaims_fresh Fresh ObservationWindow Occurrence)

def Claim.LinksTo (claim : Claim) (occurrence : String) : Prop :=
  claim.correctsOccurrenceId = some occurrence ∨
    claim.supersededByOccurrenceId = some occurrence

instance (claim : Claim) (occurrence : String) : Decidable (claim.LinksTo occurrence) :=
  inferInstanceAs (Decidable (_ ∨ _))

def occurring (claims : List Claim) (occurrence : String) : Nat :=
  claims.countP (·.occurrenceId == occurrence)

structure Linked (claims : List Claim) : Prop where
  closed : ∀ claim ∈ claims, ∀ occurrence, claim.LinksTo occurrence →
    occurring claims occurrence = 1
  inverse : ∀ first ∈ claims, ∀ second ∈ claims,
    first.correctsOccurrenceId = some second.occurrenceId ↔
      second.supersededByOccurrenceId = some first.occurrenceId

/-- Every claim has one identifier for itself and for its occurrence. -/
def Named (claims : List Claim) : Prop :=
  ∀ claim ∈ claims, claim.occurrenceId = claim.id

theorem Named.reconciled {output : Reconciliation} {previous : ReportVersion}
    {textOf : String → Option String} {now : Timestamp} {reconciled : Reconciled}
    (named : Named previous.claims)
    (accepted : reconcileClaims output previous textOf now = .ok reconciled) :
    Named reconciled.claims := by
  intro next member
  obtain ⟨claim, belongs, same⟩ := exists_of_forall₂ (reconcileClaims_same accepted) member
  rw [same.occurrenceId, same.id, named claim belongs]

theorem Named.corrected {base report : ReportVersion} {body : CorrectionReanalysis}
    {identity : NextVersion} (named : Named base.claims)
    (corrected : correctedReport base body identity = .ok report) : Named report.claims := by
  obtain ⟨claim, corrects⟩ := correctedReport_ok corrected
  intro next member
  rw [corrects.claims] at member
  obtain ⟨item, belongs, rfl⟩ := List.mem_map.mp member
  split
  · exact named claim corrects.member
  · exact named item belongs

theorem Builder.build_named {identify : Uuid → List (String × Nat × Nat) → String}
    {builder : Builder} {previous : Option ReportVersion} {identity : NextVersion}
    {built : ReportVersion}
    (accepted : builder.build identify previous identity = .ok built)
    (named : ∀ report, previous = some report → Named report.claims)
    (imported : ∀ full sourceId, builder = .expansion full sourceId → Named full.claims) :
    Named built.claims := by
  cases Builder.build_built identify accepted with
  | @extracted incremental _ _ provenance claims grounded =>
      have fresh := (groundedClaims_fresh grounded).1
      cases known : if incremental then previous else none with
      | none =>
          intro claim member
          exact (fresh claim ((extractedVersion_claims_first _ _ _ _).mem_iff.mp member)).named
      | some report =>
          have latest : previous = some report := by
            split at known
            · exact known
            · simp at known
          intro claim member
          rcases List.mem_append.mp
            ((extractedVersion_claims _ _ _ _ _).mem_iff.mp member) with old | new
          · exact named report latest claim old
          · exact (fresh claim (List.mem_of_mem_filter new)).named
  | reconciled latest _ revised => exact (named _ latest).reconciled revised
  | corrected latest corrected => exact (named _ latest).corrected corrected
  | merged latest =>
      have kept := named _ latest
      exact kept
  | expanded latest =>
      rw [expanded_claims]
      intro claim member
      rcases List.mem_append.mp member with old | new
      · exact named _ latest claim old
      · obtain ⟨source, belongs, rfl⟩ := List.mem_map.mp new
        rw [Claim.prefixed_id, Claim.prefixed_occurrenceId, imported _ _ rfl source belongs]

theorem occurring_pos {claims : List Claim} {claim : Claim} (member : claim ∈ claims) :
    0 < occurring claims claim.occurrenceId :=
  List.countP_pos_iff.mpr ⟨claim, member, by simp⟩

theorem exists_of_occurring {claims : List Claim} {occurrence : String}
    (present : 0 < occurring claims occurrence) :
    ∃ claim ∈ claims, claim.occurrenceId = occurrence := by
  obtain ⟨claim, member, same⟩ := List.countP_pos_iff.mp present
  exact ⟨claim, member, by simpa using same⟩

theorem eq_of_occurring {claims : List Claim} {occurrence : String}
    (once : occurring claims occurrence ≤ 1) {first second : Claim} (firstMember : first ∈ claims)
    (secondMember : second ∈ claims) (firstHas : first.occurrenceId = occurrence)
    (secondHas : second.occurrenceId = occurrence) : first = second := by
  rw [occurring, List.countP_eq_length_filter] at once
  have firstIn : first ∈ claims.filter (·.occurrenceId == occurrence) :=
    List.mem_filter.mpr ⟨firstMember, by simp [firstHas]⟩
  have secondIn : second ∈ claims.filter (·.occurrenceId == occurrence) :=
    List.mem_filter.mpr ⟨secondMember, by simp [secondHas]⟩
  cases found : claims.filter (·.occurrenceId == occurrence) with
  | nil => simp [found] at firstIn
  | cons only rest =>
      rw [found] at once firstIn secondIn
      have empty : rest = [] := List.eq_nil_of_length_eq_zero (by
        rw [List.length_cons] at once
        omega)
      subst empty
      rw [List.mem_singleton.mp firstIn, List.mem_singleton.mp secondIn]

theorem occurring_append (first second : List Claim) (occurrence : String) :
    occurring (first ++ second) occurrence =
      occurring first occurrence + occurring second occurrence :=
  List.countP_append

theorem occurring_of_nodup {claims : List Claim} (named : Named claims)
    (distinct : (claims.map (·.id)).Nodup) (occurrence : String) :
    occurring claims occurrence ≤ 1 := by
  have counted := List.nodup_iff_count_le_one.mp distinct occurrence
  rw [List.count, List.countP_map] at counted
  refine Nat.le_trans (Nat.le_of_eq (List.countP_congr ?_)) counted
  intro claim member
  simp [named claim member]

/-! ### What each builder does to the links -/

theorem Linked.perm {claims next : List Claim} (linked : Linked claims) (same : next.Perm claims) :
    Linked next where
  closed claim member occurrence links := by
    rw [occurring, same.countP_eq]
    exact linked.closed claim (same.mem_iff.mp member) occurrence links
  inverse first firstMember second secondMember :=
    linked.inverse first (same.mem_iff.mp firstMember) second (same.mem_iff.mp secondMember)

/-- A rewriting of the claims that leaves their occurrences and links alone. -/
theorem Linked.map {claims : List Claim} (linked : Linked claims) {change : Claim → Claim}
    (occurrenceId : ∀ claim ∈ claims, (change claim).occurrenceId = claim.occurrenceId)
    (corrects : ∀ claim ∈ claims,
      (change claim).correctsOccurrenceId = claim.correctsOccurrenceId)
    (superseded : ∀ claim ∈ claims,
      (change claim).supersededByOccurrenceId = claim.supersededByOccurrenceId) :
    Linked (claims.map change) where
  closed := by
    intro next member occurrence links
    obtain ⟨claim, belongs, rfl⟩ := List.mem_map.mp member
    rw [Claim.LinksTo, corrects claim belongs, superseded claim belongs] at links
    rw [← linked.closed claim belongs occurrence links, occurring, occurring, List.countP_map]
    apply List.countP_congr
    intro other otherBelongs
    simp [occurrenceId other otherBelongs]
  inverse := by
    intro first firstMember second secondMember
    obtain ⟨claim, belongs, rfl⟩ := List.mem_map.mp firstMember
    obtain ⟨other, otherBelongs, rfl⟩ := List.mem_map.mp secondMember
    rw [corrects claim belongs, occurrenceId other otherBelongs, superseded other otherBelongs,
      occurrenceId claim belongs]
    exact linked.inverse claim belongs other otherBelongs

theorem linked_fresh {claims : List Claim} (fresh : ∀ claim ∈ claims, Fresh claim) :
    Linked claims where
  closed claim member occurrence links := by
    simp [Claim.LinksTo, (fresh claim member).corrects, (fresh claim member).superseded] at links
  inverse first firstMember second secondMember := by
    simp [(fresh first firstMember).corrects, (fresh second secondMember).superseded]

theorem Linked.append {claims fresh : List Claim} (linked : Linked claims)
    (unlinked : ∀ claim ∈ fresh, Fresh claim)
    (unknown : ∀ claim ∈ fresh, claim.occurrenceId ∉ claims.map (·.occurrenceId)) :
    Linked (claims ++ fresh) := by
  have absent : ∀ claim ∈ claims, occurring fresh claim.occurrenceId = 0 := by
    intro claim member
    rw [occurring, List.countP_eq_zero]
    intro other otherMember same
    refine unknown other otherMember (List.mem_map.mpr ⟨claim, member, ?_⟩)
    simpa using Eq.symm (beq_iff_eq.mp same)
  have target : ∀ claim ∈ claims, ∀ occurrence, claim.LinksTo occurrence →
      occurring (claims ++ fresh) occurrence = 1 ∧
        ∃ other ∈ claims, other.occurrenceId = occurrence := by
    intro claim member occurrence links
    have once := linked.closed claim member occurrence links
    obtain ⟨other, otherMember, rfl⟩ := exists_of_occurring (by rw [once]; exact Nat.one_pos)
    refine ⟨?_, other, otherMember, rfl⟩
    rw [occurring_append, once, absent other otherMember]
  have apart : ∀ claim ∈ claims, ∀ other ∈ fresh, ¬claim.LinksTo other.occurrenceId := by
    intro claim member other otherMember links
    obtain ⟨_, known, knownMember, same⟩ := target claim member _ links
    exact unknown other otherMember (List.mem_map.mpr ⟨known, knownMember, same⟩)
  constructor
  · intro claim member occurrence links
    rcases List.mem_append.mp member with old | new
    · exact (target claim old occurrence links).1
    · simp [Claim.LinksTo, (unlinked claim new).corrects, (unlinked claim new).superseded] at links
  · intro first firstMember second secondMember
    rcases List.mem_append.mp firstMember with firstOld | firstNew
    · rcases List.mem_append.mp secondMember with secondOld | secondNew
      · exact linked.inverse first firstOld second secondOld
      · rw [(unlinked second secondNew).superseded]
        simpa using fun links => apart first firstOld second secondNew (Or.inl links)
    · rw [(unlinked first firstNew).corrects]
      rcases List.mem_append.mp secondMember with secondOld | secondNew
      · simpa using fun links => apart second secondOld first firstNew (Or.inr links)
      · simp [(unlinked second secondNew).superseded]

theorem Linked.shared {claims : List Claim} (linked : Linked claims) {first second : Claim}
    (firstMember : first ∈ claims) (secondMember : second ∈ claims)
    (same : first.occurrenceId = second.occurrenceId) (different : first ≠ second) :
    first.correctsOccurrenceId = none ∧ first.supersededByOccurrenceId = none := by
  have repeated : ∀ other ∈ claims, ¬other.LinksTo first.occurrenceId := by
    intro other member links
    have once := linked.closed other member _ links
    exact different (eq_of_occurring (Nat.le_of_eq once) firstMember secondMember rfl same.symm)
  constructor
  · cases corrects : first.correctsOccurrenceId with
    | none => rfl
    | some occurrence =>
        have once := linked.closed first firstMember occurrence (Or.inl corrects)
        obtain ⟨other, member, rfl⟩ := exists_of_occurring (by rw [once]; exact Nat.one_pos)
        have back := (linked.inverse first firstMember other member).mp corrects
        exact absurd (Or.inr back) (repeated other member)
  · cases superseded : first.supersededByOccurrenceId with
    | none => rfl
    | some occurrence =>
        have once := linked.closed first firstMember occurrence (Or.inr superseded)
        obtain ⟨other, member, rfl⟩ := exists_of_occurring (by rw [once]; exact Nat.one_pos)
        have back := (linked.inverse other member first firstMember).mpr superseded
        exact absurd (Or.inl back) (repeated other member)

theorem correctedReport_linked {base report : ReportVersion} {body : CorrectionReanalysis}
    {identity : NextVersion} (corrected : correctedReport base body identity = .ok report)
    (named : Named base.claims) (linked : Linked base.claims) : Linked report.claims := by
  obtain ⟨claim, corrects⟩ := correctedReport_ok corrected
  have replaced : ∀ item ∈ base.claims, item.id = claim.id →
      claim.occurrenceId = item.occurrenceId ∧
        claim.correctsOccurrenceId = item.correctsOccurrenceId ∧
        claim.supersededByOccurrenceId = item.supersededByOccurrenceId := by
    intro item belongs same
    by_cases equal : item = claim
    · rw [equal]
      exact ⟨rfl, rfl, rfl⟩
    · have sameOccurrence : item.occurrenceId = claim.occurrenceId := by
        rw [named item belongs, named claim corrects.member, same]
      obtain ⟨corrects', superseded⟩ :=
        linked.shared belongs corrects.member sameOccurrence equal
      obtain ⟨corrects'', superseded'⟩ :=
        linked.shared corrects.member belongs sameOccurrence.symm (Ne.symm equal)
      exact ⟨sameOccurrence.symm, corrects''.trans corrects'.symm,
        superseded'.trans superseded.symm⟩
  rw [corrects.claims]
  apply linked.map
  all_goals
    intro item belongs
    split
    · rename_i same
      obtain ⟨occurrenceId, correctsId, superseded⟩ := replaced item belongs same
      assumption
    · rfl

theorem reconcileClaims_linked {output : Reconciliation} {previous : ReportVersion}
    {textOf : String → Option String} {now : Timestamp} {reconciled : Reconciled}
    (accepted : reconcileClaims output previous textOf now = .ok reconciled)
    (named : Named previous.claims) (distinct : (previous.claims.map (·.id)).Nodup) :
    Linked reconciled.claims := by
  have revised := reconcileClaims_revised accepted named distinct
  have updatesDistinct := reconcileClaims_distinct accepted distinct
  have ids := reconcileClaims_ids accepted
  have namedNext := named.reconciled accepted
  have once : ∀ id ∈ previous.claims.map (·.id), occurring reconciled.claims id = 1 := by
    intro id known
    have few := occurring_of_nodup namedNext (ids ▸ distinct) id
    rw [← ids] at known
    obtain ⟨next, member, rfl⟩ := List.mem_map.mp known
    have present := occurring_pos member
    rw [namedNext next member] at present
    omega
  obtain ⟨_, known, _, _⟩ := reconcileClaims_ok accepted
  constructor
  · intro next member occurrence links
    obtain ⟨claim, belongs, item, revision⟩ := revised next member
    apply once
    rcases links with corrects | superseded
    · exact reconcileClaims_target accepted revision.member ((revision.corrects occurrence).mp corrects)
    · obtain ⟨other, otherMember, _, rfl⟩ := (revision.superseded occurrence).mp superseded
      exact known other otherMember
  · intro first firstMember second secondMember
    obtain ⟨claim, _, item, revision⟩ := revised first firstMember
    obtain ⟨other, _, _, byOther⟩ := revised second secondMember
    rw [revision.corrects, namedNext second secondMember, byOther.same.id, byOther.superseded,
      namedNext first firstMember, revision.same.id]
    constructor
    · intro corrects
      exact ⟨item, revision.member, corrects, revision.claimId⟩
    · rintro ⟨update, updateMember, corrects, same⟩
      have sameItem : update = item := List.inj_on_of_nodup_map updatesDistinct updateMember
        revision.member (same.trans revision.claimId.symm)
      exact sameItem ▸ corrects

/-- The re-identification leaves the links of the full version as they are, and gives no other
claim an identifier that a link names. -/
structure LinksSurvive (clip full : ReportVersion) (pre : String) : Prop where
  kept : ∀ claim ∈ full.claims, ∀ occurrence, claim.LinksTo occurrence →
    prefixed occurrence pre = occurrence
  ofClip : ∀ claim ∈ clip.claims, ∀ occurrence, claim.LinksTo occurrence →
    ∀ other ∈ full.claims, prefixed other.occurrenceId pre ≠ occurrence
  ofFull : ∀ claim ∈ full.claims, ∀ occurrence, claim.LinksTo occurrence →
    (∀ other ∈ clip.claims, other.occurrenceId ≠ occurrence) ∧
      ∀ other ∈ full.claims, prefixed other.occurrenceId pre = occurrence →
        other.occurrenceId = occurrence

def unlinked (report : ReportVersion) : Bool :=
  report.claims.all fun claim =>
    claim.correctsOccurrenceId.isNone && claim.supersededByOccurrenceId.isNone

theorem unlinked_links {report : ReportVersion} (bare : unlinked report = true) {claim : Claim}
    (member : claim ∈ report.claims) (occurrence : String) : ¬claim.LinksTo occurrence := by
  simp only [unlinked, List.all_eq_true, Bool.and_eq_true, Option.isNone_iff_eq_none] at bare
  obtain ⟨corrects, superseded⟩ := bare claim member
  simp [Claim.LinksTo, corrects, superseded]

/-- A version without links may be brought in where none of its identifiers is named already. -/
theorem LinksSurvive.of_unlinked {clip full : ReportVersion} {pre : String}
    (fullUnlinked : unlinked full = true)
    (apart : ∀ claim ∈ clip.claims, ∀ other ∈ full.claims,
      ¬claim.LinksTo (prefixed other.occurrenceId pre)) : LinksSurvive clip full pre where
  kept _ member occurrence links := absurd links (unlinked_links fullUnlinked member occurrence)
  ofClip claim member _ links other otherMember same :=
    apart claim member other otherMember (same ▸ links)
  ofFull _ member occurrence links :=
    absurd links (unlinked_links fullUnlinked member occurrence)

theorem occurring_prefixed (claims : List Claim) (pre occurrence : String) :
    occurring (claims.map (Claim.prefixed pre)) occurrence =
      claims.countP (prefixed ·.occurrenceId pre == occurrence) := by
  rw [occurring, List.countP_map]
  rfl

theorem expanded_linked {clip full : ReportVersion} {sourceId : Uuid} {identity : NextVersion}
    (clipLinked : Linked clip.claims) (fullLinked : Linked full.claims)
    (survive : LinksSurvive clip full (versionPrefix full.version)) :
    Linked (expanded clip full sourceId identity).claims := by
  rw [expanded_claims]
  generalize versionPrefix full.version = pre at survive
  obtain ⟨kept, ofClip, ofFull⟩ := survive
  constructor
  · intro claim member occurrence links
    rw [occurring_append, occurring_prefixed]
    rcases List.mem_append.mp member with old | imported
    · have once := clipLinked.closed claim old occurrence links
      have absent : full.claims.countP (prefixed ·.occurrenceId pre == occurrence) = 0 := by
        rw [List.countP_eq_zero]
        intro other otherMember
        simpa using ofClip claim old occurrence links other otherMember
      omega
    · obtain ⟨source, belongs, rfl⟩ := List.mem_map.mp imported
      have once := fullLinked.closed source belongs occurrence links
      obtain ⟨outside, only⟩ := ofFull source belongs occurrence links
      have absent : occurring clip.claims occurrence = 0 := by
        rw [occurring, List.countP_eq_zero]
        intro other otherMember
        simpa using outside other otherMember
      have same : full.claims.countP (prefixed ·.occurrenceId pre == occurrence) =
          occurring full.claims occurrence := by
        apply List.countP_congr
        intro other otherMember
        rw [beq_iff_eq, beq_iff_eq]
        constructor
        · exact only other otherMember
        · intro equal
          rw [equal]
          exact kept source belongs occurrence links
      omega
  · intro first firstMember second secondMember
    rcases List.mem_append.mp firstMember with firstOld | firstNew
    · rcases List.mem_append.mp secondMember with secondOld | secondNew
      · exact clipLinked.inverse first firstOld second secondOld
      · obtain ⟨source, belongs, rfl⟩ := List.mem_map.mp secondNew
        rw [Claim.prefixed_occurrenceId, Claim.prefixed_supersededByOccurrenceId]
        constructor
        · intro corrects
          exact absurd rfl (ofClip first firstOld _ (Or.inl corrects) source belongs)
        · intro superseded
          exact absurd rfl ((ofFull source belongs _ (Or.inr superseded)).1 first firstOld)
    · obtain ⟨source, belongs, rfl⟩ := List.mem_map.mp firstNew
      rcases List.mem_append.mp secondMember with secondOld | secondNew
      · rw [Claim.prefixed_occurrenceId, Claim.prefixed_correctsOccurrenceId]
        constructor
        · intro corrects
          exact absurd rfl ((ofFull source belongs _ (Or.inl corrects)).1 second secondOld)
        · intro superseded
          exact absurd rfl (ofClip second secondOld _ (Or.inr superseded) source belongs)
      · obtain ⟨other, otherBelongs, rfl⟩ := List.mem_map.mp secondNew
        rw [Claim.prefixed_occurrenceId, Claim.prefixed_correctsOccurrenceId,
          Claim.prefixed_occurrenceId, Claim.prefixed_supersededByOccurrenceId]
        constructor
        · intro corrects
          have named := (ofFull source belongs _ (Or.inl corrects)).2 other otherBelongs rfl
          rw [← named] at corrects
          have back := (fullLinked.inverse source belongs other otherBelongs).mp corrects
          rw [kept other otherBelongs _ (Or.inr back)]
          exact back
        · intro superseded
          have named := (ofFull other otherBelongs _ (Or.inr superseded)).2 source belongs rfl
          rw [← named] at superseded
          have back := (fullLinked.inverse source belongs other otherBelongs).mpr superseded
          rw [kept source belongs _ (Or.inl back)]
          exact back

/-! ### Runs of publications -/

/-- Expansions keep the links of what they import, and reconciliations run on versions whose
claims have distinct identifiers. -/
def Builder.KeepsLinks (previous : ReportVersion) : Builder → Prop
  | .expansion full _ => LinksSurvive previous full (versionPrefix full.version)
  | .reconciliation .. => (previous.claims.map (·.id)).Nodup
  | _ => True

def KeepsLinks (archive : Archive) (request : Publication) : Prop :=
  ∀ previous, latestVersion (archive request.investigationId) = some previous →
    request.builder.KeepsLinks previous

variable {identify : Uuid → List (String × Nat × Nat) → String}

theorem extractedVersion_linked {incremental : Bool} {previous : Option ReportVersion}
    {claims : List Claim} {provenance : List ProcessingAttempt} {identity : NextVersion}
    (fresh : ∀ claim ∈ claims, Fresh claim)
    (linked : ∀ report, previous = some report → Linked report.claims) :
    Linked (extractedVersion incremental previous claims provenance identity).claims := by
  cases previous with
  | none =>
      exact (linked_fresh fresh).perm
        (extractedVersion_claims_first incremental claims provenance identity)
  | some report =>
      have same := extractedVersion_claims incremental claims provenance identity report
      have unlinked : ∀ claim ∈ unknownClaims report claims, Fresh claim :=
        fun claim member => fresh claim (List.mem_of_mem_filter member)
      refine ((linked report rfl).append unlinked ?_).perm same
      intro claim member
      have unknown := (List.mem_filter.mp member).2
      simpa using unknown

theorem Builder.build_linked {builder : Builder} {previous : Option ReportVersion}
    {identity : NextVersion} {built : ReportVersion}
    (accepted : builder.build identify previous identity = .ok built)
    (holds : ∀ report, previous = some report → Named report.claims ∧ Linked report.claims)
    (imported : ∀ full sourceId, builder = .expansion full sourceId →
      Named full.claims ∧ Linked full.claims)
    (keeps : ∀ report, previous = some report → builder.KeepsLinks report) :
    Linked built.claims := by
  cases Builder.build_built identify accepted with
  | extracted grounded =>
      refine extractedVersion_linked (groundedClaims_fresh grounded).1 ?_
      intro report known
      split at known
      · exact (holds report known).2
      · simp at known
  | reconciled latest _ revised =>
      exact reconcileClaims_linked revised (holds _ latest).1 (keeps _ latest)
  | corrected latest corrected =>
      exact correctedReport_linked corrected (holds _ latest).1 (holds _ latest).2
  | merged latest => exact (holds _ latest).2
  | expanded latest =>
      exact expanded_linked (holds _ latest).2 (imported _ _ rfl).2 (keeps _ latest)

/-- In every run whose expansions keep the links they import and whose reconciliations meet
distinct identifiers, every stored version has closed and inverse links. -/
theorem published_linked {requests : List Publication}
    (met : Meets (publish identify) KeepsLinks Archive.empty requests) (investigationId : Uuid) :
    ∀ report ∈ published identify requests investigationId, Linked report.claims := by
  intro report member
  refine (published_invariant (fun report => Named report.claims ∧ Linked report.claims)
    (fun _ _ holds => holds) ?_ met investigationId report member).2
  intro archive request identity built holds keeps reads accepted
  have previously : ∀ previous, latestVersion (archive request.investigationId) = some previous →
      Named previous.claims ∧ Linked previous.claims :=
    fun previous latest => holds _ previous (latestVersion_mem latest)
  have imported : ∀ full sourceId, request.builder = .expansion full sourceId →
      Named full.claims ∧ Linked full.claims := by
    intro full sourceId isExpansion
    rw [isExpansion] at reads
    exact holds sourceId full (latestVersion_mem reads)
  constructor
  · exact Builder.build_named accepted (fun previous latest => (previously previous latest).1)
      fun full sourceId isExpansion => (imported full sourceId isExpansion).1
  · exact Builder.build_linked accepted previously imported keeps

/-! ### A clip and its full video -/

def clipId : Uuid := "11111111-1111-4111-8111-111111111111"
def videoId : Uuid := "22222222-2222-4222-8222-222222222222"

theorem firstSecond_ordered : 0 < 1000 := by decide

theorem damFailed_spoken : Ovrly.Extraction.blank "The dam failed.".toList = false := by decide

theorem damFailed_short : "The dam failed.".length ≤ 8000 := by decide

theorem firstRef_ordered : 0 < 15 := by decide

theorem secondRef_ordered : 0 < 12 := by decide

def exampleWindow : ObservationWindow where
  windowId := "w1"
  hostedProcessingApproved := true
  observations := [
    ⟨"o1", .target, "The dam failed.", .speech, .media, 0, 1000, none, firstSecond_ordered,
      damFailed_spoken, damFailed_short⟩,
    ⟨"o2", .target, "No, it held.", .speech, .media, 1000, 2000, none, by decide, by decide,
      by decide⟩]
  unique := by decide
  oneTimebase := by decide
  targeted := by decide
  bounded := by decide

theorem exampleRefs_nonempty (ref : SourceRef) : [ref] ≠ [] := List.cons_ne_nil ref []

theorem asserted_consistent : Consistent .empirical .asserted .endorsed .factualClaim [] :=
  ⟨by decide, by decide, by decide, by decide⟩

def exampleOccurrence (ref : SourceRef) (proposition : String) : Occurrence where
  taxonomy := .empirical
  sourceRefs := [ref]
  contextRefs := []
  assertionMode := .asserted
  speakerCommitment := .endorsed
  attributedTo := none
  eligibilityReason := .factualClaim
  uncertaintyFlags := []
  cited := exampleRefs_nonempty ref
  consistent := asserted_consistent
  proposition := proposition

def exampleOccurrences : List Occurrence :=
  [exampleOccurrence ⟨"o1", 0, 15, firstRef_ordered⟩ "The dam failed.",
    exampleOccurrence ⟨"o2", 0, 12, secondRef_ordered⟩ "The dam held."]

/-- `uuid5` on the references of the example. -/
def exampleIdentify (investigationId : Uuid) (refs : List (String × Nat × Nat)) : String :=
  match investigationId == clipId, refs.map (·.1) with
  | true, ["o1"] => "94855092-586d-5627-b879-5da32a4ae451"
  | true, _ => "d5a5ae7b-a1de-5cd6-ab7d-ec79c2d4394f"
  | false, ["o1"] => "e3d61053-93a3-5026-96bb-9728932be518"
  | false, _ => "e0d3d170-b643-50da-9cba-9139a388c60a"

def extractExample (investigationId id : Uuid) : Publication :=
  ⟨investigationId, id, 0, .extraction true exampleOccurrences exampleWindow []⟩

def exampleUpdate (claimId : String) (ref : SourceRef) (proposition : String)
    (corrects : Option String) : ReconciledClaim :=
  ⟨claimId, proposition, (exampleOccurrence ref proposition).toInterpretation, corrects⟩

def exampleReconciliation : Reconciliation where
  updates := [
    exampleUpdate "e3d61053-93a3-5026-96bb-9728932be518" ⟨"o1", 0, 15, firstRef_ordered⟩
      "The dam failed." none,
    exampleUpdate "e0d3d170-b643-50da-9cba-9139a388c60a" ⟨"o2", 0, 12, secondRef_ordered⟩
      "The dam held." (some "e3d61053-93a3-5026-96bb-9728932be518")]
  explanation := "The speaker corrects himself."
  bounded := by decide
  explained := by decide

def reconcileExample : Publication :=
  ⟨videoId, "v2", 0, .reconciliation exampleReconciliation
    (fun id => (exampleWindow.observation? id).map (·.text)) 0 [] false⟩

def expandExample (before : List Publication) : List Publication :=
  before ++ ((latestVersion (published exampleIdentify before videoId)).toList.map fun full =>
    ⟨clipId, "c2", 0, .expansion full videoId⟩)

/-- Importing a reconciled video leaves its links naming occurrences that are not there. -/
theorem expansion_breaks_links :
    ¬∀ requests investigationId, ∀ report ∈ published exampleIdentify requests investigationId,
      Linked report.claims := by
  intro always
  have dangling : (published exampleIdentify (expandExample [extractExample clipId "c1",
      extractExample videoId "v1", reconcileExample]) clipId).any (fun report =>
        report.claims.any fun claim => claim.correctsOccurrenceId.any fun occurrence =>
          occurring report.claims occurrence == 0) = true := by decide +kernel
  simp only [List.any_eq_true, Option.any_eq_true, beq_iff_eq] at dangling
  obtain ⟨report, stored, claim, member, occurrence, corrects, absent⟩ := dangling
  have once := (always _ _ report stored).closed claim member occurrence (Or.inl corrects)
  omega

def importExample (before : List Publication) : List Publication :=
  before ++ ((latestVersion (published exampleIdentify before clipId)).toList.map fun full =>
    ⟨videoId, "v3", 0, .expansion full clipId⟩)

def linkedExample : List Publication :=
  [extractExample clipId "c1", extractExample videoId "v1", reconcileExample]

theorem importExample_keepsLinks :
    Meets (publish exampleIdentify) KeepsLinks Archive.empty (importExample linkedExample) := by
  have distinct : (latestVersion (published exampleIdentify [extractExample clipId "c1",
      extractExample videoId "v1"] videoId)).all (fun previous =>
        decide (previous.claims.map (·.id)).Nodup) = true := by decide +kernel
  have bare : (latestVersion (published exampleIdentify linkedExample clipId)).all (fun full =>
      unlinked full && (latestVersion (published exampleIdentify linkedExample videoId)).all
        fun video => video.claims.all fun claim => full.claims.all fun other =>
          decide (¬claim.LinksTo (prefixed other.occurrenceId (versionPrefix full.version)))) =
        true := by decide +kernel
  rw [importExample, meets_append]
  refine ⟨⟨fun _ _ => trivial, fun _ _ => trivial, ?_, trivial⟩, ?_⟩
  · intro previous latest
    rw [show latestVersion (published exampleIdentify [extractExample clipId "c1",
      extractExample videoId "v1"] videoId) = some previous from latest, Option.all_some,
      decide_eq_true_eq] at distinct
    exact distinct
  · cases latest : latestVersion (published exampleIdentify linkedExample clipId) with
    | none => trivial
    | some full =>
        rw [latest, Option.all_some, Bool.and_eq_true] at bare
        refine ⟨fun video videoLatest => .of_unlinked bare.1 ?_, trivial⟩
        have apart := bare.2
        rw [show latestVersion (published exampleIdentify _ videoId) = some video from videoLatest,
          Option.all_some] at apart
        simpa only [List.all_eq_true, decide_eq_true_eq] using apart

theorem published_linked_example :
    ∃ report ∈ published exampleIdentify (importExample linkedExample) videoId,
      report.claims.length = 4 ∧
        (report.claims.any fun claim => claim.supersededByOccurrenceId.isSome) = true ∧
          Linked report.claims := by
  have stored : (published exampleIdentify (importExample linkedExample) videoId).any (fun report =>
      decide (report.claims.length = 4) &&
        report.claims.any fun claim => claim.supersededByOccurrenceId.isSome) = true := by
    decide +kernel
  simp only [List.any_eq_true (p := fun report : ReportVersion => _), Bool.and_eq_true,
    decide_eq_true_eq] at stored
  obtain ⟨report, member, four, links⟩ := stored
  exact ⟨report, member, four, links,
    published_linked importExample_keepsLinks videoId report member⟩

theorem published_cited_example :
    ∃ report ∈ published exampleIdentify [extractExample videoId "v1", reconcileExample] videoId,
      validateCitations report = .ok () := by
  have stored : published exampleIdentify [extractExample videoId "v1", reconcileExample]
      videoId ≠ [] := by
    decide +kernel
  obtain ⟨report, member⟩ := List.exists_mem_of_ne_nil _ stored
  exact ⟨report, member, published_cited _ videoId report member⟩

end Ovrly.Reports
