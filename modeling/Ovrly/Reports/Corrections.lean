import Ovrly.Extraction.Provenance
import Ovrly.Reports.Reconcile

/-!
The correction links that `reconcile_claims` draws between the claims of a version.
-/

namespace Ovrly.Reports

open Ovrly.Extraction (ExtractionInvalid Observation envelope foldl_min_spec foldl_max_spec
  spokenObservation spokenInterpretation)

/-- `observations = {item["id"]: item for item in source["observations"]}` -/
def observed (observations : List Observation) (id : String) : Option Observation :=
  lastWith Observation.id observations id

/-- A claim that was grounded in the stored observations: it cites some of them and spans their
interval. -/
structure Sourced (observations : List Observation) (claim : Claim) : Prop where
  cites : ∃ interpretation first rest, claim.interpretation = some interpretation ∧
    (interpretation.sourceRefs.map fun ref => observed observations ref.observationId) =
      (first :: rest).map some ∧
    claim.interval = envelope first rest

/-- A version whose claims are apart and grounded in the stored observations. -/
structure Stored (observations : List Observation) (previous : ReportVersion) : Prop where
  ids : (previous.claims.map (·.id)).Nodup
  occurrences : (previous.claims.map (·.occurrenceId)).Nodup
  sourced : ∀ claim ∈ previous.claims, Sourced observations claim

def ClaimCorrects (claims : List Claim) (later earlier : Claim) : Prop :=
  later ∈ claims ∧ earlier ∈ claims ∧ later.correctsOccurrenceId = some earlier.occurrenceId

def Revised (claim next : Claim) : Prop :=
  next.proposition ≠ claim.proposition ∨ next.interpretation ≠ claim.interpretation

instance (claim next : Claim) : Decidable (Revised claim next) :=
  inferInstanceAs (Decidable (_ ∨ _))

structure Corrected (previous : List Claim) (reconciled : Reconciled) : Prop where
  same : List.Forall₂ (fun claim next => SameOccurrence claim next ∧
    next.interpretation.map (·.sourceRefs) = claim.interpretation.map (·.sourceRefs))
    previous reconciled.claims
  corrects : ∀ later ∈ reconciled.claims, ∀ occurrence ∈ later.correctsOccurrenceId,
    ∃ earlier ∈ reconciled.claims, earlier.occurrenceId = occurrence
  superseded : ∀ earlier ∈ reconciled.claims, ∀ occurrence ∈ earlier.supersededByOccurrenceId,
    ∃ later ∈ reconciled.claims, later.occurrenceId = occurrence
  inverse : ∀ later ∈ reconciled.claims, ∀ earlier ∈ reconciled.claims,
    later.correctsOccurrenceId = some earlier.occurrenceId ↔
      earlier.supersededByOccurrenceId = some later.occurrenceId
  oneCorrection : ∀ later earlier other, ClaimCorrects reconciled.claims later earlier →
    ClaimCorrects reconciled.claims other earlier → later = other
  oneTarget : ∀ later earlier other, ClaimCorrects reconciled.claims later earlier →
    ClaimCorrects reconciled.claims later other → earlier = other
  acyclic : ∀ claim, ¬ Relation.TransGen (ClaimCorrects reconciled.claims) claim claim
  invalidated : ∀ id, id ∈ reconciled.invalidated ↔
    ∃ pair ∈ previous.zip reconciled.claims, pair.1.id = id ∧
      (Revised pair.1 pair.2 ∨ pair.2.supersededByOccurrenceId ≠ none)
  reassessment : reconciled.reassessment =
    ((previous.zip reconciled.claims).filter fun pair =>
      decide (Revised pair.1 pair.2) && pair.2.supersededByOccurrenceId.isNone).map (·.1.id)

section Order

variable {observations : List Observation}

/-- The start of the interval and the first cited character: what `_precedes` increases. -/
def position (claim : Claim) : ℕ ×ₗ ℕ :=
  toLex (claim.interval.startMs,
    ((claim.interpretation.bind (·.sourceRefs.head?)).map (·.startChar)).getD 0)

theorem Sourced.ordered {claim : Claim} (sourced : Sourced observations claim) :
    claim.interval.startMs < claim.interval.endMs := by
  obtain ⟨interpretation, first, rest, -, -, interval⟩ := sourced.cites
  rw [interval]
  have least := (foldl_min_spec (rest.map (·.startMs)) first.startMs).1 _ List.mem_cons_self
  have most := (foldl_max_spec (rest.map (·.endMs)) first.endMs).1 _ List.mem_cons_self
  exact (least.trans_lt first.ordered).trans_le most

theorem Sourced.alone {claim : Claim} (sourced : Sourced observations claim) {id : String}
    (only : ∀ interpretation, claim.interpretation = some interpretation →
      ∀ ref ∈ interpretation.sourceRefs, ref.observationId = id) :
    ∃ observation, observed observations id = some observation ∧
      claim.interval.startMs = observation.startMs := by
  obtain ⟨interpretation, first, rest, present, cites, interval⟩ := sourced.cites
  have all : ∀ observation ∈ first :: rest, observed observations id = some observation := by
    intro observation member
    have listed : some observation ∈ (first :: rest).map some :=
      List.mem_map_of_mem member
    rw [← cites] at listed
    obtain ⟨ref, cited, found⟩ := List.mem_map.mp listed
    rw [only interpretation present ref cited] at found
    exact found
  refine ⟨first, all first List.mem_cons_self, ?_⟩
  have equal : ∀ others : List Observation, (∀ observation ∈ others, observation = first) →
      (others.map (·.startMs)).foldl min first.startMs = first.startMs := by
    intro others same
    induction others with
    | nil => rfl
    | cons observation others ih =>
        rw [List.map_cons, List.foldl_cons, same observation List.mem_cons_self, Nat.min_self]
        exact ih fun other member => same other (List.mem_cons_of_mem _ member)
  rw [interval]
  refine equal rest fun observation member => ?_
  have one := all first List.mem_cons_self
  rw [all observation (List.mem_cons_of_mem _ member)] at one
  exact Option.some.inj one

theorem oneObservation {refs : List SourceRef}
    (same : (match refs with
      | [] => false
      | ref :: rest => rest.all (·.observationId == ref.observationId)) = true) :
    ∃ id, ∀ ref ∈ refs, ref.observationId = id := by
  cases refs with
  | nil => cases same
  | cons ref rest =>
      refine ⟨ref.observationId, fun other member => ?_⟩
      rcases List.mem_cons.mp member with rfl | later
      · rfl
      · simpa using List.all_eq_true.mp same other later

theorem precedes_position {earlier later : Claim} (first : Sourced observations earlier)
    (second : Sourced observations later) (before : precedes earlier later = true) :
    position earlier < position later := by
  rw [position, position, Prod.Lex.toLex_lt_toLex]
  unfold precedes at before
  by_cases ended : earlier.interval.endMs ≤ later.interval.startMs
  · exact Or.inl (first.ordered.trans_le ended)
  · rw [if_neg ended] at before
    obtain ⟨interpretation, present⟩ : ∃ interpretation,
        earlier.interpretation = some interpretation := by
      obtain ⟨interpretation, -, -, present, -⟩ := first.cites
      exact ⟨interpretation, present⟩
    obtain ⟨other, known⟩ : ∃ other, later.interpretation = some other := by
      obtain ⟨other, -, -, known, -⟩ := second.cites
      exact ⟨other, known⟩
    simp only [present, known, Bool.and_eq_true, List.all_eq_true, decide_eq_true_eq] at before
    obtain ⟨id, shared⟩ := oneObservation before.1
    obtain ⟨observation, found, starts⟩ := @Sourced.alone _ _ first id (by
      intro cited same ref member
      rw [present, Option.some.injEq] at same
      subst same
      exact shared ref (List.mem_append_left _ member))
    obtain ⟨twin, sought, follows⟩ := @Sourced.alone _ _ second id (by
      intro cited same ref member
      rw [known, Option.some.injEq] at same
      subst same
      exact shared ref (List.mem_append_right _ member))
    rw [found, Option.some.injEq] at sought
    subst sought
    refine Or.inr ⟨starts.trans follows.symm, ?_⟩
    obtain ⟨ref, refs, refsAre⟩ := List.exists_cons_of_ne_nil interpretation.cited
    obtain ⟨next, others, othersAre⟩ := List.exists_cons_of_ne_nil other.cited
    have apart := before.2 ref (by rw [refsAre]; exact List.mem_cons_self) next
      (by rw [othersAre]; exact List.mem_cons_self)
    simp only [present, known, Option.bind_some, refsAre, othersAre, List.head?_cons,
      Option.map_some, Option.getD_some]
    exact ref.ordered.trans_le apart

end Order

section Updates

variable {original : String → Option Claim}
  (keyed : ∀ key claim, original key = some claim → claim.id = key)

def Alters (original : String → Option Claim) (item : ReconciledClaim) : Prop :=
  ∃ claim, original item.claimId = some claim ∧ Revisions.Changes claim item

def Follows (original : String → Option Claim) (item : ReconciledClaim) : Prop :=
  ∀ target, item.corrects = some target → ∃ claim earlier, original item.claimId = some claim ∧
    original target = some earlier ∧ precedes earlier claim = true

include keyed in
theorem revise_changed {revisions next : Revisions} {item : ReconciledClaim}
    (ok : revise original revisions item = .ok next) :
    Follows original item ∧ ∀ id, id ∈ next.changed ↔
      id ∈ revisions.changed ∨ item.claimId = id ∧ Alters original item := by
  simp only [revise] at ok
  split at ok
  · cases ok
  · rename_i claim found
    have sameId := keyed _ _ found
    have listed : ∀ id, id ∈ (if Revisions.Changes claim item then claim.id :: revisions.changed
        else revisions.changed) ↔
          id ∈ revisions.changed ∨ item.claimId = id ∧ Alters original item := by
      intro id
      have alters : Alters original item ↔ Revisions.Changes claim item := by
        constructor
        · rintro ⟨other, isOther, changes⟩
          rw [found, Option.some.injEq] at isOther
          subst isOther
          exact changes
        · exact fun changes => ⟨claim, found, changes⟩
      rw [alters, ← sameId]
      by_cases changes : Revisions.Changes claim item
      · rw [if_pos changes, List.mem_cons]
        constructor
        · rintro (same | earlier)
          · exact Or.inr ⟨same.symm, changes⟩
          · exact Or.inl earlier
        · rintro (earlier | ⟨same, -⟩)
          · exact Or.inr earlier
          · exact Or.inl same.symm
      · rw [if_neg changes]
        exact ⟨Or.inl, fun either => either.resolve_right fun both => changes both.2⟩
    split at ok
    · cases ok
    · split at ok
      · rename_i uncorrected
        cases ok
        refine ⟨fun target corrects => ?_, listed⟩
        rw [uncorrected] at corrects
        cases corrects
      · rename_i target corrects
        split at ok
        · cases ok
        · rename_i earlier foundTarget
          split at ok
          · cases ok
          · rename_i allowed
            simp only [Bool.or_eq_true, not_or, Bool.not_eq_true, Bool.not_eq_false'] at allowed
            cases ok
            refine ⟨fun other named => ?_, listed⟩
            rw [corrects, Option.some.injEq] at named
            subst named
            exact ⟨claim, earlier, found, foundTarget, allowed.1.1⟩

include keyed in
theorem foldlM_revise_changed {updates : List ReconciledClaim} {revisions final : Revisions}
    (ok : updates.foldlM (revise original) revisions = .ok final) :
    (∀ item ∈ updates, Follows original item) ∧ ∀ id, id ∈ final.changed ↔
      id ∈ revisions.changed ∨ ∃ item ∈ updates, item.claimId = id ∧ Alters original item := by
  induction updates generalizing revisions with
  | nil =>
      simp only [List.foldlM_nil, pure, Except.pure, Except.ok.injEq] at ok
      subst ok
      simp
  | cons item rest ih =>
      rw [List.foldlM_cons] at ok
      cases first : revise original revisions item with
      | error invalid => simp [first, bind, Except.bind] at ok
      | ok next =>
          rw [first] at ok
          obtain ⟨follows, changed⟩ := revise_changed keyed first
          obtain ⟨others, whole⟩ := ih ok
          refine ⟨List.forall_mem_cons.mpr ⟨follows, others⟩, fun id => ?_⟩
          rw [whole, changed, or_assoc]
          simp only [List.mem_cons, exists_eq_or_imp]

end Updates

section Links

theorem filter_zip {α β γ : Type} {related : α → β → Prop} {left : List α} {right : List β}
    (all : List.Forall₂ related left right) {keep : β → Bool} {select : α × β → Bool}
    {key : β → γ} {keyOf : α × β → γ}
    (agree : ∀ first second, related first second →
      keep second = select (first, second) ∧ key second = keyOf (first, second)) :
    (right.filter keep).map key = ((left.zip right).filter select).map keyOf := by
  induction all with
  | nil => rfl
  | @cons first second _ _ head _ ih =>
      obtain ⟨kept, keyed⟩ := agree first second head
      rw [List.zip_cons_cons, List.filter_cons, List.filter_cons, kept]
      split
      · rw [List.map_cons, List.map_cons, keyed, ih]
      · exact ih

theorem map_of_forall₂ {α β γ : Type} {related : α → β → Prop} {left : List α} {right : List β}
    (all : List.Forall₂ related left right) {key : α → γ} {keyOf : β → γ}
    (agree : ∀ first second, related first second → keyOf second = key first) :
    right.map keyOf = left.map key := by
  induction all with
  | nil => rfl
  | cons head _ ih => rw [List.map_cons, List.map_cons, agree _ _ head, ih]

theorem mem_zip {α β : Type} {related : α → β → Prop} {left : List α} {right : List β}
    (all : List.Forall₂ related left right) {pair : α × β} (member : pair ∈ left.zip right) :
    pair.1 ∈ left ∧ related pair.1 pair.2 := by
  induction all with
  | nil => cases member
  | cons head _ ih =>
      rcases List.mem_cons.mp member with rfl | later
      · exact ⟨List.mem_cons_self, head⟩
      · exact ⟨List.mem_cons_of_mem _ (ih later).1, (ih later).2⟩

theorem zip_of_mem {α β : Type} {related : α → β → Prop} {left : List α} {right : List β}
    (all : List.Forall₂ related left right) {first : α} (member : first ∈ left) :
    ∃ pair ∈ left.zip right, pair.1 = first := by
  induction all with
  | nil => cases member
  | cons head _ ih =>
      rcases List.mem_cons.mp member with rfl | later
      · exact ⟨_, List.mem_cons_self, rfl⟩
      · obtain ⟨pair, listed, same⟩ := ih later
        exact ⟨pair, List.mem_cons_of_mem _ listed, same⟩

structure Answer (previous : List Claim) (updates : List ReconciledClaim) (revisions : Revisions)
    (claim next : Claim) (item : ReconciledClaim) : Prop where
  member : item ∈ updates
  claimId : item.claimId = claim.id
  same : SameOccurrence claim next
  interpretation : next.interpretation = some item.interpretation
  sourceRefs : claim.interpretation.map (·.sourceRefs) = some item.interpretation.sourceRefs
  changed : claim.id ∈ revisions.changed ↔ Revised claim next
  corrects : next.correctsOccurrenceId =
    (item.corrects.bind (lastWith Claim.id previous)).map (·.occurrenceId)
  superseded : next.supersededByOccurrenceId =
    ((revisions.superseded.lookup claim.id).bind (lastWith Claim.id previous)).map (·.occurrenceId)

variable {observations : List Observation} {output : Reconciliation} {previous : ReportVersion}
  {textOf : String → Option String} {now : Timestamp} {reconciled : Reconciled}

/-- The two loops read as one relation between a version and its reconciled claims. -/
structure Answers (output : Reconciliation) (previous : ReportVersion) (reconciled : Reconciled)
    (revisions : Revisions) : Prop where
  distinct : (output.updates.map (·.claimId)).Nodup
  claims : List.Forall₂ (fun claim next => ∃ item,
    Answer previous.claims output.updates revisions claim next item)
    previous.claims reconciled.claims
  follows : ∀ item ∈ output.updates, Follows (lastWith Claim.id previous.claims) item
  known : ∀ item ∈ output.updates, item.claimId ∈ previous.claims.map (·.id)
  links : ∀ target later, revisions.superseded.lookup target = some later ↔
    ∃ item ∈ output.updates, item.corrects = some target ∧ item.claimId = later
  changed : ∀ id ∈ revisions.changed, id ∈ previous.claims.map (·.id)
  superseded : ∀ id, id ∈ revisions.superseded.map (·.1) ↔
    ∃ later, revisions.superseded.lookup id = some later
  invalidated : reconciled.invalidated = revisions.changed ++ revisions.superseded.map (·.1)
  reassessment : reconciled.reassessment = (reconciled.claims.filter fun claim =>
    revisions.changed.contains claim.id &&
      (revisions.superseded.lookup claim.id).isNone).map (·.id)

theorem forall₂_imp_mem {α β : Type} {related other : α → β → Prop} {left : List α}
    {right : List β} (all : List.Forall₂ related left right)
    (implied : ∀ first ∈ left, ∀ second, related first second → other first second) :
    List.Forall₂ other left right := by
  induction all with
  | nil => exact .nil
  | cons head _ ih =>
      exact .cons (implied _ List.mem_cons_self _ head)
        (ih fun first member => implied first (List.mem_cons_of_mem _ member))

theorem reconcileClaims_answers
    (accepted : reconcileClaims output previous textOf now = .ok reconciled)
    (ids : (previous.claims.map (·.id)).Nodup) :
    ∃ revisions, Answers output previous reconciled revisions := by
  have distinct := reconcileClaims_distinct accepted ids
  obtain ⟨_, known, _, revisions, folded, revised, invalidated, reassessment⟩ :=
    reconcileClaims_ok accepted
  have keyed : ∀ key claim, lastWith Claim.id previous.claims key = some claim →
      claim.id = key := fun _ _ found => lastWith_key found
  obtain ⟨updates, keys, superseded⟩ := foldlM_revise keyed folded List.nodup_nil
  obtain ⟨follows, changed⟩ := foldlM_revise_changed keyed folded
  rw [List.nil_append] at superseded
  refine ⟨revisions, distinct, forall₂_imp_mem (reviseClaims_map revised) ?_, follows, known, ?_,
    ?_, ?_, invalidated, reassessment⟩
  · rintro claim member next ⟨item, found, rfl⟩
    have listed := lastWith_mem found
    have sameId : item.claimId = claim.id := lastWith_key found
    have own : lastWith Claim.id previous.claims item.claimId = some claim := by
      rw [sameId]
      exact lastWith_eq ids member
    obtain ⟨original, isOriginal, sourceRefs⟩ := (updates item listed).claim
    rw [own, Option.some.injEq] at isOriginal
    subst isOriginal
    refine ⟨item, listed, sameId, reconciledClaim_same _ _ _ _ _, rfl, sourceRefs, ?_, rfl, rfl⟩
    rw [changed]
    constructor
    · rintro (none | ⟨other, otherListed, otherId, alters⟩)
      · cases none
      · have equal : other = item := List.inj_on_of_nodup_map distinct otherListed listed
          (otherId.trans sameId.symm)
        subst equal
        obtain ⟨altered, isAltered, changes⟩ := alters
        rw [own, Option.some.injEq] at isAltered
        subst isAltered
        exact changes
    · exact fun revisedBy => Or.inr ⟨item, listed, sameId, claim, own, revisedBy⟩
  · intro target later
    rw [lookup_eq_some keys, superseded, List.mem_filterMap]
    constructor
    · rintro ⟨other, otherListed, isLink⟩
      obtain ⟨corrected, corrects, same⟩ := Option.map_eq_some_iff.mp isLink
      rw [Prod.mk.injEq] at same
      exact ⟨other, otherListed, same.1 ▸ corrects, same.2⟩
    · rintro ⟨other, otherListed, corrects, rfl⟩
      exact ⟨other, otherListed, by simp [ReconciledClaim.link?, corrects]⟩
  · intro id member
    rcases (changed id).mp member with none | ⟨item, listed, rfl, -⟩
    · cases none
    · exact known item listed
  · intro id
    simp only [lookup_eq_some keys, List.mem_map, Prod.exists, exists_eq_right, exists_and_right]

theorem names_iff (stored : Stored observations previous) {key : Option String} {claim : Claim}
    (member : claim ∈ previous.claims) :
    (key.bind (lastWith Claim.id previous.claims)).map (·.occurrenceId) = some claim.occurrenceId ↔
      key = some claim.id := by
  constructor
  · intro named
    obtain ⟨other, bound, same⟩ := Option.map_eq_some_iff.mp named
    obtain ⟨id, rfl, found⟩ := Option.bind_eq_some_iff.mp bound
    have equal : other = claim :=
      List.inj_on_of_nodup_map stored.occurrences (lastWith_mem found) member same
    rw [← equal, lastWith_key found]
  · rintro rfl
    rw [Option.bind_some, lastWith_eq stored.ids member, Option.map_some]

variable {revisions : Revisions}

theorem Answer.corrects_iff (stored : Stored observations previous) {claim next : Claim}
    {item : ReconciledClaim}
    (answer : Answer previous.claims output.updates revisions claim next item)
    {earlier : Claim} (member : earlier ∈ previous.claims) :
    next.correctsOccurrenceId = some earlier.occurrenceId ↔ item.corrects = some earlier.id := by
  rw [answer.corrects]
  exact names_iff stored member

theorem Answer.superseded_iff (stored : Stored observations previous)
    (answers : Answers output previous reconciled revisions) {claim next later : Claim}
    {item other : ReconciledClaim}
    (answer : Answer previous.claims output.updates revisions claim next item)
    (member : later ∈ previous.claims) (listed : other ∈ output.updates)
    (own : other.claimId = later.id) :
    next.supersededByOccurrenceId = some later.occurrenceId ↔ other.corrects = some claim.id := by
  rw [answer.superseded, names_iff stored member, answers.links]
  constructor
  · rintro ⟨found, foundListed, corrects, same⟩
    have equal : found = other :=
      List.inj_on_of_nodup_map answers.distinct foundListed listed (same.trans own.symm)
    rw [← equal]
    exact corrects
  · exact fun corrects => ⟨other, listed, corrects, own⟩

theorem Answer.unsuperseded_iff (answers : Answers output previous reconciled revisions)
    {claim next : Claim} {item : ReconciledClaim}
    (answer : Answer previous.claims output.updates revisions claim next item) :
    next.supersededByOccurrenceId = none ↔ revisions.superseded.lookup claim.id = none := by
  rw [answer.superseded]
  cases looked : revisions.superseded.lookup claim.id with
  | none => simp
  | some later =>
      obtain ⟨other, listed, -, rfl⟩ := (answers.links _ _).mp looked
      obtain ⟨known, isKnown⟩ := lastWith_isSome (answers.known other listed)
      simp [isKnown]

/-- An accepted reconciliation keeps every appearance and draws a sound correction relation. -/
theorem reconciled_corrected (stored : Stored observations previous)
    (accepted : reconcileClaims output previous
      (fun id => (observed observations id).map (·.text)) now = .ok reconciled) :
    Corrected previous.claims reconciled := by
  obtain ⟨revisions, answers⟩ := reconcileClaims_answers accepted stored.ids
  have named : ∀ next ∈ reconciled.claims, ∃ claim ∈ previous.claims, ∃ item,
      Answer previous.claims output.updates revisions claim next item :=
    fun next member => exists_of_forall₂ answers.claims member
  have kept : ∀ claim ∈ previous.claims, ∃ next ∈ reconciled.claims,
      next.occurrenceId = claim.occurrenceId := by
    intro claim member
    obtain ⟨pair, listed, rfl⟩ := zip_of_mem answers.claims member
    obtain ⟨-, item, answer⟩ := mem_zip answers.claims listed
    exact ⟨pair.2, (List.of_mem_zip listed).2, answer.same.occurrenceId⟩
  have inverse : ∀ later ∈ reconciled.claims, ∀ earlier ∈ reconciled.claims,
      later.correctsOccurrenceId = some earlier.occurrenceId ↔
        earlier.supersededByOccurrenceId = some later.occurrenceId := by
    intro later laterListed earlier earlierListed
    obtain ⟨first, firstMember, item, answer⟩ := named later laterListed
    obtain ⟨second, secondMember, other, otherAnswer⟩ := named earlier earlierListed
    rw [otherAnswer.same.occurrenceId, answer.same.occurrenceId,
      answer.corrects_iff stored secondMember,
      otherAnswer.superseded_iff stored answers firstMember answer.member answer.claimId]
  have occurrences : (reconciled.claims.map (·.occurrenceId)).Nodup := by
    have same : reconciled.claims.map (·.occurrenceId) = previous.claims.map (·.occurrenceId) := by
      refine map_of_forall₂ answers.claims ?_
      rintro claim next ⟨item, answer⟩
      exact answer.same.occurrenceId
    rw [same]
    exact stored.occurrences
  constructor
  · refine answers.claims.imp ?_
    rintro claim next ⟨item, answer⟩
    refine ⟨answer.same, ?_⟩
    rw [answer.interpretation, answer.sourceRefs, Option.map_some]
  · intro later member occurrence corrects
    obtain ⟨claim, -, item, answer⟩ := named later member
    rw [answer.corrects] at corrects
    obtain ⟨earlier, bound, same⟩ := Option.map_eq_some_iff.mp corrects
    obtain ⟨id, -, found⟩ := Option.bind_eq_some_iff.mp bound
    rw [← same]
    exact kept earlier (lastWith_mem found)
  · intro earlier member occurrence superseded
    obtain ⟨claim, -, item, answer⟩ := named earlier member
    rw [answer.superseded] at superseded
    obtain ⟨later, bound, same⟩ := Option.map_eq_some_iff.mp superseded
    obtain ⟨id, -, found⟩ := Option.bind_eq_some_iff.mp bound
    rw [← same]
    exact kept later (lastWith_mem found)
  · exact inverse
  · rintro later earlier other ⟨laterListed, earlierListed, corrects⟩ ⟨otherListed, -, others⟩
    have first := (inverse later laterListed earlier earlierListed).mp corrects
    have second := (inverse other otherListed earlier earlierListed).mp others
    rw [first, Option.some.injEq] at second
    exact List.inj_on_of_nodup_map occurrences laterListed otherListed second
  · rintro later earlier other ⟨-, earlierListed, corrects⟩ ⟨-, otherListed, others⟩
    rw [corrects, Option.some.injEq] at others
    exact List.inj_on_of_nodup_map occurrences earlierListed otherListed others
  · -- a correction always lies after what it corrects
    have before : ∀ later earlier, ClaimCorrects reconciled.claims later earlier →
        position earlier < position later := by
      rintro later earlier ⟨laterListed, earlierListed, corrects⟩
      obtain ⟨first, firstMember, item, answer⟩ := named later laterListed
      obtain ⟨second, secondMember, other, otherAnswer⟩ := named earlier earlierListed
      rw [otherAnswer.same.occurrenceId, answer.corrects_iff stored secondMember] at corrects
      obtain ⟨claim, target, isClaim, isTarget, ordered⟩ :=
        answers.follows item answer.member second.id corrects
      rw [answer.claimId, lastWith_eq stored.ids firstMember, Option.some.injEq] at isClaim
      rw [lastWith_eq stored.ids secondMember, Option.some.injEq] at isTarget
      subst isClaim isTarget
      have order := precedes_position (stored.sourced _ secondMember)
        (stored.sourced _ firstMember) ordered
      have moved : ∀ {claim next : Claim} {item : ReconciledClaim},
          Answer previous.claims output.updates revisions claim next item →
            position next = position claim := by
        intro claim next item answer
        have refs : next.interpretation.map (·.sourceRefs) =
            claim.interpretation.map (·.sourceRefs) := by
          rw [answer.interpretation, answer.sourceRefs, Option.map_some]
        have heads := congrArg (fun cited => cited.bind (·.head?)) refs
        simp only [Option.bind_map, Function.comp_def] at heads
        rw [position, position, answer.same.interval, heads]
      rw [moved answer, moved otherAnswer]
      exact order
    have chain : ∀ later earlier, Relation.TransGen (ClaimCorrects reconciled.claims) later earlier →
        position earlier < position later := by
      intro later earlier path
      induction path with
      | single link => exact before _ _ link
      | tail _ link ih => exact (before _ _ link).trans ih
    exact fun claim cycle => lt_irrefl _ (chain claim claim cycle)
  · intro id
    rw [answers.invalidated, List.mem_append]
    constructor
    · rintro (changed | superseded)
      · obtain ⟨claim, member, rfl⟩ := List.mem_map.mp (answers.changed id changed)
        obtain ⟨pair, listed, rfl⟩ := zip_of_mem answers.claims member
        obtain ⟨-, item, answer⟩ := mem_zip answers.claims listed
        exact ⟨pair, listed, rfl, Or.inl (answer.changed.mp changed)⟩
      · obtain ⟨later, looked⟩ := (answers.superseded id).mp superseded
        obtain ⟨item, updated, corrects, -⟩ := (answers.links id later).mp looked
        obtain ⟨-, target, -, isTarget, -⟩ := answers.follows item updated id corrects
        obtain ⟨pair, listed, same⟩ := zip_of_mem answers.claims (lastWith_mem isTarget)
        obtain ⟨-, own, answer⟩ := mem_zip answers.claims listed
        have key : pair.1.id = id := by rw [same, lastWith_key isTarget]
        refine ⟨pair, listed, key, Or.inr fun none => ?_⟩
        rw [answer.unsuperseded_iff answers, key, looked] at none
        cases none
    · rintro ⟨pair, listed, rfl, either⟩
      obtain ⟨-, item, answer⟩ := mem_zip answers.claims listed
      rcases either with revisedBy | superseded
      · exact Or.inl (answer.changed.mpr revisedBy)
      · refine Or.inr ((answers.superseded _).mpr ?_)
        rw [← Option.ne_none_iff_exists']
        exact fun none => superseded ((answer.unsuperseded_iff answers).mpr none)
  · rw [answers.reassessment]
    refine filter_zip answers.claims ?_
    rintro claim next ⟨item, answer⟩
    refine ⟨?_, answer.same.id⟩
    have changed : revisions.changed.contains next.id = decide (Revised claim next) := by
      rw [Bool.eq_iff_iff, List.contains_iff_mem, decide_eq_true_iff, answer.same.id]
      exact answer.changed
    have superseded : (revisions.superseded.lookup next.id).isNone =
        next.supersededByOccurrenceId.isNone := by
      rw [Bool.eq_iff_iff, Option.isNone_iff_eq_none, Option.isNone_iff_eq_none, answer.same.id]
      exact (answer.unsuperseded_iff answers).symm
    rw [changed, superseded]

def spokenClaim (id text : String) (start stop : Nat) (ordered : start < stop) : Claim where
  id := id
  occurrenceId := id
  interval := envelope spokenObservation []
  modality := .speech
  originalText := text
  proposition := text
  correction := none
  interpretation := some (spokenInterpretation start stop ordered)

theorem firstClaim_ordered : 0 < 3 := Nat.zero_lt_succ 2

def firstClaim : Claim := spokenClaim "a" "one" 0 3 firstClaim_ordered

theorem secondClaim_ordered : 4 < 7 := Nat.lt_of_sub_eq_succ rfl

def secondClaim : Claim := spokenClaim "b" "two" 4 7 secondClaim_ordered

def twoClaims : ReportVersion where
  id := "report"
  investigationId := "investigation"
  version := 1
  createdAt := 0
  provisional := true
  changeSummary := ""
  supersedes := none
  claims := [firstClaim, secondClaim]
  evidence := []
  assessments := []

def secondExplanation : String := "The second corrects the first."

theorem secondExplanation_short :
    0 < secondExplanation.length ∧ secondExplanation.length ≤ 600 := by
  decide

def secondCorrects : Reconciliation where
  updates :=
    [⟨"b", "two", spokenInterpretation 4 7 secondClaim_ordered, some "a"⟩,
      ⟨"a", "one", spokenInterpretation 0 3 firstClaim_ordered, none⟩]
  explanation := secondExplanation
  bounded := Nat.le_of_ble_eq_true rfl
  explained := secondExplanation_short

def secondCorrected : Reconciled where
  claims := [{ firstClaim with supersededByOccurrenceId := some "b" },
    { secondClaim with correctsOccurrenceId := some "a" }]
  invalidated := ["a"]
  reassessment := []

theorem twoClaims_stored : Stored [spokenObservation] twoClaims where
  ids := by decide
  occurrences := by decide
  sourced := by
    intro claim member
    rcases List.mem_cons.mp member with rfl | later
    · exact ⟨⟨_, spokenObservation, [], rfl, rfl, rfl⟩⟩
    · rw [List.mem_singleton.mp later]
      exact ⟨⟨_, spokenObservation, [], rfl, rfl, rfl⟩⟩

theorem reconciled_corrected_pair : Corrected twoClaims.claims secondCorrected :=
  @reconciled_corrected _ secondCorrects _ 0 _ twoClaims_stored (by decide +kernel)

end Links

end Ovrly.Reports
