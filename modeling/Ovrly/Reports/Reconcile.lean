import Ovrly.Extraction.Grounding
import Mathlib.Data.List.Perm.Subperm

/-!
`reconcile_claims` of `pipeline/reconciliation.py`: a model's answer over the whole input turned
into revised claims, with the claims it invalidates.
-/

namespace Ovrly.Reports

open Ovrly.Extraction (ExtractionInvalid citesOnce)

structure ReconciledClaim where
  claimId : String
  proposition : String
  interpretation : Interpretation
  corrects : Option String
  deriving DecidableEq

structure Reconciliation where
  updates : List ReconciledClaim
  explanation : String
  bounded : updates.length ≤ 4096
  explained : 0 < explanation.length ∧ explanation.length ≤ 600

/-- `{item.id: item for item in items}[key]`: the last item of a key wins. -/
def lastWith {α : Type} (keyOf : α → String) (items : List α) (key : String) : Option α :=
  items.reverse.find? (keyOf · == key)

theorem lastWith_key {α : Type} {keyOf : α → String} {items : List α} {key : String} {item : α}
    (found : lastWith keyOf items key = some item) : keyOf item = key := by
  have matched := List.find?_some found
  simpa using matched

theorem lastWith_mem {α : Type} {keyOf : α → String} {items : List α} {key : String} {item : α}
    (found : lastWith keyOf items key = some item) : item ∈ items :=
  List.mem_reverse.mp (List.mem_of_find?_eq_some found)

theorem lastWith_isSome {α : Type} {keyOf : α → String} {items : List α} {key : String}
    (known : key ∈ items.map keyOf) : ∃ item, lastWith keyOf items key = some item := by
  obtain ⟨item, member, rfl⟩ := List.mem_map.mp known
  rw [← Option.isSome_iff_exists, lastWith, List.find?_isSome]
  exact ⟨item, List.mem_reverse.mpr member, by simp⟩

theorem lastWith_eq {α : Type} {keyOf : α → String} {items : List α}
    (distinct : (items.map keyOf).Nodup) {item : α} (member : item ∈ items) :
    lastWith keyOf items (keyOf item) = some item := by
  obtain ⟨found, isFound⟩ := lastWith_isSome (List.mem_map_of_mem (f := keyOf) member)
  rw [isFound, Option.some.injEq]
  exact List.inj_on_of_nodup_map distinct (lastWith_mem isFound) member (lastWith_key isFound)

/-- The earlier claim ends before the later one starts, or stands before it in the same
observation. -/
def precedes (earlier later : Claim) : Bool :=
  if earlier.interval.endMs ≤ later.interval.startMs then true
  else
    match earlier.interpretation, later.interpretation with
    | some first, some second =>
        (match first.sourceRefs ++ second.sourceRefs with
          | [] => false
          | ref :: rest => rest.all (·.observationId == ref.observationId)) &&
        -- the greatest end is at most the least start
        first.sourceRefs.all fun ref => second.sourceRefs.all fun other =>
          ref.endChar ≤ other.startChar
    | _, _ => false

/-- The dictionaries the first loop of `reconcile_claims` fills: superseded claims with the
claim correcting each, and changed claims. -/
structure Revisions where
  superseded : List (String × String) := []
  changed : List String := []
  deriving DecidableEq, Repr

def Revisions.Changes (claim : Claim) (item : ReconciledClaim) : Prop :=
  item.proposition ≠ claim.proposition ∨ some item.interpretation ≠ claim.interpretation

instance (claim : Claim) (item : ReconciledClaim) : Decidable (Revisions.Changes claim item) :=
  inferInstanceAs (Decidable (_ ∨ _))

def revise (original : String → Option Claim) (revisions : Revisions) (item : ReconciledClaim) :
    Except ExtractionInvalid Revisions :=
  match original item.claimId with
  | none => .error ⟨"Reconciliation must preserve every occurrence", none⟩
  | some claim =>
      if claim.interpretation.map (·.sourceRefs) ≠ some item.interpretation.sourceRefs then
        .error ⟨"Reconciliation cannot change an occurrence's source", none⟩
      else
        let changed :=
          if Revisions.Changes claim item then claim.id :: revisions.changed else revisions.changed
        match item.corrects with
        | none => .ok { revisions with changed }
        | some target =>
            match original target with
            | none => .error ⟨"Correction must name one earlier occurrence", none⟩
            | some earlier =>
                if !precedes earlier claim || earlier.id == claim.id ||
                    (revisions.superseded.lookup earlier.id).isSome then
                  .error ⟨"Correction must name one earlier occurrence", none⟩
                else
                  .ok ⟨revisions.superseded ++ [(earlier.id, claim.id)], changed⟩

/-- Whether `reconcile_claims` accepts the text and the references of an update. -/
def checkUpdate (textOf : String → Option String) (item : ReconciledClaim) :
    Except ExtractionInvalid Unit :=
  if item.proposition.length > 2000 then
    .error ⟨"Reconciled proposition exceeds the public limit", none⟩
  else if !citesOnce textOf [] item.interpretation.sourceRefs ||
      !citesOnce textOf [] item.interpretation.contextRefs then
    .error ⟨"Invalid reconciliation source reference", none⟩
  else .ok ()

def reconciledClaim (original : String → Option Claim) (revisions : Revisions) (now : Timestamp)
    (claim : Claim) (item : ReconciledClaim) : Claim :=
  { claim with
    proposition := item.proposition
    interpretation := some item.interpretation
    correctsOccurrenceId := (item.corrects.bind original).map (·.occurrenceId)
    supersededByOccurrenceId :=
      ((revisions.superseded.lookup claim.id).bind original).map (·.occurrenceId)
    correction :=
      if revisions.changed.contains claim.id then some ⟨.pipeline, now, claim.proposition⟩
      else claim.correction }

/-- The second loop of `reconcile_claims`. -/
def reviseClaims (original : String → Option Claim) (update : String → Option ReconciledClaim)
    (textOf : String → Option String) (revisions : Revisions) (now : Timestamp) :
    List Claim → Except ExtractionInvalid (List Claim)
  | [] => .ok []
  | claim :: rest =>
      match update claim.id with
      | none => .error ⟨"Reconciliation must preserve every occurrence", none⟩
      | some item => do
          checkUpdate textOf item
          let claims ← reviseClaims original update textOf revisions now rest
          return reconciledClaim original revisions now claim item :: claims

structure Reconciled where
  claims : List Claim
  invalidated : List String
  reassessment : List String
  deriving DecidableEq

def reconcileClaims (output : Reconciliation) (previous : ReportVersion)
    (textOf : String → Option String) (now : Timestamp) : Except ExtractionInvalid Reconciled :=
  let original := lastWith Claim.id previous.claims
  let update := lastWith ReconciledClaim.claimId output.updates
  if output.updates.length ≠ previous.claims.length ∨
      (∃ item ∈ output.updates, item.claimId ∉ previous.claims.map (·.id)) ∨
      (∃ claim ∈ previous.claims, claim.id ∉ output.updates.map (·.claimId)) then
    .error ⟨"Reconciliation must preserve every occurrence", none⟩
  else do
    let revisions ← output.updates.foldlM (revise original) {}
    let claims ← reviseClaims original update textOf revisions now previous.claims
    return {
      claims
      invalidated := revisions.changed ++ revisions.superseded.map (·.1)
      reassessment := (claims.filter fun claim =>
        revisions.changed.contains claim.id &&
          (revisions.superseded.lookup claim.id).isNone).map (·.id) }

structure SameOccurrence (claim next : Claim) : Prop where
  id : next.id = claim.id
  occurrenceId : next.occurrenceId = claim.occurrenceId
  interval : next.interval = claim.interval
  modality : next.modality = claim.modality
  originalText : next.originalText = claim.originalText

theorem reconciledClaim_same (original : String → Option Claim) (revisions : Revisions)
    (now : Timestamp) (claim : Claim) (item : ReconciledClaim) :
    SameOccurrence claim (reconciledClaim original revisions now claim item) :=
  ⟨rfl, rfl, rfl, rfl, rfl⟩

theorem reviseClaims_map {original : String → Option Claim}
    {update : String → Option ReconciledClaim} {textOf : String → Option String}
    {revisions : Revisions} {now : Timestamp} {claims next : List Claim}
    (revised : reviseClaims original update textOf revisions now claims = .ok next) :
    List.Forall₂ (fun claim claim' => ∃ item, update claim.id = some item ∧
      claim' = reconciledClaim original revisions now claim item) claims next := by
  induction claims generalizing next with
  | nil =>
      simp only [reviseClaims, Except.ok.injEq] at revised
      rw [← revised]
      exact .nil
  | cons claim rest ih =>
      simp only [reviseClaims] at revised
      split at revised
      · simp at revised
      · rename_i item found
        cases checked : checkUpdate textOf item with
        | error invalid => simp [checked, bind, Except.bind] at revised
        | ok _ =>
            cases tail : reviseClaims original update textOf revisions now rest with
            | error invalid => simp [checked, tail, bind, Except.bind] at revised
            | ok others =>
                simp only [checked, tail, bind, Except.bind, pure, Except.pure,
                  Except.ok.injEq] at revised
                rw [← revised]
                exact .cons ⟨item, found, rfl⟩ (ih tail)

theorem reconcileClaims_ok {output : Reconciliation} {previous : ReportVersion}
    {textOf : String → Option String} {now : Timestamp} {reconciled : Reconciled}
    (accepted : reconcileClaims output previous textOf now = .ok reconciled) :
    output.updates.length = previous.claims.length ∧
      (∀ item ∈ output.updates, item.claimId ∈ previous.claims.map (·.id)) ∧
      (∀ claim ∈ previous.claims, claim.id ∈ output.updates.map (·.claimId)) ∧
      ∃ revisions,
        output.updates.foldlM (revise (lastWith Claim.id previous.claims)) {} = .ok revisions ∧
        reviseClaims (lastWith Claim.id previous.claims)
          (lastWith ReconciledClaim.claimId output.updates) textOf revisions now previous.claims =
            .ok reconciled.claims ∧
        reconciled.invalidated = revisions.changed ++ revisions.superseded.map (·.1) ∧
        reconciled.reassessment = (reconciled.claims.filter fun claim =>
          revisions.changed.contains claim.id &&
            (revisions.superseded.lookup claim.id).isNone).map (·.id) := by
  simp only [reconcileClaims] at accepted
  split at accepted
  · simp at accepted
  · rename_i same
    push Not at same
    cases first : output.updates.foldlM (revise (lastWith Claim.id previous.claims)) {} with
    | error invalid => simp [first, bind, Except.bind] at accepted
    | ok revisions =>
        cases second : reviseClaims (lastWith Claim.id previous.claims)
            (lastWith ReconciledClaim.claimId output.updates) textOf revisions now
            previous.claims with
        | error invalid => simp [first, second, bind, Except.bind] at accepted
        | ok claims =>
            simp only [first, second, bind, Except.bind, pure, Except.pure,
              Except.ok.injEq] at accepted
            subst accepted
            exact ⟨same.1, same.2.1, same.2.2, revisions, rfl, second, rfl, rfl⟩

theorem reconcileClaims_same {output : Reconciliation} {previous : ReportVersion}
    {textOf : String → Option String} {now : Timestamp} {reconciled : Reconciled}
    (accepted : reconcileClaims output previous textOf now = .ok reconciled) :
    List.Forall₂ SameOccurrence previous.claims reconciled.claims := by
  obtain ⟨_, _, _, revisions, _, revised, _⟩ := reconcileClaims_ok accepted
  refine (reviseClaims_map revised).imp ?_
  rintro claim next ⟨item, _, rfl⟩
  exact reconciledClaim_same _ revisions now claim item

theorem SameOccurrence.ids {claims next : List Claim}
    (same : List.Forall₂ SameOccurrence claims next) :
    next.map (·.id) = claims.map (·.id) := by
  induction same with
  | nil => rfl
  | cons head _ ih => rw [List.map_cons, List.map_cons, head.id, ih]

theorem reconcileClaims_ids {output : Reconciliation} {previous : ReportVersion}
    {textOf : String → Option String} {now : Timestamp} {reconciled : Reconciled}
    (accepted : reconcileClaims output previous textOf now = .ok reconciled) :
    reconciled.claims.map (·.id) = previous.claims.map (·.id) :=
  SameOccurrence.ids (reconcileClaims_same accepted)

/-! ### The links a reconciliation draws -/

theorem lookup_eq_some {α β : Type} [BEq α] [LawfulBEq α] {entries : List (α × β)}
    (distinct : (entries.map (·.1)).Nodup) {key : α} {value : β} :
    entries.lookup key = some value ↔ (key, value) ∈ entries := by
  induction entries with
  | nil => simp
  | cons entry rest ih =>
      obtain ⟨first, second⟩ := entry
      rw [List.map_cons, List.nodup_cons] at distinct
      rw [List.lookup_cons, List.mem_cons, Prod.mk.injEq]
      by_cases same : key = first
      · subst same
        have absent : (key, value) ∉ rest := fun member =>
          distinct.1 (List.mem_map.mpr ⟨_, member, rfl⟩)
        simp [absent, eq_comm]
      · have different : (key == first) = false := by simpa using same
        simp [different, same, ih distinct.2]

def ReconciledClaim.link? (item : ReconciledClaim) : Option (String × String) :=
  item.corrects.map fun target => (target, item.claimId)

structure Accepted (original : String → Option Claim) (item : ReconciledClaim) : Prop where
  claim : ∃ claim, original item.claimId = some claim ∧
    claim.interpretation.map (·.sourceRefs) = some item.interpretation.sourceRefs
  target : ∀ target, item.corrects = some target → ∃ earlier, original target = some earlier

section Revise

variable {original : String → Option Claim}
  (keyed : ∀ key claim, original key = some claim → claim.id = key)

include keyed in
theorem revise_ok {revisions next : Revisions} {item : ReconciledClaim}
    (ok : revise original revisions item = .ok next)
    (distinct : (revisions.superseded.map (·.1)).Nodup) :
    Accepted original item ∧ (next.superseded.map (·.1)).Nodup ∧
      next.superseded = revisions.superseded ++ item.link?.toList := by
  simp only [revise] at ok
  split at ok
  · simp at ok
  · rename_i claim found
    have sameId := keyed _ _ found
    split at ok
    · simp at ok
    · rename_i sameRefs
      rw [not_not] at sameRefs
      split at ok
      · rename_i uncorrected
        rw [Except.ok.injEq] at ok
        subst ok
        refine ⟨⟨⟨claim, found, sameRefs⟩, by simp [uncorrected]⟩, distinct, ?_⟩
        simp [ReconciledClaim.link?, uncorrected]
      · rename_i target corrects
        split at ok
        · simp at ok
        · rename_i earlier foundTarget
          have sameTarget := keyed _ _ foundTarget
          split at ok
          · simp at ok
          · rename_i allowed
            simp only [Bool.or_eq_true, not_or, Bool.not_eq_true,
              Option.isSome_eq_false_iff, Option.isNone_iff_eq_none] at allowed
            rw [Except.ok.injEq] at ok
            subst ok
            refine ⟨⟨⟨claim, found, sameRefs⟩, ?_⟩, ?_, ?_⟩
            · intro other named
              rw [corrects, Option.some.injEq] at named
              exact ⟨earlier, named ▸ foundTarget⟩
            · rw [List.map_append, List.nodup_append]
              refine ⟨distinct, List.nodup_singleton _, ?_⟩
              rintro key known other single rfl
              rw [List.map_singleton, List.mem_singleton] at single
              obtain ⟨⟨first, second⟩, member, same⟩ := List.mem_map.mp known
              obtain rfl : first = earlier.id := same.trans single
              rw [(lookup_eq_some distinct).mpr member] at allowed
              simp at allowed
            · simp [ReconciledClaim.link?, corrects, sameId, sameTarget]

include keyed in
theorem foldlM_revise {updates : List ReconciledClaim} {revisions final : Revisions}
    (ok : updates.foldlM (revise original) revisions = .ok final)
    (distinct : (revisions.superseded.map (·.1)).Nodup) :
    (∀ item ∈ updates, Accepted original item) ∧ (final.superseded.map (·.1)).Nodup ∧
      final.superseded = revisions.superseded ++ updates.filterMap (·.link?) := by
  induction updates generalizing revisions with
  | nil =>
      simp only [List.foldlM_nil, pure, Except.pure, Except.ok.injEq] at ok
      subst ok
      exact ⟨by simp, distinct, by simp⟩
  | cons item rest ih =>
      rw [List.foldlM_cons] at ok
      cases first : revise original revisions item with
      | error invalid => simp [first, bind, Except.bind] at ok
      | ok next =>
          rw [first] at ok
          obtain ⟨accepted, stillDistinct, extended⟩ := revise_ok keyed first distinct
          obtain ⟨others, finallyDistinct, whole⟩ := ih ok stillDistinct
          refine ⟨?_, finallyDistinct, ?_⟩
          · intro other member
            rcases List.mem_cons.mp member with rfl | member
            · exact accepted
            · exact others other member
          · rw [whole, extended, List.append_assoc]
            cases linked : item.link? <;> simp [linked]

end Revise

theorem exists_of_forall₂ {α β : Type} {related : α → β → Prop} {left : List α} {right : List β}
    (all : List.Forall₂ related left right) {second : β} (member : second ∈ right) :
    ∃ first ∈ left, related first second := by
  induction all with
  | nil => simp at member
  | @cons first other _ _ head _ ih =>
      rcases List.mem_cons.mp member with rfl | member
      · exact ⟨first, List.mem_cons_self, head⟩
      · obtain ⟨found, belongs, matched⟩ := ih member
        exact ⟨found, List.mem_cons_of_mem _ belongs, matched⟩

theorem reconcileClaims_distinct {output : Reconciliation} {previous : ReportVersion}
    {textOf : String → Option String} {now : Timestamp} {reconciled : Reconciled}
    (accepted : reconcileClaims output previous textOf now = .ok reconciled)
    (distinct : (previous.claims.map (·.id)).Nodup) :
    (output.updates.map (·.claimId)).Nodup := by
  obtain ⟨sameLength, _, covered, _⟩ := reconcileClaims_ok accepted
  have included : previous.claims.map (·.id) ⊆ output.updates.map (·.claimId) := by
    intro id known
    obtain ⟨claim, member, rfl⟩ := List.mem_map.mp known
    exact covered claim member
  have short : (output.updates.map (·.claimId)).length ≤ (previous.claims.map (·.id)).length := by
    rw [List.length_map, List.length_map, sameLength]
  exact ((List.Nodup.subperm distinct included).perm_of_length_le short).nodup_iff.mp distinct

theorem reconcileClaims_target {output : Reconciliation} {previous : ReportVersion}
    {textOf : String → Option String} {now : Timestamp} {reconciled : Reconciled}
    (accepted : reconcileClaims output previous textOf now = .ok reconciled)
    {item : ReconciledClaim} (member : item ∈ output.updates) {target : String}
    (corrects : item.corrects = some target) : target ∈ previous.claims.map (·.id) := by
  obtain ⟨_, _, _, revisions, folded, _, _⟩ := reconcileClaims_ok accepted
  obtain ⟨updates, _, _⟩ := foldlM_revise (fun _ _ found => lastWith_key found) folded
    List.nodup_nil
  obtain ⟨earlier, found⟩ := (updates item member).target target corrects
  exact List.mem_map.mpr ⟨earlier, lastWith_mem found, lastWith_key found⟩

/-- A reconciled claim, with the update that revised it and the links that update and the
others give it. -/
structure RevisedBy (updates : List ReconciledClaim) (claim next : Claim)
    (item : ReconciledClaim) : Prop where
  member : item ∈ updates
  claimId : item.claimId = claim.id
  same : SameOccurrence claim next
  interpretation : next.interpretation = some item.interpretation
  sourceRefs : claim.interpretation.map (·.sourceRefs) = some item.interpretation.sourceRefs
  corrects : ∀ earlier, next.correctsOccurrenceId = some earlier ↔
    item.corrects = some earlier
  superseded : ∀ later, next.supersededByOccurrenceId = some later ↔
    ∃ other ∈ updates, other.corrects = some claim.id ∧ other.claimId = later

/-- Every claim of an accepted reconciliation, under one name for claim and occurrence. -/
theorem reconcileClaims_revised {output : Reconciliation} {previous : ReportVersion}
    {textOf : String → Option String} {now : Timestamp} {reconciled : Reconciled}
    (accepted : reconcileClaims output previous textOf now = .ok reconciled)
    (named : ∀ claim ∈ previous.claims, claim.occurrenceId = claim.id)
    (distinct : (previous.claims.map (·.id)).Nodup) :
    ∀ next ∈ reconciled.claims, ∃ claim ∈ previous.claims, ∃ item,
      RevisedBy output.updates claim next item := by
  intro next member
  obtain ⟨_, _, _, revisions, folded, revised, _⟩ := reconcileClaims_ok accepted
  have keyed : ∀ key claim, lastWith Claim.id previous.claims key = some claim →
      claim.id = key := fun _ _ found => lastWith_key found
  obtain ⟨updates, keys, superseded⟩ := foldlM_revise keyed folded List.nodup_nil
  rw [List.nil_append] at superseded
  obtain ⟨claim, belongs, item, found, rfl⟩ := exists_of_forall₂ (reviseClaims_map revised) member
  have itemMember := lastWith_mem found
  have sameId := lastWith_key found
  have occurrence : ∀ {key : String} {other : Claim},
      lastWith Claim.id previous.claims key = some other → other.occurrenceId = key := by
    intro key other isOther
    rw [named other (lastWith_mem isOther), lastWith_key isOther]
  obtain ⟨original, isOriginal, sourceRefs⟩ := (updates item itemMember).claim
  have sameClaim : original = claim :=
    List.inj_on_of_nodup_map distinct (lastWith_mem isOriginal) belongs
      ((lastWith_key isOriginal).trans sameId)
  refine ⟨claim, belongs, item, itemMember, sameId, reconciledClaim_same _ _ _ _ _, rfl,
    sameClaim ▸ sourceRefs, ?_, ?_⟩
  · intro earlier
    cases corrects : item.corrects with
    | none => simp [reconciledClaim, corrects]
    | some target =>
        obtain ⟨other, isOther⟩ := (updates item itemMember).target target corrects
        simp [reconciledClaim, corrects, isOther, occurrence isOther]
  · intro later
    have linked : ∀ value, revisions.superseded.lookup claim.id = some value ↔
        ∃ other ∈ output.updates, other.corrects = some claim.id ∧ other.claimId = value := by
      intro value
      rw [lookup_eq_some keys, superseded, List.mem_filterMap]
      constructor
      · rintro ⟨other, otherMember, isLink⟩
        obtain ⟨target, corrects, isTarget⟩ := Option.map_eq_some_iff.mp isLink
        rw [Prod.mk.injEq] at isTarget
        exact ⟨other, otherMember, isTarget.1 ▸ corrects, isTarget.2⟩
      · rintro ⟨other, otherMember, corrects, rfl⟩
        exact ⟨other, otherMember, by simp [ReconciledClaim.link?, corrects]⟩
    rw [← linked later]
    simp only [reconciledClaim]
    cases looked : revisions.superseded.lookup claim.id with
    | none => simp
    | some value =>
        obtain ⟨other, otherMember, _, rfl⟩ := (linked value).mp looked
        obtain ⟨known, isKnown, _⟩ := (updates other otherMember).claim
        simp [isKnown, occurrence isKnown]

end Ovrly.Reports
