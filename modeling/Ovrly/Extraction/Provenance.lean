import Ovrly.Extraction.Grounding

/-!
What `grounded_claims` accepts is grounded: where a claim's text comes from, and what its
identifier depends on.
-/

namespace Ovrly.Extraction

open Ovrly.Reports

section Order

theorem identityLE_total (first second : String × Nat × Nat) :
    identityLE first second ∨ identityLE second first := by
  unfold identityLE
  rcases lt_trichotomy first.1 second.1 with before | same | after
  · exact Or.inl (Or.inl before)
  · rcases lt_trichotomy first.2.1 second.2.1 with before | level | after
    · exact Or.inl (Or.inr ⟨same, Or.inl before⟩)
    · rcases Nat.le_total first.2.2 second.2.2 with within | beyond
      · exact Or.inl (Or.inr ⟨same, Or.inr ⟨level, within⟩⟩)
      · exact Or.inr (Or.inr ⟨same.symm, Or.inr ⟨level.symm, beyond⟩⟩)
    · exact Or.inr (Or.inr ⟨same.symm, Or.inl after⟩)
  · exact Or.inr (Or.inl after)

theorem identityLE_trans {first second third : String × Nat × Nat}
    (left : identityLE first second) (right : identityLE second third) :
    identityLE first third := by
  unfold identityLE at *
  rcases left with before | ⟨same, early⟩ <;> rcases right with next | ⟨equal, late⟩
  · exact Or.inl (before.trans next)
  · exact Or.inl (equal ▸ before)
  · exact Or.inl (same ▸ next)
  · refine Or.inr ⟨same.trans equal, ?_⟩
    omega

theorem identityLE_antisymm {first second : String × Nat × Nat}
    (left : identityLE first second) (right : identityLE second first) : first = second := by
  unfold identityLE at *
  rcases left with before | ⟨same, early⟩ <;> rcases right with next | ⟨equal, late⟩
  · exact absurd (before.trans next) (lt_irrefl _)
  · exact absurd (equal ▸ before) (lt_irrefl _)
  · exact absurd (same ▸ next) (lt_irrefl _)
  · refine Prod.ext same (Prod.ext ?_ ?_) <;> omega

instance : Std.Total identityLE := ⟨identityLE_total⟩

instance : IsTrans (String × Nat × Nat) identityLE := ⟨fun _ _ _ => identityLE_trans⟩

instance : Std.Antisymm identityLE := ⟨fun _ _ => identityLE_antisymm⟩

theorem sorted_eq_iff {spans others : List (String × Nat × Nat)} (distinct : spans.Nodup)
    (unique : others.Nodup) :
    spans.insertionSort identityLE = others.insertionSort identityLE ↔
      ∀ span, span ∈ spans ↔ span ∈ others := by
  have first := List.perm_insertionSort identityLE spans
  have second := List.perm_insertionSort identityLE others
  constructor
  · intro same span
    rw [← first.mem_iff, same, second.mem_iff]
  · intro same
    have perm : spans.Perm others := (List.perm_ext_iff_of_nodup distinct unique).mpr same
    exact ((first.trans perm).trans second.symm).eq_of_pairwise'
      (List.pairwise_insertionSort identityLE spans) (List.pairwise_insertionSort identityLE others)

end Order

section Sources

def Cites (window : ObservationWindow) (role : Role) (ref : SourceRef) : Prop :=
  ∃ item, window.observation? ref.observationId = some item ∧ item.role = role ∧
    ref.endChar ≤ item.text.length ∧ blank (slice item.text ref.startChar ref.endChar) = false

theorem citesOnce_spec {textOf : String → Option String} {refs : List SourceRef}
    {identities : List (String × Nat × Nat)} (cited : citesOnce textOf identities refs = true) :
    (∀ ref ∈ refs, ∃ text, textOf ref.observationId = some text ∧ ref.endChar ≤ text.length ∧
      blank (slice text ref.startChar ref.endChar) = false) ∧
    (refs.map SourceRef.identity).Nodup ∧ ∀ ref ∈ refs, ref.identity ∉ identities := by
  induction refs generalizing identities with
  | nil => simp
  | cons ref rest ih =>
      unfold citesOnce at cited
      cases found : textOf ref.observationId with
      | none =>
          rw [found] at cited
          cases cited
      | some text =>
          simp only [found, Bool.and_eq_true, decide_eq_true_eq, Bool.not_eq_true'] at cited
          obtain ⟨⟨⟨within, spoken⟩, fresh⟩, later⟩ := cited
          obtain ⟨spans, distinct, apart⟩ := ih later
          refine ⟨?_, ?_, ?_⟩
          · exact List.forall_mem_cons.mpr ⟨⟨text, found, within, spoken⟩, spans⟩
          · rw [List.map_cons, List.nodup_cons]
            refine ⟨fun repeated => ?_, distinct⟩
            obtain ⟨other, member, same⟩ := List.mem_map.mp repeated
            exact apart other member (same ▸ List.mem_cons_self)
          · refine List.forall_mem_cons.mpr ⟨?_, fun other member known => ?_⟩
            · simpa using fresh
            · exact apart other member (List.mem_cons_of_mem _ known)

theorem textOf_some {window : ObservationWindow} {role : Role} {id text : String}
    (found : window.textOf role id = some text) :
    ∃ item, window.observation? id = some item ∧ item.role = role ∧ item.text = text := by
  unfold ObservationWindow.textOf at found
  obtain ⟨item, kept, same⟩ := Option.map_eq_some_iff.mp found
  obtain ⟨known, cast⟩ := Option.filter_eq_some_iff.mp kept
  exact ⟨item, known, by simpa using cast, same⟩

theorem citesOnce_cites {window : ObservationWindow} {role : Role} {refs : List SourceRef}
    (cited : citesOnce (window.textOf role) [] refs = true) :
    (∀ ref ∈ refs, Cites window role ref) ∧ (refs.map SourceRef.identity).Nodup := by
  obtain ⟨spans, distinct, -⟩ := citesOnce_spec cited
  refine ⟨fun ref member => ?_, distinct⟩
  obtain ⟨text, found, within, spoken⟩ := spans ref member
  obtain ⟨item, known, cast, rfl⟩ := textOf_some found
  exact ⟨item, known, cast, within, spoken⟩

theorem cited_items {window : ObservationWindow} {refs : List SourceRef}
    (known : ∀ ref ∈ refs, ∃ item, window.observation? ref.observationId = some item) :
    refs.map (window.observation? ·.observationId) =
      (refs.filterMap (window.observation? ·.observationId)).map some := by
  induction refs with
  | nil => rfl
  | cons ref rest ih =>
      obtain ⟨⟨item, found⟩, later⟩ := List.forall_mem_cons.mp known
      simp only [List.map_cons, List.filterMap_cons, found, ih later]

end Sources

section Claims

structure Envelops (interval : Interval) (items : List Observation) : Prop where
  holds : ∀ item ∈ items, interval.startMs ≤ item.startMs ∧ item.endMs ≤ interval.endMs
  starts : ∃ item ∈ items, item.startMs = interval.startMs
  ends : ∃ item ∈ items, item.endMs = interval.endMs
  timebase : ∀ item ∈ items, item.timebase = interval.timebase

theorem foldl_min_spec (times : List Nat) (first : Nat) :
    (∀ time ∈ first :: times, times.foldl min first ≤ time) ∧
      times.foldl min first ∈ first :: times := by
  induction times generalizing first with
  | nil => simp
  | cons time rest ih =>
      obtain ⟨least, member⟩ := ih (min first time)
      have bound := least (min first time) List.mem_cons_self
      rw [List.foldl_cons]
      refine ⟨?_, ?_⟩
      · intro other listed
        simp only [List.mem_cons] at listed
        rcases listed with rfl | rfl | later
        · omega
        · omega
        · exact least other (List.mem_cons_of_mem _ later)
      · rcases List.mem_cons.mp member with same | later
        · rw [same]
          rcases Nat.le_total first time with before | after
          · rw [Nat.min_eq_left before]
            exact List.mem_cons_self
          · rw [Nat.min_eq_right after]
            exact List.mem_cons_of_mem _ List.mem_cons_self
        · exact List.mem_cons_of_mem _ (List.mem_cons_of_mem _ later)

theorem foldl_max_spec (times : List Nat) (first : Nat) :
    (∀ time ∈ first :: times, time ≤ times.foldl max first) ∧
      times.foldl max first ∈ first :: times := by
  induction times generalizing first with
  | nil => simp
  | cons time rest ih =>
      obtain ⟨most, member⟩ := ih (max first time)
      have bound := most (max first time) List.mem_cons_self
      rw [List.foldl_cons]
      refine ⟨?_, ?_⟩
      · intro other listed
        simp only [List.mem_cons] at listed
        rcases listed with rfl | rfl | later
        · omega
        · omega
        · exact most other (List.mem_cons_of_mem _ later)
      · rcases List.mem_cons.mp member with same | later
        · rw [same]
          rcases Nat.le_total first time with before | after
          · rw [Nat.max_eq_right before]
            exact List.mem_cons_of_mem _ List.mem_cons_self
          · rw [Nat.max_eq_left after]
            exact List.mem_cons_self
        · exact List.mem_cons_of_mem _ (List.mem_cons_of_mem _ later)

theorem envelope_envelops {first : Observation} {rest : List Observation}
    (one : ∀ item ∈ first :: rest, item.timebase = first.timebase) :
    Envelops (envelope first rest) (first :: rest) := by
  obtain ⟨least, earliest⟩ := foldl_min_spec (rest.map (·.startMs)) first.startMs
  obtain ⟨most, latest⟩ := foldl_max_spec (rest.map (·.endMs)) first.endMs
  rw [← List.map_cons (f := Observation.startMs)] at least earliest
  rw [← List.map_cons (f := Observation.endMs)] at most latest
  exact ⟨fun item member => ⟨least _ (List.mem_map_of_mem member), most _ (List.mem_map_of_mem member)⟩,
    List.mem_map.mp earliest, List.mem_map.mp latest, one⟩

variable {identify : Uuid → List (String × Nat × Nat) → String}

def provenance (refs : List SourceRef) : List (String × Nat × Nat) :=
  (refs.map SourceRef.identity).insertionSort identityLE

/-- A claim and the occurrence it was grounded from. -/
structure Grounded (identify : Uuid → List (String × Nat × Nat) → String)
    (window : ObservationWindow) (investigationId : Uuid) (occurrence : Occurrence)
    (claim : Claim) : Prop where
  sources : ∀ ref ∈ occurrence.sourceRefs, Cites window .target ref
  once : (occurrence.sourceRefs.map SourceRef.identity).Nodup
  contexts : ∀ ref ∈ (occurrence.withoutTargets window).contextRefs, Cites window .context ref
  contextOnce : ((occurrence.withoutTargets window).contextRefs.map SourceRef.identity).Nodup
  interpretation : claim.interpretation = some (occurrence.withoutTargets window).toInterpretation
  proposition : claim.proposition = occurrence.proposition
  cited : ∃ items, occurrence.sourceRefs.map (window.observation? ·.observationId) =
      items.map some ∧
    (∀ item ∈ items, ∀ other ∈ items, item.speakerId = other.speakerId) ∧
    claim.originalText = String.intercalate "\n" (List.zipWith
      (fun ref item => String.ofList (slice item.text ref.startChar ref.endChar))
      occurrence.sourceRefs items) ∧
    Envelops claim.interval items
  named : claim.id = identify investigationId (provenance occurrence.sourceRefs) ∧
    claim.occurrenceId = claim.id

theorem observation?_mem {window : ObservationWindow} {id : String} {item : Observation}
    (found : window.observation? id = some item) : item ∈ window.observations :=
  List.mem_of_find?_eq_some found

theorem filterMap_zipWith {α β γ : Type} {items : List α} {found : α → Option β}
    {others : List β} (all : items.map found = others.map some) (combine : α → β → γ) :
    (items.filterMap fun item => (found item).map (combine item)) =
      List.zipWith combine items others := by
  induction items generalizing others with
  | nil => rfl
  | cons item rest ih =>
      cases others with
      | nil => cases all
      | cons other others =>
          rw [List.map_cons, List.map_cons, List.cons.injEq] at all
          simp only [List.filterMap_cons, all.1, Option.map_some, List.zipWith_cons_cons,
            ih all.2]

theorem groundOccurrence_grounded {window : ObservationWindow} {investigationId : Uuid}
    {index : Nat} {occurrence : Occurrence} {claim : Claim}
    (grounded : groundOccurrence identify window investigationId index occurrence = .ok claim) :
    Grounded identify window investigationId occurrence claim := by
  have kept : (occurrence.withoutTargets window).sourceRefs = occurrence.sourceRefs := rfl
  simp only [groundOccurrence] at grounded
  split at grounded
  · cases grounded
  · rename_i targets
    split at grounded
    · cases grounded
    · rename_i contexts
      rw [Bool.not_eq_true', Bool.not_eq_false] at targets contexts
      obtain ⟨sources, once⟩ := citesOnce_cites targets
      obtain ⟨clarified, contextOnce⟩ := citesOnce_cites contexts
      have all := cited_items fun ref member => by
        obtain ⟨item, found, -⟩ := sources ref member
        exact ⟨item, found⟩
      split at grounded
      · cases grounded
      · rename_i first rest items
        split at grounded
        · cases grounded
        · rename_i speakers
          split at grounded
          · cases grounded
          · cases grounded
            rw [items] at all
            rw [Bool.not_eq_true', Bool.not_eq_false, List.all_eq_true] at speakers
            have same : ∀ item ∈ first :: rest, item.speakerId = first.speakerId :=
              List.forall_mem_cons.mpr ⟨rfl, fun item member => by
                simpa using speakers item member⟩
            have known : ∀ item ∈ first :: rest, item ∈ window.observations := by
              intro item member
              have listed : some item ∈ (first :: rest).map some := List.mem_map_of_mem member
              rw [← all] at listed
              obtain ⟨ref, -, found⟩ := List.mem_map.mp listed
              exact observation?_mem found
            refine ⟨sources, once, clarified, contextOnce, rfl, rfl,
              ⟨first :: rest, all, ?_, ?_, ?_⟩, rfl, rfl⟩
            · exact fun item member other listed => (same item member).trans (same other listed).symm
            · exact congrArg (String.intercalate "\n") (filterMap_zipWith all
                fun ref item => String.ofList (slice item.text ref.startChar ref.endChar))
            · exact envelope_envelops fun item member =>
                window.oneTimebase item (known item member) first
                  (known first List.mem_cons_self)

theorem groundFrom_grounded {window : ObservationWindow} {investigationId : Uuid}
    {occurrences : List Occurrence} {index : Nat} {seen : List String} {claims : List Claim}
    (grounded : groundFrom identify window investigationId index seen occurrences = .ok claims) :
    List.Forall₂ (Grounded identify window investigationId) occurrences claims := by
  induction occurrences generalizing index seen claims with
  | nil =>
      cases grounded
      exact .nil
  | cons occurrence rest ih =>
      simp only [groundFrom] at grounded
      cases first : groundOccurrence identify window investigationId index occurrence with
      | error invalid => simp [first, bind, Except.bind] at grounded
      | ok claim =>
          simp only [first, bind, Except.bind] at grounded
          split at grounded
          · cases grounded
          · cases later : groundFrom identify window investigationId (index + 1)
                (claim.id :: seen) rest with
            | error invalid => simp [later] at grounded
            | ok tail =>
                simp only [later, pure, Except.pure, Except.ok.injEq] at grounded
                subst grounded
                exact .cons (groundOccurrence_grounded first) (ih later)

/-- Every accepted claim is grounded, and an appearance has one identifier in every window. -/
theorem groundedClaims_grounded
    (injective : ∀ investigationId, Function.Injective (identify investigationId))
    {extraction : List Occurrence} {window : ObservationWindow} {investigationId : Uuid}
    {claims : List Claim}
    (grounded : groundedClaims identify extraction window investigationId = .ok claims) :
    List.Forall₂ (Grounded identify window investigationId) extraction claims ∧
      (claims.map (·.id)).Nodup ∧
      ∀ (other : ObservationWindow) (occurrences : List Occurrence) (next : List Claim),
        groundedClaims identify occurrences other investigationId = .ok next →
        ∀ pair ∈ extraction.zip claims, ∀ twin ∈ occurrences.zip next,
          pair.2.id = twin.2.id ↔ ∀ span, span ∈ pair.1.sourceRefs.map SourceRef.identity ↔
            span ∈ twin.1.sourceRefs.map SourceRef.identity := by
  have each : ∀ {window : ObservationWindow} {occurrences : List Occurrence} {claims : List Claim},
      groundedClaims identify occurrences window investigationId = .ok claims →
        List.Forall₂ (Grounded identify window investigationId) occurrences claims := by
    intro window occurrences claims grounded
    unfold groundedClaims at grounded
    split at grounded
    · cases grounded
    · exact groundFrom_grounded grounded
  refine ⟨each grounded, (groundedClaims_fresh grounded).2, ?_⟩
  intro other occurrences next others pair member twin listed
  have first := (List.forall₂_iff_zip.mp (each grounded)).2 member
  have second := (List.forall₂_iff_zip.mp (each others)).2 listed
  rw [first.named.1, second.named.1, (injective investigationId).eq_iff]
  exact sorted_eq_iff first.once second.once

def spokenObservation : Observation where
  id := "spoken"
  role := .target
  text := "one two"
  modality := .speech
  timebase := .capture
  startMs := 0
  endMs := 900
  speakerId := none
  ordered := Nat.zero_lt_succ _
  spoken := rfl
  short := Nat.le_of_ble_eq_true rfl

def spokenInterpretation (start stop : Nat) (ordered : start < stop) : Interpretation where
  taxonomy := .empirical
  sourceRefs := [⟨"spoken", start, stop, ordered⟩]
  contextRefs := []
  assertionMode := .asserted
  speakerCommitment := .endorsed
  attributedTo := none
  eligibilityReason := .factualClaim
  uncertaintyFlags := []
  cited := List.cons_ne_nil _ _
  consistent :=
    { judgment := fun judged => by cases judged
      scenario := fun invented => by rcases invented with asked | supposed <;> contradiction
      quoted := fun reported => by cases reported
      flags := List.nodup_nil }

def spokenWindow : ObservationWindow where
  windowId := "window"
  hostedProcessingApproved := true
  observations := [spokenObservation]
  unique := List.nodup_singleton _
  oneTimebase := by
    intro first member second listed
    rw [List.mem_singleton.mp member, List.mem_singleton.mp listed]
  targeted := ⟨spokenObservation, List.mem_singleton_self _, rfl⟩
  bounded := Nat.le_of_ble_eq_true rfl

/-- Spans spelt out one after the other, every part behind its length. -/
def spell : List (String × Nat × Nat) → List Char
  | [] => []
  | span :: rest =>
      List.replicate span.1.toList.length 'x' ++ '_' :: (span.1.toList ++
        (List.replicate span.2.1 'x' ++ '_' :: (List.replicate span.2.2 'x' ++ '_' :: spell rest)))

def spelt (_investigationId : Uuid) (spans : List (String × Nat × Nat)) : String :=
  String.ofList (spell spans)

theorem unary_inj {first second : Nat} {left right : List Char}
    (same : List.replicate first 'x' ++ '_' :: left = List.replicate second 'x' ++ '_' :: right) :
    first = second ∧ left = right := by
  have counts := congrArg (fun text => (text.takeWhile (· == 'x')).length) same
  simp only [List.takeWhile_append, List.takeWhile_replicate] at counts
  have equal : first = second := by simpa using counts
  subst equal
  have tails := List.append_cancel_left same
  exact ⟨rfl, (List.cons.inj tails).2⟩

theorem spell_injective : Function.Injective spell := by
  intro spans
  induction spans with
  | nil =>
      intro others same
      cases others with
      | nil => rfl
      | cons other rest => simp [spell] at same
  | cons span rest ih =>
      intro others same
      cases others with
      | nil => simp [spell] at same
      | cons other later =>
          obtain ⟨lengths, parts⟩ := unary_inj same
          obtain ⟨ids, offsets⟩ := List.append_inj parts lengths
          obtain ⟨starts, ends⟩ := unary_inj offsets
          obtain ⟨stops, tails⟩ := unary_inj ends
          rw [ih tails]
          congr 1
          exact Prod.ext (String.toList_inj.mp ids) (Prod.ext starts stops)

theorem spelt_injective (investigationId : Uuid) : Function.Injective (spelt investigationId) :=
  fun _ _ same => spell_injective (String.ofList_injective same)

def spokenOccurrence : Occurrence :=
  { spokenInterpretation 0 3 (Nat.zero_lt_succ _) with proposition := "one" }

def spokenOnce : Claim where
  id := spelt "investigation" [("spoken", 0, 3)]
  occurrenceId := spelt "investigation" [("spoken", 0, 3)]
  interval := envelope spokenObservation []
  modality := .speech
  originalText := "one"
  proposition := "one"
  correction := none
  interpretation := some (spokenInterpretation 0 3 (Nat.zero_lt_succ _))

def nextObservation : Observation where
  id := "later"
  role := .target
  text := "three"
  modality := .speech
  timebase := .capture
  startMs := 900
  endMs := 1800
  speakerId := none
  ordered := Nat.le_of_ble_eq_true rfl
  spoken := rfl
  short := Nat.le_of_ble_eq_true rfl

def nextWindow : ObservationWindow where
  windowId := "next"
  hostedProcessingApproved := true
  observations := [spokenObservation, nextObservation]
  unique := by decide
  oneTimebase := by decide
  targeted := ⟨spokenObservation, List.mem_cons_self, rfl⟩
  bounded := Nat.le_of_ble_eq_true rfl

def nextOccurrence : Occurrence :=
  { spokenInterpretation 4 7 (by decide) with proposition := "two" }

def spokenNext : Claim where
  id := spelt "investigation" [("spoken", 4, 7)]
  occurrenceId := spelt "investigation" [("spoken", 4, 7)]
  interval := envelope spokenObservation []
  modality := .speech
  originalText := "two"
  proposition := "two"
  correction := none
  interpretation := some (spokenInterpretation 4 7 (by decide))

/-- An appearance that two windows hold has one identifier, and no other appearance has it. -/
theorem groundedClaims_grounded_spoken :
    groundedClaims spelt [spokenOccurrence] spokenWindow "investigation" = .ok [spokenOnce] ∧
      List.Forall₂ (Grounded spelt nextWindow "investigation") [nextOccurrence, spokenOccurrence]
        [spokenNext, spokenOnce] ∧
      spokenOnce.id ≠ spokenNext.id := by
  have first : groundedClaims spelt [spokenOccurrence] spokenWindow "investigation" =
      .ok [spokenOnce] := by decide +kernel
  have second : groundedClaims spelt [nextOccurrence, spokenOccurrence] nextWindow
      "investigation" = .ok [spokenNext, spokenOnce] := by decide +kernel
  refine ⟨first, (@groundedClaims_grounded spelt spelt_injective _ nextWindow _ _ second).1, ?_⟩
  intro same
  have spans := ((@groundedClaims_grounded spelt spelt_injective _ spokenWindow _ _ first).2.2
    nextWindow _ _ second (spokenOccurrence, spokenOnce) (by simp)
    (nextOccurrence, spokenNext) (by simp)).mp same ("spoken", 0, 3)
  exact absurd (spans.mp (by decide)) (by decide)

end Claims

end Ovrly.Extraction
