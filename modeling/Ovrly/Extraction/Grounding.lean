import Ovrly.Reports.Model
import Mathlib

/-!
Observation windows and the claims grounded in them (`pipeline/extraction.py`).

`uuid5` over the JSON of the sorted source references names a claim; it is a parameter here,
from an investigation and the references to an identifier.
-/

namespace Ovrly.Extraction

open Ovrly.Reports

inductive Role
  | target
  | context
  deriving DecidableEq, Repr

def Role.text : Role → String
  | .target => "target"
  | .context => "context"

/-- The characters `str.strip` removes. -/
def isSpace (character : Char) : Bool :=
  character.toNat ∈ [0x09, 0x0a, 0x0b, 0x0c, 0x0d, 0x1c, 0x1d, 0x1e, 0x1f, 0x20, 0x85, 0xa0,
    0x1680, 0x2000, 0x2001, 0x2002, 0x2003, 0x2004, 0x2005, 0x2006, 0x2007, 0x2008, 0x2009,
    0x200a, 0x2028, 0x2029, 0x202f, 0x205f, 0x3000]

def blank (text : List Char) : Bool := text.all isSpace

def slice (text : String) (start stop : Nat) : List Char :=
  (text.toList.drop start).take (stop - start)

structure Observation where
  id : String
  role : Role
  text : String
  modality : Modality
  timebase : Timebase
  startMs : Nat
  endMs : Nat
  speakerId : Option String
  ordered : startMs < endMs
  spoken : blank text.toList = false
  short : text.length ≤ 8000

instance : DecidableEq Observation := fun first second =>
  decidable_of_iff
    (first.id = second.id ∧ first.role = second.role ∧ first.text = second.text ∧
      first.modality = second.modality ∧ first.timebase = second.timebase ∧
      first.startMs = second.startMs ∧ first.endMs = second.endMs ∧
      first.speakerId = second.speakerId) (by
    cases first
    cases second
    simp)

structure ObservationWindow where
  windowId : String
  hostedProcessingApproved : Bool
  groqProcessingApproved : Bool := false
  observations : List Observation
  unique : (observations.map (·.id)).Nodup
  oneTimebase : ∀ first ∈ observations, ∀ second ∈ observations, first.timebase = second.timebase
  targeted : ∃ item ∈ observations, item.role = .target
  bounded : (observations.map (·.text.length)).sum ≤ 24000

def ObservationWindow.observation? (window : ObservationWindow) (id : String) :
    Option Observation :=
  window.observations.find? (·.id == id)

structure Occurrence extends Interpretation where
  proposition : String
  deriving DecidableEq

structure ExtractionInvalid where
  message : String
  repairReason : Option String := none
  deriving DecidableEq, Repr

/-- Every reference cites a non-blank span of a known text, and no span twice. -/
def citesOnce (textOf : String → Option String) (identities : List (String × Nat × Nat)) :
    List SourceRef → Bool
  | [] => true
  | ref :: rest =>
      match textOf ref.observationId with
      | none => false
      | some text =>
          ref.endChar ≤ text.length && !blank (slice text ref.startChar ref.endChar) &&
            !identities.contains ref.identity && citesOnce textOf (ref.identity :: identities) rest

def ObservationWindow.textOf (window : ObservationWindow) (role : Role) (id : String) :
    Option String :=
  ((window.observation? id).filter (·.role == role)).map (·.text)

/-- `(observation_id, start_char, end_char)` in tuple order. -/
def identityLE (first second : String × Nat × Nat) : Prop :=
  first.1 < second.1 ∨
    (first.1 = second.1 ∧
      (first.2.1 < second.2.1 ∨ (first.2.1 = second.2.1 ∧ first.2.2 ≤ second.2.2)))

instance : DecidableRel identityLE := fun _ _ => inferInstanceAs (Decidable (_ ∨ _))

section Envelope

private theorem le_foldl_max (endings : List Nat) (first : Nat) :
    first ≤ endings.foldl max first := by
  induction endings generalizing first with
  | nil => exact Nat.le_refl _
  | cons ending rest ih => exact Nat.le_trans (Nat.le_max_left _ _) (ih _)

def envelope (first : Observation) (rest : List Observation) : Interval where
  startMs := (rest.map (·.startMs)).foldl min first.startMs
  endMs := (rest.map (·.endMs)).foldl max first.endMs
  timebase := first.timebase
  positive := by
    have ordered := first.ordered
    have grows := le_foldl_max (rest.map (·.endMs)) first.endMs
    omega

end Envelope

def combinedModality (first : Observation) (rest : List Observation) : Modality :=
  if rest.all (·.modality == first.modality) then first.modality else .both

/-- A target cited as clarifying context is already analysed as a target. -/
def Occurrence.withoutTargets (window : ObservationWindow) (occurrence : Occurrence) :
    Occurrence :=
  { occurrence with
    contextRefs := occurrence.contextRefs.filter fun ref =>
      match window.observation? ref.observationId with
      | none => true
      | some item => item.role == .context }

variable (identify : Uuid → List (String × Nat × Nat) → String)

/-- One iteration of the loop of `grounded_claims`, up to the identifier. -/
def groundOccurrence (window : ObservationWindow) (investigationId : Uuid) (index : Nat)
    (occurrence : Occurrence) : Except ExtractionInvalid Claim :=
  let occurrence := occurrence.withoutTargets window
  let cite (role : Role) (field : String) : Except ExtractionInvalid Claim :=
    .error ⟨"Invalid source reference",
      some ("occurrences." ++ toString index ++ "." ++ field ++ ": cite " ++ role.text ++
        " observations once")⟩
  if !citesOnce (window.textOf .target) [] occurrence.sourceRefs then cite .target "source_refs"
  else if !citesOnce (window.textOf .context) [] occurrence.contextRefs then
    cite .context "context_refs"
  else
    let speakers : Except ExtractionInvalid Claim :=
      .error ⟨"An occurrence cannot silently combine different speakers",
        some ("occurrences." ++ toString index ++ ".source_refs: use one speaker")⟩
    match occurrence.sourceRefs.filterMap (window.observation? ·.observationId) with
    | [] => speakers
    | first :: rest =>
        if !rest.all (·.speakerId == first.speakerId) then speakers
        else
          let original := String.intercalate "\n" (occurrence.sourceRefs.filterMap fun ref =>
            (window.observation? ref.observationId).map fun item =>
              String.ofList (slice item.text ref.startChar ref.endChar))
          if original.length > 2000 ∨ occurrence.proposition.length > 2000 then
            .error ⟨"Occurrence exceeds the public claim text limit", none⟩
          else
            let identifier := identify investigationId
              ((occurrence.sourceRefs.map SourceRef.identity).insertionSort identityLE)
            .ok {
              id := identifier
              occurrenceId := identifier
              interval := envelope first rest
              modality := combinedModality first rest
              originalText := original
              proposition := occurrence.proposition
              correction := none
              interpretation := some occurrence.toInterpretation }

def groundFrom (window : ObservationWindow) (investigationId : Uuid) (index : Nat)
    (seen : List String) : List Occurrence → Except ExtractionInvalid (List Claim)
  | [] => .ok []
  | occurrence :: rest => do
      let claim ← groundOccurrence identify window investigationId index occurrence
      if seen.contains claim.id then
        .error ⟨"Duplicate occurrence",
          some ("occurrences." ++ toString index ++ ": duplicate source span")⟩
      else
        let claims ← groundFrom window investigationId (index + 1) (claim.id :: seen) rest
        return claim :: claims

def groundedClaims (extraction : List Occurrence) (window : ObservationWindow)
    (investigationId : Uuid) : Except ExtractionInvalid (List Claim) :=
  if extraction.length > 64 then .error ⟨"Too many occurrences", none⟩
  else groundFrom identify window investigationId 0 [] extraction

structure Fresh (claim : Claim) : Prop where
  named : claim.occurrenceId = claim.id
  correction : claim.correction = none
  corrects : claim.correctsOccurrenceId = none
  superseded : claim.supersededByOccurrenceId = none

variable {identify}

theorem groundOccurrence_fresh {window : ObservationWindow} {investigationId : Uuid} {index : Nat}
    {occurrence : Occurrence} {claim : Claim}
    (grounded : groundOccurrence identify window investigationId index occurrence = .ok claim) :
    Fresh claim := by
  simp only [groundOccurrence] at grounded
  split at grounded
  · simp at grounded
  · split at grounded
    · simp at grounded
    · split at grounded
      · simp at grounded
      · split at grounded
        · simp at grounded
        · split at grounded
          · simp at grounded
          · rw [Except.ok.injEq] at grounded
            subst grounded
            exact ⟨rfl, rfl, rfl, rfl⟩

theorem groundFrom_fresh {window : ObservationWindow} {investigationId : Uuid}
    {occurrences : List Occurrence} {index : Nat} {seen : List String} {claims : List Claim}
    (grounded : groundFrom identify window investigationId index seen occurrences = .ok claims) :
    (∀ claim ∈ claims, Fresh claim) ∧ (claims.map (·.id)).Nodup ∧
      ∀ claim ∈ claims, claim.id ∉ seen := by
  induction occurrences generalizing index seen claims with
  | nil =>
      simp only [groundFrom, Except.ok.injEq] at grounded
      subst grounded
      simp
  | cons occurrence rest ih =>
      simp only [groundFrom] at grounded
      cases first : groundOccurrence identify window investigationId index occurrence with
      | error invalid => simp [first, bind, Except.bind] at grounded
      | ok claim =>
          simp only [first, bind, Except.bind] at grounded
          split at grounded
          · simp at grounded
          · rename_i unseen
            have unseen : claim.id ∉ seen := by simpa using unseen
            cases later : groundFrom identify window investigationId (index + 1)
                (claim.id :: seen) rest with
            | error invalid => simp [later] at grounded
            | ok tail =>
                simp only [later, pure, Except.pure, Except.ok.injEq] at grounded
                subst grounded
                obtain ⟨fresh, distinct, apart⟩ := ih later
                refine ⟨?_, ?_, ?_⟩
                · intro other member
                  rcases List.mem_cons.mp member with rfl | member
                  · exact groundOccurrence_fresh first
                  · exact fresh other member
                · rw [List.map_cons, List.nodup_cons]
                  refine ⟨?_, distinct⟩
                  intro repeated
                  obtain ⟨other, member, same⟩ := List.mem_map.mp repeated
                  exact apart other member (same ▸ List.mem_cons_self)
                · intro other member
                  rcases List.mem_cons.mp member with rfl | member
                  · exact unseen
                  · exact fun known => apart other member (List.mem_cons_of_mem _ known)

theorem groundedClaims_fresh {extraction : List Occurrence} {window : ObservationWindow}
    {investigationId : Uuid} {claims : List Claim}
    (grounded : groundedClaims identify extraction window investigationId = .ok claims) :
    (∀ claim ∈ claims, Fresh claim) ∧ (claims.map (·.id)).Nodup := by
  simp only [groundedClaims] at grounded
  split at grounded
  · simp at grounded
  · have spec := groundFrom_fresh grounded
    exact ⟨spec.1, spec.2.1⟩

end Ovrly.Extraction
