import Ovrly.Extraction.Stage
import Ovrly.Pipeline.Rules
import Mathlib.Tactic.SplitIfs

/-!
The laws of what the extraction stage sends, and the record that accounts for it.

The laws are about traces, newest entry first. The record saved last covers the trace: it
counts every completion sent, up to one that is in flight, and what is left of the allowance
for completions pays for each attempt it gains.
-/

namespace Ovrly.Extraction

open Crash Ovrly.Reports Ovrly.Pipeline

abbrev Ledger := Trace (Signature (List Claim))

def record (trace : Ledger) : StageData (List Claim) := durable (S := Signature (List Claim)) {} trace

section Laws

def isCompletion : Entry (Signature (List Claim)) → Bool
  | .emitted (.sent _ (.completion ..)) => true
  | _ => false

def isDecision : Entry (Signature (List Claim)) → Bool
  | .emitted (.sent _ .decision) => true
  | _ => false

def contact? : Entry (Signature (List Claim)) → Option Provider
  | .emitted (.called provider _) | .emitted (.sent provider _) => some provider
  | _ => none

def completions (trace : Ledger) : Nat := trace.countP isCompletion

def Entered (trace : Ledger) : Prop := ∃ entry ∈ trace, contact? entry = some .groq

def Settles (data : StageData (List Claim)) (earlier : Ledger) : Prop :=
  data.inFlight = false ∧ completions earlier ≤ data.attempts.length ∧
    (earlier.any isDecision → data.fallbacks.isSome)

/-- Every routing and completion request sent has its outcome saved. -/
def Settled : Ledger → Prop
  | [] => True
  | .saved data :: earlier => Settles data earlier ∨ Settled earlier
  | .emitted (.sent _ request) :: earlier => request.operation = .feedback ∧ Settled earlier
  | .emitted _ :: earlier => Settled earlier

/-- A routing or completion request is sent only once every earlier one is settled. -/
def Exclusive : Ledger → Prop
  | [] => True
  | .emitted (.sent _ request) :: earlier =>
      (request.operation ≠ .feedback → Settled earlier) ∧ Exclusive earlier
  | _ :: earlier => Exclusive earlier

/-- Groq is entered only with approval and before any invalid attempt, is called after one
only to repair its own output, and is never left. -/
def GroqLaw (window : ObservationWindow) : Ledger → Prop
  | [] => True
  | entry :: earlier =>
      (contact? entry = some .groq → window.groqProcessingApproved = true ∧
        (¬Entered earlier → (record earlier).invalidAttempts = 0) ∧
        ∀ attempt ∈ (record earlier).attempts,
          attempt.valid = some false → attempt.provider = .groq) ∧
      (contact? entry = some .scholarxiv → ¬Entered earlier) ∧ GroqLaw window earlier

/-- For each feedback request the number of the attempt that was last when it was sent. -/
def feedbackAttempts : Ledger → List Nat
  | [] => []
  | .emitted (.sent _ (.feedback _)) :: earlier =>
      (record earlier).attempts.length :: feedbackAttempts earlier
  | _ :: earlier => feedbackAttempts earlier

def Addressed : Ledger → Prop
  | [] => True
  | .emitted (.sent _ (.feedback decisionId)) :: earlier =>
      (∃ attempt, (record earlier).attempts.getLast? = some attempt ∧
        attempt.decisionId = some decisionId ∧ attempt.valid = some false) ∧ Addressed earlier
  | _ :: earlier => Addressed earlier

/-- The larger of the adapters' `recovery_attempts`. -/
def ExtractionStage.recoveryAttempts (stage : ExtractionStage) : Nat :=
  match stage.groq with
  | none => stage.llm.recoveryAttempts
  | some groq => max stage.llm.recoveryAttempts groq.recoveryAttempts

end Laws

section Covering

variable (stage : ExtractionStage) (window : ObservationWindow)

def ExtractionStage.groqRecovery : Nat :=
  match stage.groq with
  | none => 0
  | some groq => groq.recoveryAttempts

def ExtractionStage.recovery (provider : Option Provider) : Nat :=
  if provider = some .groq then stage.groqRecovery else stage.llm.recoveryAttempts

/-- How many more attempts the record can gain. -/
def ExtractionStage.allowance (data : StageData (List Claim)) : Nat :=
  (if data.artifact.isSome then 0 else 2 - data.invalidAttempts) +
    (stage.recovery data.provider + 1 - data.availabilityFailures) +
    (if data.provider = some .groq then 0 else stage.groqRecovery + 1)

/-- The record accounts for everything the trace has sent. -/
structure Covers (trace : Ledger) (data : StageData (List Claim)) : Prop where
  sent : completions trace ≤ data.attempts.length + (if data.inFlight then 1 else 0)
  routed : data.inFlight = false → trace.any isDecision → data.fallbacks.isSome
  within : data.attempts.length + stage.allowance data ≤
    2 + (stage.llm.recoveryAttempts + 1) + (stage.groqRecovery + 1)
  invalid : data.invalidAttempts ≤ 2
  flying : data.inFlight = true → data.artifact = none ∧ data.invalidAttempts ≤ 1
  entered : Entered trace → data.provider = some .groq
  own : ∀ attempt ∈ data.attempts, attempt.provider = .groq → Entered trace
  repairs : data.provider = some .groq →
    ∀ attempt ∈ data.attempts, attempt.valid = some false → attempt.provider = .groq
  feedback : ∀ number ∈ feedbackAttempts trace, number ≤ data.attempts.length
  routing : data.needsRoute = true → data.provider ≠ some .groq

structure Sound (trace : Ledger) : Prop where
  covers : Covers stage trace (record trace)
  settled : (record trace).inFlight = false → Settled trace
  exclusive : Exclusive trace
  groq : GroqLaw window trace
  once : (feedbackAttempts trace).Nodup
  addressed : Addressed trace
  saves : ∀ data, .saved data ∈ trace → data.invalidAttempts ≤ 2

end Covering

section Steps

variable {stage : ExtractionStage} {window : ObservationWindow} {trace : Ledger}

theorem Sound.fresh : Sound stage window [] where
  covers := {
    sent := Nat.zero_le _
    routed := fun _ sent => by simp at sent
    within := by
      simp only [record, durable_nil, ExtractionStage.allowance, ExtractionStage.recovery]
      simp [StageData.invalidAttempts]
    invalid := Nat.zero_le _
    flying := fun flies => by simp [record] at flies
    entered := fun ⟨_, member, _⟩ => by simp at member
    own := fun _ member => by simp [record] at member
    repairs := fun selected => by simp [record] at selected
    feedback := fun _ member => by simp [feedbackAttempts] at member
    routing := fun needed => by simp [record] at needed }
  settled := fun _ => trivial
  exclusive := trivial
  groq := trivial
  once := List.nodup_nil
  addressed := trivial
  saves := fun _ member => by simp at member

@[simp] theorem record_saved (data : StageData (List Claim)) :
    record (.saved data :: trace) = data := rfl

@[simp] theorem record_emitted (event : Event) :
    record (.emitted event :: trace) = record trace := rfl

@[simp] theorem completions_saved (data : StageData (List Claim)) :
    completions (.saved data :: trace) = completions trace := rfl

@[simp] theorem feedbackAttempts_saved (data : StageData (List Claim)) :
    feedbackAttempts (.saved data :: trace) = feedbackAttempts trace := rfl

theorem entered_saved {data : StageData (List Claim)} :
    Entered (.saved data :: trace) ↔ Entered trace := by
  simp [Entered, contact?]

theorem Sound.saved (sound : Sound stage window trace) {data : StageData (List Claim)}
    (covers : Covers stage trace data) : Sound stage window (.saved data :: trace) where
  covers := {
    sent := covers.sent
    routed := fun idle decided => covers.routed idle (by simpa [isDecision] using decided)
    within := covers.within
    invalid := covers.invalid
    flying := covers.flying
    entered := fun entered => covers.entered (entered_saved.mp entered)
    own := fun attempt member groq => entered_saved.mpr (covers.own attempt member groq)
    repairs := covers.repairs
    feedback := covers.feedback
    routing := covers.routing }
  settled := fun idle => by
    have idle : data.inFlight = false := idle
    refine .inl ⟨idle, ?_, covers.routed idle⟩
    simpa [idle] using covers.sent
  exclusive := sound.exclusive
  groq := ⟨by simp [contact?], by simp [contact?], sound.groq⟩
  once := sound.once
  addressed := sound.addressed
  saves := fun known member => by
    rcases List.mem_cons.mp member with equal | member
    · cases equal
      exact covers.invalid
    · exact sound.saves known member

theorem entered_emitted {event : Event} :
    Entered (.emitted event :: trace) ↔
      contact? (.emitted event) = some .groq ∨ Entered trace := by
  simp [Entered]

theorem Covers.emitted {data : StageData (List Claim)} (covers : Covers stage trace data)
    {event : Event} (completes : isCompletion (.emitted event) = false)
    (decides : isDecision (.emitted event) = false)
    (entered : contact? (.emitted event) = some .groq → data.provider = some .groq)
    (feedback : ∀ number ∈ feedbackAttempts (.emitted event :: trace),
      number ≤ data.attempts.length) :
    Covers stage (.emitted event :: trace) data where
  sent := by
    have same : completions (.emitted event :: trace) = completions trace := by
      simp [completions, completes]
    rw [same]
    exact covers.sent
  routed := fun idle decided => covers.routed idle (by simpa [decides] using decided)
  within := covers.within
  invalid := covers.invalid
  flying := covers.flying
  entered := fun later => (entered_emitted.mp later).elim entered covers.entered
  own := fun attempt member groq => entered_emitted.mpr (.inr (covers.own attempt member groq))
  repairs := covers.repairs
  feedback := feedback
  routing := covers.routing

theorem Sound.saves_emitted (sound : Sound stage window trace) {event : Event}
    (data : StageData (List Claim)) (member : .saved data ∈ .emitted event :: trace) :
    data.invalidAttempts ≤ 2 := by
  rcases List.mem_cons.mp member with equal | member
  · cases equal
  · exact sound.saves data member

theorem Sound.quiet (sound : Sound stage window trace) {event : Event}
    (silent : contact? (.emitted event) = none) : Sound stage window (.emitted event :: trace) := by
  have covers := sound.covers
  cases event with
  | called provider operation => simp [contact?] at silent
  | sent provider request => simp [contact?] at silent
  | _ =>
      exact {
        covers := covers.emitted rfl rfl (by simp [contact?]) covers.feedback
        settled := sound.settled
        exclusive := sound.exclusive
        groq := ⟨by simp [contact?], by simp [contact?], sound.groq⟩
        once := sound.once
        addressed := sound.addressed
        saves := sound.saves_emitted }

/-- The conditions under which an adapter may be used: the record has selected it, and Groq
also needs the window's approval. -/
structure Selected (stage : ExtractionStage) (window : ObservationWindow)
    (data : StageData (List Claim)) (active : Adapter) : Prop where
  provider : (active.provider = .groq ↔ data.provider = some .groq)
  approved : active.provider = .groq → window.groqProcessingApproved = true
  recovery : active.recoveryAttempts = stage.recovery data.provider

theorem Sound.contacts (sound : Sound stage window trace) {active : Adapter}
    (selected : Selected stage window (record trace) active)
    {entry : Entry (Signature (List Claim))} (through : contact? entry = some active.provider) :
    (contact? entry = some .groq → window.groqProcessingApproved = true ∧
      (¬Entered trace → (record trace).invalidAttempts = 0) ∧
      ∀ attempt ∈ (record trace).attempts,
        attempt.valid = some false → attempt.provider = .groq) ∧
    (contact? entry = some .scholarxiv → ¬Entered trace) := by
  rw [through]
  constructor
  · intro groq
    have groq : active.provider = .groq := Option.some.inj groq
    have own := sound.covers.repairs (selected.provider.mp groq)
    refine ⟨selected.approved groq, ?_, own⟩
    intro outside
    refine List.countP_eq_zero.mpr ?_
    intro attempt member invalid
    have invalid : attempt.valid = some false := by simpa using invalid
    exact outside (sound.covers.own attempt member (own attempt member invalid))
  · intro scholarxiv entered
    have groq := selected.provider.mpr (sound.covers.entered entered)
    rw [groq] at scholarxiv
    cases scholarxiv

theorem Sound.called (sound : Sound stage window trace) {active : Adapter}
    (selected : Selected stage window (record trace) active) (operation : Operation) :
    Sound stage window (.emitted (.called active.provider operation) :: trace) where
  covers := sound.covers.emitted rfl rfl
    (fun through => selected.provider.mp (Option.some.inj through)) sound.covers.feedback
  settled := sound.settled
  exclusive := sound.exclusive
  groq := ⟨(sound.contacts selected rfl).1, (sound.contacts selected rfl).2, sound.groq⟩
  once := sound.once
  addressed := sound.addressed
  saves := sound.saves_emitted

/-- A routing or completion request, once the record marks it as in flight. -/
theorem Sound.sent (sound : Sound stage window trace) {active : Adapter}
    (selected : Selected stage window (record trace) active) {request : Request}
    (operation : request.operation ≠ .feedback) (flies : (record trace).inFlight = true)
    (settled : Settled trace)
    (counted : completions trace ≤ (record trace).attempts.length) :
    Sound stage window (.emitted (.sent active.provider request) :: trace) := by
  have covers := sound.covers
  have feedback : feedbackAttempts (.emitted (.sent active.provider request) :: trace) =
      feedbackAttempts trace := by
    cases request with
    | feedback id => exact absurd rfl operation
    | _ => rfl
  refine ⟨⟨?_, ?_, covers.within, covers.invalid, covers.flying, ?_, ?_, covers.repairs, ?_,
    covers.routing⟩, ?_, ⟨fun _ => settled, sound.exclusive⟩, ?_, ?_, ?_,
    sound.saves_emitted⟩
  · have one : completions (.emitted (.sent active.provider request) :: trace) ≤
        completions trace + 1 := by
      simp only [completions, List.countP_cons]
      split <;> omega
    simp only [record_emitted, flies, if_true]
    omega
  · intro idle
    simp [flies] at idle
  · intro later
    rcases entered_emitted.mp later with groq | entered
    · exact selected.provider.mp (Option.some.inj groq)
    · exact covers.entered entered
  · exact fun attempt member groq =>
      entered_emitted.mpr (.inr (covers.own attempt member groq))
  · rw [feedback]
    exact covers.feedback
  · intro idle
    simp [flies] at idle
  · exact ⟨(sound.contacts selected rfl).1, (sound.contacts selected rfl).2, sound.groq⟩
  · rw [feedback]
    exact sound.once
  · cases request with
    | feedback id => exact absurd rfl operation
    | _ => exact sound.addressed

theorem Sound.fedBack (sound : Sound stage window trace) {active : Adapter}
    (selected : Selected stage window (record trace) active) {attempt : Attempt}
    {decisionId : String} (last : (record trace).attempts.getLast? = some attempt)
    (decided : attempt.decisionId = some decisionId) (invalid : attempt.valid = some false)
    (earlier : ∀ number ∈ feedbackAttempts trace, number < (record trace).attempts.length) :
    Sound stage window (.emitted (.sent active.provider (.feedback decisionId)) :: trace) where
  covers := by
    refine sound.covers.emitted rfl rfl
      (fun through => selected.provider.mp (Option.some.inj through)) ?_
    intro number member
    rcases List.mem_cons.mp member with rfl | member
    · exact Nat.le_refl _
    · exact sound.covers.feedback number member
  settled := fun idle => ⟨rfl, sound.settled idle⟩
  exclusive := ⟨fun other => absurd rfl other, sound.exclusive⟩
  groq := ⟨(sound.contacts selected rfl).1, (sound.contacts selected rfl).2, sound.groq⟩
  once := by
    refine List.nodup_cons.mpr ⟨?_, sound.once⟩
    intro repeated
    exact Nat.lt_irrefl _ (earlier _ repeated)
  addressed := ⟨⟨attempt, last, decided, invalid⟩, sound.addressed⟩
  saves := sound.saves_emitted

end Steps

section Unmarked

/-- Two records that differ only in what no law reads. -/
structure Same (before after : StageData (List Claim)) : Prop where
  attempts : after.attempts.map Attempt.unmarked = before.attempts.map Attempt.unmarked
  provider : after.provider = before.provider
  artifact : after.artifact = before.artifact
  failures : after.availabilityFailures = before.availabilityFailures
  routes : before.fallbacks.isSome → after.fallbacks.isSome
  needsRoute : after.needsRoute = before.needsRoute

variable {first second third : StageData (List Claim)}

theorem Same.refl (data : StageData (List Claim)) : Same data data :=
  ⟨rfl, rfl, rfl, rfl, id, rfl⟩

theorem Same.trans (same : Same first second) (further : Same second third) : Same first third where
  attempts := further.attempts.trans same.attempts
  provider := further.provider.trans same.provider
  artifact := further.artifact.trans same.artifact
  failures := further.failures.trans same.failures
  routes := fun some => further.routes (same.routes some)
  needsRoute := further.needsRoute.trans same.needsRoute

theorem Same.length (same : Same first second) :
    second.attempts.length = first.attempts.length := by
  simpa using congrArg List.length same.attempts

theorem Same.invalidAttempts (same : Same first second) :
    second.invalidAttempts = first.invalidAttempts := by
  have counted := congrArg (List.countP fun attempt => attempt.valid == some false) same.attempts
  rw [List.countP_map, List.countP_map] at counted
  exact counted

theorem Same.attempt (same : Same first second) {attempt : Attempt}
    (member : attempt ∈ second.attempts) :
    ∃ before ∈ first.attempts, before.unmarked = attempt.unmarked := by
  have mapped : attempt.unmarked ∈ second.attempts.map Attempt.unmarked :=
    List.mem_map_of_mem member
  rw [same.attempts] at mapped
  exact List.mem_map.mp mapped

theorem Same.last (same : Same first second) {attempt : Attempt}
    (last : first.attempts.getLast? = some attempt) :
    ∃ after, second.attempts.getLast? = some after ∧ after.unmarked = attempt.unmarked := by
  have mapped := congrArg List.getLast? same.attempts
  rw [List.getLast?_map, List.getLast?_map, last, Option.map_some] at mapped
  obtain ⟨after, found, equal⟩ := Option.map_eq_some_iff.mp mapped
  exact ⟨after, found, equal⟩

theorem Same.marked (feedback : Feedback) (data : StageData (List Claim)) :
    Same data (data.marked feedback) where
  attempts := markLast_unmarked feedback data.attempts
  provider := rfl
  artifact := rfl
  failures := rfl
  routes := id
  needsRoute := rfl

variable {stage : ExtractionStage} {trace : Ledger}

theorem Same.allowance (same : Same first second) :
    stage.allowance second = stage.allowance first := by
  simp only [ExtractionStage.allowance, same.artifact, same.invalidAttempts, same.provider,
    same.failures]

/-- A record that accounts for a trace while nothing is in flight still does when nothing
that a law reads changes. -/
theorem Covers.same (covers : Covers stage trace first) (idle : first.inFlight = false)
    (same : Same first second)
    (flying : second.inFlight = true → second.artifact = none ∧ second.invalidAttempts ≤ 1) :
    Covers stage trace second where
  sent := by
    have sent := covers.sent
    rw [idle] at sent
    rw [same.length]
    simp only [Bool.false_eq_true, if_false] at sent
    omega
  routed := fun _ decided => same.routes (covers.routed idle decided)
  within := by
    rw [same.length, same.allowance]
    exact covers.within
  invalid := by
    rw [same.invalidAttempts]
    exact covers.invalid
  flying := flying
  entered := fun entered => by
    rw [same.provider]
    exact covers.entered entered
  own := fun attempt member groq => by
    obtain ⟨before, known, equal⟩ := same.attempt member
    have provider : before.provider = attempt.provider := congrArg (·.provider) equal
    exact covers.own before known (provider.trans groq)
  repairs := fun selected attempt member invalid => by
    obtain ⟨before, known, equal⟩ := same.attempt member
    have provider : before.provider = attempt.provider := congrArg (·.provider) equal
    have valid : before.valid = attempt.valid := congrArg (·.valid) equal
    rw [← provider]
    exact covers.repairs (same.provider ▸ selected) before known (valid.trans invalid)
  feedback := fun number member => by
    rw [same.length]
    exact covers.feedback number member
  routing := fun needed => by
    rw [same.provider]
    exact covers.routing (same.needsRoute ▸ needed)

theorem Selected.same {window : ObservationWindow} {active : Adapter}
    (selected : Selected stage window first active) (same : Same first second) :
    Selected stage window second active where
  provider := by rw [same.provider]; exact selected.provider
  approved := selected.approved
  recovery := by rw [same.provider]; exact selected.recovery

end Unmarked

end Ovrly.Extraction
