import Ovrly.Extraction.Calls

/-!
What the extraction stage sends to its providers, over any number of leases.

A lease resumes from the record, routes or enters Groq where the record says so, and then asks
for completions until one is valid. Each step is shown to keep the laws of the trace; the
histories of a job follow from the rule for programs that may crash.
-/

namespace Ovrly.Extraction

open Crash Ovrly.Reports Ovrly.Pipeline

section Attempts

variable {stage : ExtractionStage} {codec : Codec} {payload : Payload} {trace later : Ledger}
  {memory after data : StageData (List Claim)} {active : Adapter} {attempt : Attempt}

structure Going (stage : ExtractionStage) (window : ObservationWindow)
    (memory : StageData (List Claim)) (trace : Ledger) (active : Adapter) : Prop where
  rests : Rests stage window memory trace
  selected : Selected stage window memory active
  artifact : memory.artifact = none
  failures : memory.availabilityFailures ≤ active.recoveryAttempts

structure Completed (stage : ExtractionStage) (window : ObservationWindow)
    (memory : StageData (List Claim)) (trace : Ledger) (active : Adapter)
    (after : StageData (List Claim)) (later : Ledger) : Prop where
  going : Going stage window memory trace active
  called : Called stage window .completion memory trace after later
  entered : active.provider = .groq → Entered later

theorem invalidAttempts_append (attempts : data.attempts = after.attempts ++ [attempt]) :
    data.invalidAttempts = after.invalidAttempts + if attempt.valid = some false then 1 else 0 := by
  rw [StageData.invalidAttempts, attempts, List.countP_append, List.countP_singleton]
  simp [StageData.invalidAttempts]

theorem allowance_unavailable (artifact : data.artifact = after.artifact)
    (invalid : data.invalidAttempts = after.invalidAttempts)
    (provider : data.provider = after.provider)
    (failures : data.availabilityFailures = after.availabilityFailures + 1)
    (left : after.availabilityFailures ≤ stage.recovery after.provider) :
    stage.allowance data + 1 ≤ stage.allowance after := by
  simp only [ExtractionStage.allowance, artifact, invalid, provider, failures]
  omega

theorem allowance_answered (artifact : after.artifact = none)
    (invalid : after.invalidAttempts ≤ 1) (provider : data.provider = after.provider)
    (failures : data.availabilityFailures = after.availabilityFailures)
    (answered : data.artifact.isSome ∨ data.invalidAttempts = after.invalidAttempts + 1) :
    stage.allowance data + 1 ≤ stage.allowance after := by
  simp only [ExtractionStage.allowance, artifact, provider, failures, Option.isSome_none,
    Bool.false_eq_true, if_false]
  rcases answered with accepted | rejected
  · rw [if_pos accepted]
    omega
  · split <;> omega

/-- A record that gains an attempt covers what its completion sent, if the allowance pays
for it. -/
theorem Completed.covers
    (completed : Completed stage payload.window memory trace active after later)
    (attempts : data.attempts = after.attempts ++ [attempt])
    (through : attempt.provider = active.provider) (provider : data.provider = after.provider)
    (fallbacks : data.fallbacks = after.fallbacks) (idle : data.inFlight = false)
    (routing : data.needsRoute = true → active.provider = .scholarxiv)
    (invalid : data.invalidAttempts ≤ 2)
    (paid : stage.allowance data + 1 ≤ stage.allowance after) : Covers stage later data := by
  obtain ⟨going, called, entered⟩ := completed
  have covers := called.sound.covers
  rw [called.record] at covers
  have selected := going.selected.same called.same
  have length : data.attempts.length = after.attempts.length + 1 := by simp [attempts]
  refine ⟨?_, ?_, ?_, invalid, ?_, ?_, ?_, ?_, ?_, ?_⟩
  · have sent := covers.sent
    rw [length]
    split at sent <;> omega
  · intro _ decided
    rw [fallbacks]
    exact called.same.routes
      (going.rests.covers.routed going.rests.idle (called.grows.decided (by simp) decided))
  · have within := covers.within
    omega
  · simp [idle]
  · rw [provider]
    exact covers.entered
  · intro known member groq
    rw [attempts, List.mem_append, List.mem_singleton] at member
    rcases member with member | rfl
    · exact covers.own known member groq
    · exact entered (through ▸ groq)
  · intro chosen known member rejected
    rw [provider] at chosen
    rw [attempts, List.mem_append, List.mem_singleton] at member
    rcases member with member | rfl
    · exact covers.repairs chosen known member rejected
    · rw [through]
      exact selected.provider.mpr chosen
  · intro number member
    rw [length]
    exact Nat.le_succ_of_le (covers.feedback number member)
  · intro needed chosen
    have groq := selected.provider.mpr (provider ▸ chosen)
    rw [routing needed] at groq
    cases groq

theorem Completed.needsRoute
    (completed : Completed stage payload.window memory trace active after later)
    (needed : after.needsRoute = true) : active.provider = .scholarxiv := by
  have selected := completed.going.selected.same completed.called.same
  have covers := completed.called.sound.covers
  rw [completed.called.record] at covers
  cases known : active.provider with
  | scholarxiv => rfl
  | groq => exact absurd (selected.provider.mp known) (covers.routing needed)

theorem holdBack_yields {failure : Failure}
    {post : Unit → StageData (List Claim) → Ledger → Prop}
    {failed : Failure → StageData (List Claim) → Ledger → Prop}
    (holds : ∀ notBefore, post () { memory with notBefore } trace) :
    Yields (Sound stage payload.window) (holdBack failure) memory trace post failed := by
  unfold holdBack
  split
  · rw [yields_bind, yields_ask]
    exact fun now => holds _
  · exact holds _

structure Unavailable (stage : ExtractionStage) (window : ObservationWindow)
    (memory : StageData (List Claim)) (active : Adapter) (exhausted : Bool)
    (after : StageData (List Claim)) (later : Ledger) : Prop where
  rests : Rests stage window after later
  selected : Selected stage window after active
  artifact : after.artifact = none
  invalid : after.invalidAttempts = memory.invalidAttempts
  failures : exhausted = false → after.availabilityFailures ≤ active.recoveryAttempts
  provider : after.provider = memory.provider

theorem recordUnavailable_yields {requested : Attempt} {failure : Failure}
    {retryClass : Ovrly.Jobs.RetryClass}
    (completed : Completed stage payload.window memory trace active after later)
    (through : requested.provider = active.provider) (open_ : requested.valid = none)
    {failed : Failure → StageData (List Claim) → Ledger → Prop} :
    Yields (Sound stage payload.window)
      (recordUnavailable active requested failure retryClass) after later
      (Unavailable stage payload.window memory active) failed := by
  obtain ⟨going, called, entered⟩ := id completed
  have same := called.same
  have selected := going.selected.same same
  have artifact : after.artifact = none := same.artifact.trans going.artifact
  have failures : after.availabilityFailures ≤ stage.recovery after.provider := by
    rw [same.failures, ← selected.recovery]
    exact going.failures
  have covers := called.sound.covers
  rw [called.record] at covers
  have invalid : (recordedUnavailable active requested failure retryClass after).invalidAttempts =
      after.invalidAttempts := by
    rw [invalidAttempts_append rfl]
    simp [open_]
  have recorded : Covers stage later
      (recordedUnavailable active requested failure retryClass after) := by
    refine completed.covers rfl through rfl rfl rfl ?_ (invalid.le.trans covers.invalid)
      (allowance_unavailable rfl invalid rfl rfl failures)
    intro needed
    exact beq_iff_eq.mp (Bool.and_eq_true_iff.mp needed).2
  unfold recordUnavailable
  rw [yields_bind, yields_update, yields_bind]
  refine holdBack_yields fun notBefore => ?_
  rw [yields_bind]
  have unchanged : Same (recordedUnavailable active requested failure retryClass after)
      { recordedUnavailable active requested failure retryClass after with notBefore } :=
    ⟨rfl, rfl, rfl, rfl, id, rfl⟩
  have saved := called.sound.saved (recorded.same rfl unchanged (by simp [recordedUnavailable]))
  refine yields_save called.sound saved ?_
  rw [yields_bind, yields_read]
  refine ⟨⟨saved, rfl, rfl⟩, ⟨selected.provider, selected.approved, selected.recovery⟩, artifact,
    invalid.trans same.invalidAttempts, ?_, same.provider⟩
  intro remains
  exact Nat.le_of_not_lt (of_decide_eq_false remains)

structure Rejected (stage : ExtractionStage) (window : ObservationWindow)
    (memory : StageData (List Claim)) (trace : Ledger) (active : Adapter)
    (after : StageData (List Claim)) (later : Ledger) : Prop where
  going : Going stage window after later active
  invalid : after.invalidAttempts = memory.invalidAttempts + 1
  provider : after.provider = memory.provider

theorem reject_yields {invalid : ExtractionInvalid} {provenance : Option Provenance}
    (completed : Completed stage payload.window memory trace active after later)
    (through : attempt.provider = active.provider) (repairs : memory.invalidAttempts ≤ 1) :
    Yields (Sound stage payload.window)
      (stage.reject codec payload active attempt invalid provenance) after later
      (fun _ => Rejected stage payload.window memory trace active) fun _ _ _ => True := by
  obtain ⟨going, called, entered⟩ := id completed
  have same := called.same
  have selected := going.selected.same same
  have artifact : after.artifact = none := same.artifact.trans going.artifact
  have provider : (rejected attempt invalid provenance).provider = active.provider := by
    rw [← through]
    cases provenance <;> rfl
  have counted : (recordedAttempt (rejected attempt invalid provenance) after).invalidAttempts =
      after.invalidAttempts + 1 := by
    rw [invalidAttempts_append rfl]
    simp [rejected]
  have repairs : after.invalidAttempts ≤ 1 := same.invalidAttempts ▸ repairs
  have needsRoute := completed.needsRoute
  have recorded : Covers stage later
      (recordedAttempt (rejected attempt invalid provenance) after) := by
    exact completed.covers rfl provider rfl rfl rfl needsRoute (by omega)
      (allowance_answered artifact repairs rfl rfl (.inr counted))
  have saved := called.sound.saved recorded
  have rests : Rests stage payload.window
      (recordedAttempt (rejected attempt invalid provenance) after)
      (.saved (recordedAttempt (rejected attempt invalid provenance) after) :: later) :=
    ⟨saved, rfl, rfl⟩
  unfold ExtractionStage.reject
  rw [yields_bind, yields_update, yields_bind]
  refine yields_save called.sound saved ?_
  have chosen : Selected stage payload.window
      (recordedAttempt (rejected attempt invalid provenance) after) active :=
    ⟨selected.provider, selected.approved, selected.recovery⟩
  refine (invalidFeedback_yields rests chosen (List.getLast?_concat ..) rfl ?_).mono ?_
    fun _ _ _ _ => id
  · intro number member
    have known := called.grows.feedback number member
    have bound := going.rests.covers.feedback number known
    have length := same.length
    simp only [recordedAttempt, List.length_append, List.length_singleton]
    omega
  · rintro _ last final ⟨resting, change⟩
    refine ⟨⟨resting, ?_, ?_, ?_⟩, ?_, ?_⟩
    · exact chosen.same change
    · exact change.artifact.trans artifact
    · rw [change.failures]
      exact same.failures.le.trans going.failures
    · rw [change.invalidAttempts, counted, same.invalidAttempts]
    · exact change.provider.trans same.provider

theorem accept_yields {claims : List Claim}
    (completed : Completed stage payload.window memory trace active after later)
    (through : attempt.provider = active.provider) (repairs : memory.invalidAttempts ≤ 1)
    {failed : Failure → StageData (List Claim) → Ledger → Prop} :
    Yields (Sound stage payload.window) (accept attempt claims) after later
      (fun _ _ _ => True) failed := by
  obtain ⟨going, called, entered⟩ := id completed
  have same := called.same
  have artifact : after.artifact = none := same.artifact.trans going.artifact
  have repairs : after.invalidAttempts ≤ 1 := same.invalidAttempts ▸ repairs
  have counted : (recordedArtifact attempt claims after).invalidAttempts =
      after.invalidAttempts := by
    rw [invalidAttempts_append rfl]
    simp
  have recorded : Covers stage later (recordedArtifact attempt claims after) :=
    completed.covers rfl through rfl rfl rfl completed.needsRoute (by omega)
      (allowance_answered artifact repairs rfl rfl (.inl rfl))
  unfold accept
  rw [yields_bind, yields_update]
  exact yields_save called.sound (called.sound.saved recorded) trivial

end Attempts

section Selection

variable {stage : ExtractionStage} {codec : Codec} {payload : Payload} {trace later : Ledger}
  {memory after : StageData (List Claim)}

theorem active_yields {failed : Failure → StageData (List Claim) → Ledger → Prop}
    (rests : Rests stage payload.window memory trace)
    (fails : ∀ failure, failed failure memory trace) :
    Yields (Sound stage payload.window) (stage.active payload) memory trace
      (fun active after later => after = memory ∧ later = trace ∧
        Selected stage payload.window memory active) failed := by
  unfold ExtractionStage.active
  rw [yields_bind, yields_read]
  split
  · rename_i chosen
    split
    · rename_i groq configured
      have provider := stage.groqProvider groq configured
      split
      · rename_i approved
        refine ⟨rfl, rfl, ⟨by simp [provider, chosen], fun _ => approved, ?_⟩⟩
        simp [ExtractionStage.recovery, ExtractionStage.groqRecovery, chosen, configured]
      · exact ⟨rests.sound, fun _ => fails _⟩
    · exact ⟨rests.sound, fun _ => fails _⟩
  · rename_i other
    refine ⟨rfl, rfl, ⟨by simp [stage.llmProvider, other], ?_, ?_⟩⟩
    · intro groq
      rw [stage.llmProvider] at groq
      cases groq
    · simp [ExtractionStage.recovery, other]

/-- Groq is selected only with approval, from the other provider and before any invalid
attempt. -/
structure Entering (stage : ExtractionStage) (window : ObservationWindow)
    (memory : StageData (List Claim)) (groq : Adapter) : Prop where
  configured : stage.groq = some groq
  approved : window.groqProcessingApproved = true
  outside : memory.provider ≠ some .groq
  untried : memory.invalidAttempts = 0

theorem useGroq_yields {post : Adapter → StageData (List Claim) → Ledger → Prop}
    (sound : Sound stage payload.window trace)
    (holds : ∀ groq, Entering stage payload.window memory groq → post groq (onGroq memory) trace) :
    Yields (Sound stage payload.window) (stage.useGroq payload) memory trace post
      fun _ _ _ => True := by
  unfold ExtractionStage.useGroq
  rw [yields_bind, yields_read]
  split
  · rename_i groq configured
    split
    · exact ⟨sound, fun _ => trivial⟩
    · rename_i permitted
      simp only [not_or] at permitted
      obtain ⟨approved, outside, untried⟩ := permitted
      refine holds groq ⟨configured, by simpa using approved, outside, ?_⟩
      refine List.countP_eq_zero.mpr ?_
      simpa using untried
  · exact ⟨sound, fun _ => trivial⟩

/-- Entering Groq trades its recovery attempts for what was kept back for them. -/
theorem allowance_onGroq (artifact : after.artifact = memory.artifact)
    (invalid : after.invalidAttempts = memory.invalidAttempts)
    (provider : after.provider = some .groq) (failures : after.availabilityFailures = 0)
    (outside : memory.provider ≠ some .groq) :
    stage.allowance after ≤ stage.allowance memory := by
  simp only [ExtractionStage.allowance, ExtractionStage.recovery, artifact, invalid, provider,
    failures, if_true, if_neg outside]
  omega

theorem Entering.selected {groq : Adapter}
    (entering : Entering stage payload.window memory groq) :
    Selected stage payload.window (onGroq memory) groq where
  provider := by simp [stage.groqProvider groq entering.configured, onGroq]
  approved := fun _ => entering.approved
  recovery := by
    simp [ExtractionStage.recovery, ExtractionStage.groqRecovery, onGroq, entering.configured]

theorem Entering.covers {groq : Adapter}
    (entering : Entering stage payload.window memory groq)
    (rests : Rests stage payload.window memory trace) : Covers stage trace (onGroq memory) := by
  have covers := rests.covers
  refine ⟨covers.sent, covers.routed, ?_, covers.invalid, covers.flying, fun _ => rfl,
    covers.own, ?_, covers.feedback, ?_⟩
  · have within := covers.within
    have cheaper : stage.allowance (onGroq memory) ≤ stage.allowance memory :=
      allowance_onGroq rfl rfl rfl rfl entering.outside
    have same : (onGroq memory).attempts.length = memory.attempts.length := rfl
    omega
  · intro _ attempt member invalid
    have untried := List.countP_eq_zero.mp entering.untried attempt member
    simp [invalid] at untried
  · intro needed
    cases needed

structure Resuming (stage : ExtractionStage) (window : ObservationWindow)
    (memory : StageData (List Claim)) (trace : Ledger) : Prop where
  rests : Rests stage window memory trace
  artifact : memory.artifact = none
  repairs : memory.invalidAttempts ≤ 1

structure EnteredGroq (stage : ExtractionStage) (window : ObservationWindow)
    (memory : StageData (List Claim)) (groq : Adapter) (after : StageData (List Claim))
    (later : Ledger) : Prop where
  entering : Entering stage window memory groq
  rests : Rests stage window after later
  same : Same (onGroq memory) after

theorem enterGroq_yields (rests : Rests stage payload.window memory trace) :
    Yields (Sound stage payload.window) (stage.enterGroq payload) memory trace
      (EnteredGroq stage payload.window memory) fun _ _ _ => True := by
  unfold ExtractionStage.enterGroq
  rw [yields_bind]
  refine useGroq_yields rests.sound fun groq entering => ?_
  have covers := entering.covers rests
  have change : Same (onGroq memory) { onGroq memory with notBefore := none } :=
    ⟨rfl, rfl, rfl, rfl, id, rfl⟩
  have idle : (onGroq memory).inFlight = false := rests.idle
  have saved := rests.sound.saved (covers.same idle change (by simp [idle]))
  rw [yields_bind, yields_update, yields_bind]
  exact yields_save rests.sound saved ⟨entering, ⟨saved, rfl, idle⟩, change⟩

structure Resumed (stage : ExtractionStage) (window : ObservationWindow)
    (memory : StageData (List Claim)) (trace : Ledger) : Prop where
  resuming : Resuming stage window memory trace
  failures : memory.availabilityFailures ≤ stage.recovery memory.provider

theorem EnteredGroq.resumed {groq : Adapter}
    (entered : EnteredGroq stage payload.window memory groq after later)
    (artifact : memory.artifact = none) : Resumed stage payload.window after later where
  resuming := {
    rests := entered.rests
    artifact := entered.same.artifact.trans artifact
    repairs := by
      rw [entered.same.invalidAttempts]
      have none : (onGroq memory).invalidAttempts = 0 := entered.entering.untried
      omega }
  failures := by
    rw [entered.same.failures]
    exact Nat.zero_le _

theorem Called.routed (called : Called stage payload.window .decision memory trace after later)
    (resumed : Resumed stage payload.window memory trace) (models : List String)
    (failure : Option Ovrly.Jobs.RetryClass) :
    Resumed stage payload.window (recordedRoute models failure after)
      (.saved (recordedRoute models failure after) :: later) := by
  have same : Same memory (recordedRoute models failure after) :=
    called.same.trans ⟨rfl, rfl, rfl, rfl, fun _ => rfl, rfl⟩
  have covers := called.sound.covers
  rw [called.record] at covers
  have before := resumed.resuming.rests.covers
  have counted := before.sent
  rw [resumed.resuming.rests.idle] at counted
  have sent := Nat.le_trans (called.grows.counted (by simp)) counted
  have recorded : Covers stage later (recordedRoute models failure after) := by
    refine ⟨?_, fun _ _ => rfl, covers.within, covers.invalid, ?_, covers.entered, covers.own,
      covers.repairs, covers.feedback, covers.routing⟩
    · rw [same.length]
      simpa [recordedRoute] using sent
    · simp [recordedRoute]
  refine ⟨⟨⟨called.sound.saved recorded, rfl, rfl⟩, ?_, ?_⟩, ?_⟩
  · exact same.artifact.trans resumed.resuming.artifact
  · rw [same.invalidAttempts]
    exact resumed.resuming.repairs
  · rw [same.failures, same.provider]
    exact resumed.failures

theorem askFallbacks_yields (resumed : Resumed stage payload.window memory trace)
    (outside : memory.provider ≠ some .groq) :
    Yields (Sound stage payload.window) (stage.askFallbacks codec payload) memory trace
      (fun _ => Resumed stage payload.window) fun _ _ _ => True := by
  have selected : Selected stage payload.window memory stage.llm := by
    refine ⟨by simp [stage.llmProvider, outside], ?_, by simp [ExtractionStage.recovery, outside]⟩
    intro groq
    rw [stage.llmProvider] at groq
    cases groq
  have resuming := resumed.resuming
  unfold ExtractionStage.askFallbacks
  refine yields_attempt ?_ ((wait_yields resuming.rests.sound
    (fun _ _ _ silent called => called.quiet silent)
    (fallbacks_yields resuming.rests resuming.artifact resuming.repairs selected)).mono ?_ ?_)
  · intro failure after later fatal sound
    cases failure with
    | leaseLost => exact ⟨sound, fun _ => trivial⟩
    | cancellationRequested => exact ⟨sound, fun _ => trivial⟩
    | _ => simp [Failure.fatal] at fatal
  · intro models after later called
    have routed := called.routed resumed models none
    dsimp only
    rw [yields_bind, yields_update]
    exact yields_save called.sound routed.resuming.rests.sound routed
  · intro failure after later _ called _
    dsimp only
    cases failure.unavailable? with
    | some retryClass =>
        have routed := called.routed resumed [] (some retryClass)
        dsimp only
        rw [yields_bind, yields_update]
        exact yields_save called.sound routed.resuming.rests.sound routed
    | none => exact ⟨called.sound, fun _ => trivial⟩

theorem takeFallback_yields (resumed : Resumed stage payload.window memory trace) :
    Yields (Sound stage payload.window) (stage.takeFallback payload) memory trace
      (fun _ => Resumed stage payload.window) fun _ _ _ => True := by
  have resuming := resumed.resuming
  have rests := resuming.rests
  unfold ExtractionStage.takeFallback
  rw [yields_bind, yields_read]
  split
  · rw [yields_bind]
    refine useGroq_yields rests.sound fun groq entering => ?_
    have saved := rests.sound.saved (entering.covers rests)
    rw [yields_bind, yields_update]
    have entered : EnteredGroq stage payload.window memory groq (onGroq memory)
        (.saved (onGroq memory) :: trace) :=
      ⟨entering, ⟨saved, rfl, rests.idle⟩, .refl _⟩
    exact yields_save rests.sound saved (entered.resumed resuming.artifact)
  · rename_i model rest _
    rw [yields_bind, yields_update]
    have covers := rests.covers
    have idle := rests.idle
    have recorded : Covers stage trace
        { memory with model := some model, fallbacks := some rest, needsRoute := false } :=
      ⟨covers.sent, fun _ _ => rfl, covers.within, covers.invalid, covers.flying, covers.entered,
        covers.own, covers.repairs, covers.feedback, fun needed => by cases needed⟩
    have saved := rests.sound.saved recorded
    exact yields_save rests.sound saved
      ⟨⟨⟨saved, rfl, idle⟩, resuming.artifact, resuming.repairs⟩, resumed.failures⟩

theorem route_yields (resumed : Resumed stage payload.window memory trace)
    (outside : memory.provider ≠ some .groq) :
    Yields (Sound stage payload.window) (stage.route codec payload) memory trace
      (fun _ => Resumed stage payload.window) fun _ _ _ => True := by
  unfold ExtractionStage.route
  rw [yields_bind, yields_read]
  split
  · rw [yields_bind]
    exact (askFallbacks_yields resumed outside).mono
      (fun _ _ _ resumed => takeFallback_yields resumed) fun _ _ _ _ => id
  · exact takeFallback_yields resumed

theorem recover_yields {active : Adapter} (resuming : Resuming stage payload.window memory trace)
    (selected : Selected stage payload.window memory active) :
    Yields (Sound stage payload.window) (stage.recover payload active) memory trace
      (fun _ => Resumed stage payload.window) fun _ _ _ => True := by
  unfold ExtractionStage.recover
  rw [yields_bind, yields_read]
  split
  · rw [yields_bind]
    exact (enterGroq_yields resuming.rests).mono
      (fun _ _ _ entered => entered.resumed resuming.artifact) fun _ _ _ _ => id
  · rename_i enough
    refine ⟨resuming, ?_⟩
    rw [← selected.recovery]
    exact Nat.le_of_not_lt enough

theorem reroute_yields (resumed : Resumed stage payload.window memory trace) :
    Yields (Sound stage payload.window) (stage.reroute codec payload) memory trace
      (fun _ => Resumed stage payload.window) fun _ _ _ => True := by
  unfold ExtractionStage.reroute
  rw [yields_bind, yields_read, yields_bind, yields_ask]
  intro now
  split
  · exact ⟨resumed.resuming.rests.sound, fun _ => trivial⟩
  · split
    · rename_i needed
      exact route_yields resumed (resumed.resuming.rests.covers.routing needed)
    · exact resumed

theorem resume_yields (rests : Rests stage payload.window memory trace)
    (artifact : memory.artifact = none) :
    Yields (Sound stage payload.window) (stage.resume codec payload) memory trace
      (fun active after later => Going stage payload.window after later active)
      fun _ _ _ => True := by
  unfold ExtractionStage.resume
  rw [yields_bind, yields_read]
  split
  · exact ⟨rests.sound, fun _ => trivial⟩
  · rename_i repairs
    split
    · exact ⟨rests.sound, fun _ => trivial⟩
    · exact ⟨rests.sound, fun _ => trivial⟩
    · rw [yields_bind]
      refine (active_yields rests fun _ => trivial).mono ?_ fun _ _ _ _ => id
      rintro active after later ⟨rfl, rfl, selected⟩
      rw [yields_bind]
      refine (recover_yields ⟨rests, artifact, by omega⟩ selected).mono ?_ fun _ _ _ _ => id
      intro _ after later resumed
      rw [yields_bind]
      refine (reroute_yields resumed).mono ?_ fun _ _ _ _ => id
      intro _ after later resumed
      refine (active_yields resumed.resuming.rests fun _ => trivial).mono ?_ fun _ _ _ _ => id
      rintro active _ _ ⟨rfl, rfl, selected⟩
      refine ⟨resumed.resuming.rests, selected, resumed.resuming.artifact, ?_⟩
      rw [selected.recovery]
      exact resumed.failures

end Selection

section Inference

variable {stage : ExtractionStage} {codec : Codec} {payload : Payload} {trace later : Ledger}
  {memory after : StageData (List Claim)} {active : Adapter}

def iterations (data : StageData (List Claim)) : Nat :=
  (2 - data.invalidAttempts) + if data.provider = some .groq then 0 else 1

theorem judge_provider (codec : Codec) (payload : Payload) (requested : Attempt)
    (completion : Completion) :
    (judge codec payload requested completion).1.provider = requested.provider := by
  simp only [judge]
  split <;> rfl

theorem Unavailable.enters {groq : Adapter} {last : StageData (List Claim)} {final : Ledger}
    {exhausted : Bool}
    (unavailable : Unavailable stage payload.window memory active exhausted after later)
    (entered : EnteredGroq stage payload.window after groq last final) :
    Going stage payload.window last final groq ∧ iterations last + 1 ≤ iterations memory := by
  have resumed := entered.resumed unavailable.artifact
  have selected := entered.entering.selected.same entered.same
  refine ⟨⟨entered.rests, selected, resumed.resuming.artifact, ?_⟩, ?_⟩
  · rw [selected.recovery]
    exact resumed.failures
  · have outside := entered.entering.outside
    rw [unavailable.provider] at outside
    have invalid : last.invalidAttempts = memory.invalidAttempts :=
      entered.same.invalidAttempts.trans unavailable.invalid
    have provider : last.provider = some .groq := entered.same.provider
    simp only [iterations, invalid, provider, if_true, if_neg outside]
    omega

theorem Rejected.iterations
    (rejected : Rejected stage payload.window memory trace active after later)
    (repairs : memory.invalidAttempts ≤ 1) : iterations after + 1 ≤ iterations memory := by
  simp only [Extraction.iterations, rejected.invalid, rejected.provider]
  omega

/-- The loop over completions keeps the laws, and ends unless its fuel is too small. -/
theorem infer_yields (fuel : Nat) (going : Going stage payload.window memory trace active) :
    Yields (Sound stage payload.window) (infer stage codec payload fuel active) memory trace
      (fun inferred _ _ => inferred = none → fuel ≤ iterations memory) fun _ _ _ => True := by
  induction fuel generalizing memory trace active with
  | zero => exact fun _ => Nat.zero_le _
  | succ fuel ih =>
      have rests := going.rests
      unfold infer
      rw [yields_bind, yields_read]
      split
      · exact ⟨rests.sound, fun _ => trivial⟩
      · rename_i repairs
        have repairs : memory.invalidAttempts ≤ 1 := by omega
        -- after an invalid completion the loop goes on with one repair less
        have again : ∀ attempt invalid provenance after later,
            Completed stage payload.window memory trace active after later →
            attempt.provider = active.provider →
            Yields (Sound stage payload.window) (do
              stage.reject codec payload active attempt invalid provenance
              infer stage codec payload fuel active) after later
              (fun inferred _ _ => inferred = none → fuel + 1 ≤ iterations memory)
              fun _ _ _ => True := by
          intro attempt invalid provenance after later completed through
          rw [yields_bind]
          refine (reject_yields completed through repairs).mono ?_ fun _ _ _ _ => id
          intro _ last final rejected
          refine (ih rejected.going).mono ?_ fun _ _ _ _ => id
          intro inferred _ _ bound ended
          have left := bound ended
          have less := rejected.iterations repairs
          omega
        rw [yields_bind]
        refine yields_heartbeat rests.sound ?_
        refine yields_attempt ?_ ((wait_yields rests.sound
          (fun _ _ _ silent called => ⟨called.1.quiet silent,
            fun groq => entered_emitted.mpr (.inr (called.2 groq))⟩)
          (complete_yields rests going.artifact repairs going.selected)).mono ?_ ?_)
        · intro failure after later fatal sound
          cases failure with
          | leaseLost => exact ⟨sound, fun _ => trivial⟩
          | cancellationRequested => exact ⟨sound, fun _ => trivial⟩
          | _ => simp [Failure.fatal] at fatal
        · rintro completion after later ⟨called, entered⟩
          have completed : Completed stage payload.window memory trace active after later :=
            ⟨going, called, entered⟩
          have through := judge_provider codec payload (requestedAttempt memory active) completion
          dsimp only
          split
          · rename_i attempt claims judged
            rw [judged] at through
            rw [yields_bind]
            refine (accept_yields completed through repairs).mono ?_ fun _ _ _ _ => id
            exact fun _ _ _ _ ended => by cases ended
          · rename_i attempt invalid judged
            rw [judged] at through
            exact again attempt invalid none after later completed through
        · rintro failure after later _ ⟨called, entered⟩ _
          have completed : Completed stage payload.window memory trace active after later :=
            ⟨going, called, entered⟩
          dsimp only
          split
          · rw [yields_bind]
            refine (recordUnavailable_yields completed rfl rfl).mono ?_ fun _ _ _ _ => id
            intro exhausted last final unavailable
            split
            · rw [yields_bind]
              refine (enterGroq_yields unavailable.rests).mono ?_ fun _ _ _ _ => id
              intro groq next ending entered
              obtain ⟨going, less⟩ := unavailable.enters entered
              refine (ih going).mono ?_ fun _ _ _ _ => id
              intro inferred _ _ bound ended
              have left := bound ended
              omega
            · exact ⟨unavailable.rests.sound, fun _ => trivial⟩
          · split
            · exact again _ _ _ after later completed rfl
            · exact ⟨called.sound, fun _ => trivial⟩

theorem checkJob_yields {key : String} {post : Unit → StageData (List Claim) → Ledger → Prop}
    (sound : Sound stage payload.window trace) (holds : post () memory trace) :
    Yields (Sound stage payload.window) (checkJob codec payload key) memory trace post
      fun _ _ _ => True := by
  have refused : ∀ failure, Yields (Sound stage payload.window)
      (Worker.raise failure : Run Unit) memory trace post fun _ _ _ => True :=
    fun failure => ⟨sound, fun _ => trivial⟩
  unfold checkJob
  split
  · exact refused _
  · split
    · exact refused _
    · rw [yields_bind]
      refine yields_heartbeat sound ?_
      rw [yields_bind, yields_ask]
      intro owned
      split
      · exact refused _
      · unfold checkPrevious
        split
        · rw [yields_bind, yields_ask]
          intro previous
          split
          · split
            · exact refused _
            · exact holds
          · exact holds
        · exact holds

/-- Four iterations are enough for every lease. -/
theorem run_yields {key : String} {fuel : Nat} (sound : Sound stage payload.window trace) :
    Yields (Sound stage payload.window) (stage.run codec (some payload) key fuel) (record trace)
      trace (fun result _ _ => result = none → fuel < 4) fun _ _ _ => True := by
  unfold ExtractionStage.run
  rw [yields_bind]
  refine checkJob_yields sound ?_
  rw [yields_bind]
  unfold ExtractionStage.inferArtifact
  rw [yields_bind, yields_read]
  split
  · exact ⟨sound, fun _ => trivial⟩
  · split
    · exact ⟨sound, fun _ => trivial⟩
    · rename_i idle
      split
      · rename_i artifact
        have rests : Rests stage payload.window (record trace) trace :=
          ⟨sound, rfl, by simpa using idle⟩
        rw [yields_bind]
        refine (resume_yields rests (by simpa using artifact)).mono ?_ fun _ _ _ _ => id
        intro active after later going
        refine (infer_yields fuel going).mono ?_ fun _ _ _ _ => id
        intro inferred _ _ bound
        rw [yields_bind, yields_read]
        intro ended
        have bound := bound (by simpa using ended)
        have most : iterations after ≤ 3 := by
          simp only [iterations]
          split <;> omega
        omega
      · intro ended
        cases ended

/-- The history of one job: any number of leases, each stopped anywhere. -/
abbrev JobHistory (stage : ExtractionStage) (codec : Codec) (payload : Payload) (key : String)
    (fuel : Nat) : Ledger → Prop :=
  History (S := Signature (List Claim)) {} (stage.run codec (some payload) key fuel)

theorem history_sound {key : String} {fuel : Nat}
    (history : JobHistory stage codec payload key fuel trace) : Sound stage payload.window trace :=
  history.keeps .fresh fun _ sound => run_yields sound

theorem Sound.bounded {window : ObservationWindow} (sound : Sound stage window trace) :
    completions trace ≤ 2 * (stage.recoveryAttempts + 1) + 2 := by
  have sent := sound.covers.sent
  have within := sound.covers.within
  have flying := sound.covers.flying
  have recovery : stage.llm.recoveryAttempts ≤ stage.recoveryAttempts ∧
      stage.groqRecovery ≤ stage.recoveryAttempts := by
    simp only [ExtractionStage.recoveryAttempts, ExtractionStage.groqRecovery]
    split
    · exact ⟨Nat.le_refl _, Nat.zero_le _⟩
    · exact ⟨Nat.le_max_left _ _, Nat.le_max_right _ _⟩
  cases flies : (record trace).inFlight with
  | false =>
      rw [flies] at sent
      simp only [Bool.false_eq_true, if_false] at sent
      omega
  | true =>
      rw [flies] at sent
      obtain ⟨artifact, repairs⟩ := flying flies
      have left : 1 ≤ stage.allowance (record trace) := by
        simp only [ExtractionStage.allowance, artifact, Option.isSome_none, Bool.false_eq_true,
          if_false]
        omega
      simp only [if_true] at sent
      omega

/-- The send laws of the extraction stage, over any number of leases. -/
theorem sends_safely {key : String} {fuel : Nat}
    (history : JobHistory stage codec payload key fuel trace) :
    Exclusive trace ∧ (∀ data, .saved data ∈ trace → data.invalidAttempts ≤ 2) ∧
      completions trace ≤ 2 * (stage.recoveryAttempts + 1) + 2 ∧
      GroqLaw payload.window trace ∧ (feedbackAttempts trace).Nodup ∧ Addressed trace := by
  have sound := history_sound history
  exact ⟨sound.exclusive, sound.saves, sound.bounded, sound.groq, sound.once, sound.addressed⟩

end Inference

section Example

def groqWindow : ObservationWindow where
  windowId := "w1"
  hostedProcessingApproved := true
  groqProcessingApproved := true
  observations := [
    ⟨"o1", .target, "The dam failed.", .speech, .media, 0, 1000, none, by decide, by decide,
      by decide⟩]
  unique := by decide
  oneTimebase := by decide
  targeted := by decide
  bounded := by decide

def groqStage : ExtractionStage where
  llm := ⟨.scholarxiv, .claimExtraction, ["auto"], 1024, 0, .ready⟩
  groq := some ⟨.groq, .claimExtraction, ["openai/gpt-oss-20b"], 1024, 0, .ready⟩
  llmTask := rfl
  llmProvider := rfl
  groqTask := by simp
  groqProvider := by simp

def exampleCodec : Codec where
  inputBytes := fun _ => 100
  parseCompletion := fun _ _ => .error ⟨"Invalid extraction schema", none⟩
  identify := fun _ _ => "c1"
  extractionKey := fun _ => "k1"

def groqPayload : Payload := ⟨"i1", groqWindow, false⟩

def groqAnswers : List (Σ query : Query, query.Answer) := [
  ⟨.heartbeat, .renewed⟩, ⟨.owned, true⟩, ⟨.now, 0⟩,
  ⟨.heartbeat, .renewed⟩, ⟨.heartbeat, .renewed⟩, ⟨.fence, true⟩,
  ⟨.response .scholarxiv (.completion none false none), .answered 429 .missing .undecodable⟩,
  ⟨.now, 0⟩, ⟨.fence, true⟩, ⟨.fence, true⟩,
  ⟨.heartbeat, .renewed⟩, ⟨.heartbeat, .renewed⟩, ⟨.fence, true⟩,
  ⟨.response .groq (.completion none false none), .answered 200 .missing .undecodable⟩,
  ⟨.fence, true⟩, ⟨.fence, true⟩, ⟨.heartbeat, .renewed⟩, ⟨.heartbeat, .renewed⟩]

def groqTrace : Ledger :=
  (groqStage.run exampleCodec (some groqPayload) "k1" 4 {}).replay (S := Signature (List Claim))
    groqAnswers []

theorem groqTrace_history : JobHistory groqStage exampleCodec groqPayload "k1" 4 groqTrace :=
  .run .fresh (Program.reaches_replay _ _ _)

/-- Two completions were sent, and the third call repairs Groq's own output. -/
theorem sends_safely_example :
    completions groqTrace = 2 ∧
      completions groqTrace ≤ 2 * (groqStage.recoveryAttempts + 1) + 2 ∧ Exclusive groqTrace := by
  have safely := sends_safely groqTrace_history
  exact ⟨by decide, safely.2.2.1, safely.1⟩

/-- Groq is called after an invalid attempt: its own. -/
theorem groq_repairs_itself :
    ¬∀ stage codec payload key fuel trace, JobHistory stage codec payload key fuel trace →
      ∀ later operation earlier,
        trace = later ++ .emitted (.called .groq operation) :: earlier →
          (record earlier).invalidAttempts = 0 := by
  intro never
  have called : groqTrace = .emitted (.called .groq .completion) :: groqTrace.tail := rfl
  have untried := never groqStage exampleCodec groqPayload "k1" 4 groqTrace groqTrace_history
    [] .completion groqTrace.tail called
  have tried : (record groqTrace.tail).invalidAttempts = 1 := by decide
  omega

end Example

end Ovrly.Extraction
