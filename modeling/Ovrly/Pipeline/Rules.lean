import Ovrly.Pipeline.Recovery

/-!
Rules for the steps of a stage.

A lost lease and a cancellation pass every handler of the stages, so nothing is asked of the
memory they leave behind: the lease is over, and the next one reads the record.
-/

namespace Ovrly.Pipeline

open Crash

variable {α β γ : Type} {keeps : Trace (Signature α) → Prop} {memory : StageData α}
  {trace : Trace (Signature α)}

/-- The stage keeps the invariant; it ends with `ok`, or with `failed` if the failure can be
handled. -/
def Yields (keeps : Trace (Signature α) → Prop) (stage : Stage α β) (memory : StageData α)
    (trace : Trace (Signature α)) (ok : β → StageData α → Trace (Signature α) → Prop)
    (failed : Failure → StageData α → Trace (Signature α) → Prop) : Prop :=
  stage.Meets keeps memory trace fun outcome memory later =>
    match outcome with
    | .ok value => ok value memory later
    | .error failure => keeps later ∧ (failure.fatal = false → failed failure memory later)

variable {ok : β → StageData α → Trace (Signature α) → Prop}
  {failed : Failure → StageData α → Trace (Signature α) → Prop}

theorem Yields.mono {stage : Stage α β}
    {weakerOk : β → StageData α → Trace (Signature α) → Prop}
    {weakerFailed : Failure → StageData α → Trace (Signature α) → Prop}
    (yields : Yields keeps stage memory trace ok failed)
    (succeeds : ∀ value memory later, ok value memory later → weakerOk value memory later)
    (fails : ∀ failure memory later, failure.fatal = false → failed failure memory later →
      weakerFailed failure memory later) :
    Yields keeps stage memory trace weakerOk weakerFailed := by
  refine Worker.Meets.mono yields ?_
  rintro (failure | value) memory later holds
  · exact ⟨holds.1, fun handled => fails failure memory later handled (holds.2 handled)⟩
  · exact succeeds value memory later holds

@[simp] theorem yields_pure {value : β} :
    Yields keeps (pure value) memory trace ok failed ↔ ok value memory trace := Iff.rfl

@[simp] theorem yields_raise {failure : Failure} :
    Yields keeps (Worker.raise failure : Stage α β) memory trace ok failed ↔
      keeps trace ∧ (failure.fatal = false → failed failure memory trace) := Iff.rfl

theorem yields_bind {stage : Stage α γ} {next : γ → Stage α β} :
    Yields keeps (stage >>= next) memory trace ok failed ↔
      Yields keeps stage memory trace
        (fun value memory later => Yields keeps (next value) memory later ok failed) failed := by
  simp only [Yields, Worker.meets_bind]
  refine ⟨fun meets => meets.mono ?_, fun meets => meets.mono ?_⟩ <;>
    · rintro (failure | value) memory later holds <;> exact holds

/-- Handlers of a call: a failure that no handler catches only has to be passed on. -/
theorem yields_attempt {stage : Stage α γ} {next : Except Failure γ → Stage α β}
    (fatal : ∀ failure memory later, failure.fatal = true → keeps later →
      Yields keeps (next (.error failure)) memory later ok failed)
    (yields : Yields keeps stage memory trace
      (fun value memory later => Yields keeps (next (.ok value)) memory later ok failed)
      (fun failure memory later => keeps later →
        Yields keeps (next (.error failure)) memory later ok failed)) :
    Yields keeps (stage.attempt >>= next) memory trace ok failed := by
  rw [yields_bind]
  simp only [Yields, Worker.meets_attempt]
  refine Worker.Meets.mono yields ?_
  rintro (failure | value) memory later holds
  · cases passes : failure.fatal with
    | true => exact fatal failure memory later passes holds.1
    | false => exact holds.2 passes holds.1
  · exact holds

@[simp] theorem yields_read {ok : StageData α → StageData α → Trace (Signature α) → Prop} :
    Yields keeps (Worker.read : Stage α (StageData α)) memory trace ok failed ↔
      ok memory memory trace := Iff.rfl

@[simp] theorem yields_ask {query : Query}
    {ok : query.Answer → StageData α → Trace (Signature α) → Prop} :
    Yields keeps (Worker.ask (S := Signature α) query : Stage α query.Answer) memory trace ok
        failed ↔
      ∀ answer, ok answer memory trace := Iff.rfl

section Units

variable {ok : Unit → StageData α → Trace (Signature α) → Prop}

@[simp] theorem yields_update {change : StageData α → StageData α} :
    Yields keeps (Worker.update change : Stage α Unit) memory trace ok failed ↔
      ok () (change memory) trace := Iff.rfl

@[simp] theorem yields_emit {event : Event} :
    Yields keeps (Worker.emit (S := Signature α) event : Stage α Unit) memory trace ok failed ↔
      keeps (.emitted event :: trace) ∧ ok () memory (.emitted event :: trace) := Iff.rfl

theorem yields_save (sound : keeps trace) (covered : keeps (.saved memory :: trace))
    (holds : ok () memory (.saved memory :: trace)) :
    Yields keeps (saveStageData : Stage α Unit) memory trace ok failed := by
  rw [saveStageData, yields_bind, yields_ask]
  intro held
  cases held with
  | true => exact ⟨covered, holds⟩
  | false => exact ⟨sound, by simp [Failure.fatal]⟩

theorem yields_heartbeat (sound : keeps trace) (holds : ok () memory trace) :
    Yields keeps (heartbeat : Stage α Unit) memory trace ok failed := by
  rw [heartbeat, yields_bind, yields_ask]
  intro answer
  cases answer with
  | renewed => exact holds
  | lost => exact ⟨sound, by simp [Failure.fatal]⟩
  | cancelRequested => exact ⟨sound, by simp [Failure.fatal]⟩

end Units

theorem yields_ofExcept {result : Except Failure β} (sound : keeps trace)
    (succeeds : ∀ value, result = .ok value → ok value memory trace)
    (fails : ∀ failure, result = .error failure → failed failure memory trace) :
    Yields keeps (ofExcept result : Stage α β) memory trace ok failed := by
  cases result with
  | ok value => exact succeeds value rfl
  | error failure => exact ⟨sound, fun _ => fails failure rfl⟩

theorem yields_waitForProvider {pending : Stage α β} (sound : keeps trace)
    (yields : Yields keeps pending memory trace ok failed) :
    Yields keeps (waitForProvider pending) memory trace ok failed := by
  rw [waitForProvider, yields_bind]
  exact yields_heartbeat sound yields

end Ovrly.Pipeline
