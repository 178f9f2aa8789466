import Ovrly.Extraction.Ledger

/-!
What the provider calls of the extraction stage leave behind: at most one request more in the
trace, and a record that still accounts for everything.
-/

namespace Ovrly.Extraction

open Crash Ovrly.Reports Ovrly.Pipeline

section Calls

variable {stage : ExtractionStage} {codec : Codec} {payload : Payload} {trace later : Ledger}
  {memory after : StageData (List Claim)} {active : Adapter}

/-- Between two provider calls the memory is the record and nothing is in flight. -/
structure Rests (stage : ExtractionStage) (window : ObservationWindow)
    (memory : StageData (List Claim)) (trace : Ledger) : Prop where
  sound : Sound stage window trace
  same : record trace = memory
  idle : memory.inFlight = false

theorem Rests.covers (rests : Rests stage payload.window memory trace) :
    Covers stage trace memory := by
  have covers := rests.sound.covers
  rwa [rests.same] at covers

theorem Rests.settled (rests : Rests stage payload.window memory trace) : Settled trace := by
  refine rests.sound.settled ?_
  rw [rests.same]
  exact rests.idle

structure Extends (operation : Operation) (trace later : Ledger) : Prop where
  feedback : ∀ number ∈ feedbackAttempts later, number ∈ feedbackAttempts trace
  entered : Entered trace → Entered later
  counted : operation ≠ .completion → completions later ≤ completions trace
  decided : operation ≠ .decision → later.any isDecision → trace.any isDecision

section Extends

variable {operation : Operation} {first : Ledger}

theorem Extends.refl : Extends operation trace trace :=
  ⟨fun _ => id, id, fun _ => Nat.le_refl _, fun _ => id⟩

theorem Extends.trans (before : Extends operation first trace)
    (further : Extends operation trace later) : Extends operation first later where
  feedback := fun number member => before.feedback number (further.feedback number member)
  entered := fun entered => further.entered (before.entered entered)
  counted := fun other => Nat.le_trans (further.counted other) (before.counted other)
  decided := fun other decided => before.decided other (further.decided other decided)

theorem Extends.saved (data : StageData (List Claim)) :
    Extends operation trace (.saved data :: trace) :=
  ⟨fun _ => id, entered_saved.mpr, fun _ => Nat.le_refl _,
    fun _ decided => by simpa [isDecision] using decided⟩

theorem Extends.called (provider : Provider) (calls : Operation) :
    Extends operation trace (.emitted (.called provider calls) :: trace) :=
  ⟨fun _ => id, fun entered => entered_emitted.mpr (.inr entered), fun _ => Nat.le_refl _,
    fun _ decided => by simpa [isDecision] using decided⟩

theorem Extends.quiet {event : Event} (silent : contact? (.emitted event) = none) :
    Extends operation trace (.emitted event :: trace) := by
  cases event with
  | called provider operation => simp [contact?] at silent
  | sent provider request => simp [contact?] at silent
  | _ =>
      exact ⟨fun _ => id, fun entered => entered_emitted.mpr (.inr entered),
        fun _ => Nat.le_refl _, fun _ decided => by simpa [isDecision] using decided⟩

theorem Extends.sent {request : Request} (provider : Provider)
    (other : request.operation ≠ .feedback) :
    Extends request.operation trace (.emitted (.sent provider request) :: trace) := by
  cases request with
  | feedback decisionId => exact absurd rfl other
  | completion model repair reason =>
      exact ⟨fun _ => id, fun entered => entered_emitted.mpr (.inr entered),
        fun different => absurd rfl different, fun _ decided => by simpa [isDecision] using decided⟩
  | decision =>
      exact ⟨fun _ => id, fun entered => entered_emitted.mpr (.inr entered),
        fun _ => Nat.le_refl _, fun different => absurd rfl different⟩

end Extends

/-- What a provider call leaves: perhaps something in flight, and no attempt yet. -/
structure Called (stage : ExtractionStage) (window : ObservationWindow) (operation : Operation)
    (memory : StageData (List Claim)) (trace : Ledger) (after : StageData (List Claim))
    (later : Ledger) : Prop where
  sound : Sound stage window later
  record : record later = after
  same : Same memory after
  grows : Extends operation trace later

theorem Called.quiet {operation : Operation}
    (called : Called stage payload.window operation memory trace after later)
    {event : Event} (silent : contact? (.emitted event) = none) :
    Called stage payload.window operation memory trace after (.emitted event :: later) :=
  ⟨called.sound.quiet silent, called.record, called.same, called.grows.trans (.quiet silent)⟩

/-- What a request may be sent under: nothing is in flight, and a completion is still needed
unless it is a feedback request. -/
structure Asks (stage : ExtractionStage) (window : ObservationWindow)
    (memory : StageData (List Claim)) (trace : Ledger) (request : Request) : Prop where
  rests : Rests stage window memory trace
  needed : request.operation ≠ .feedback → memory.artifact = none ∧ memory.invalidAttempts ≤ 1

theorem units_yields {event : Event} {post : Unit → StageData (List Claim) → Ledger → Prop}
    {failed : Failure → StageData (List Claim) → Ledger → Prop}
    (silent : contact? (.emitted event) = none) (sound : Sound stage payload.window trace)
    (skipped : post () memory trace) (emitted : post () memory (.emitted event :: trace)) :
    Yields (Sound stage payload.window) (stage.units event) memory trace post failed := by
  rw [ExtractionStage.units]
  split
  · exact ⟨sound.quiet silent, emitted⟩
  · exact skipped

theorem acquire_yields {provider : Provider} {inputBytes outputTokens : Nat}
    {post : Unit → StageData (List Claim) → Ledger → Prop}
    {failed : Failure → StageData (List Claim) → Ledger → Prop}
    (sound : Sound stage payload.window trace) (acquired : post () memory trace)
    (refused : ∀ failure, failed failure memory trace) :
    Yields (Sound stage payload.window) (stage.acquire provider inputBytes outputTokens) memory
      trace post failed := by
  rw [ExtractionStage.acquire]
  split
  · rw [yields_bind, yields_ask]
    intro answer
    cases answer with
    | none => exact acquired
    | some seconds => exact ⟨sound, fun _ => refused _⟩
  · exact acquired

theorem reserve_yields {request : Request} {inputBytes outputTokens : Nat}
    {post : Unit → StageData (List Claim) → Ledger → Prop}
    {failed : Failure → StageData (List Claim) → Ledger → Prop}
    (sound : Sound stage payload.window trace)
    (covered : Sound stage payload.window (.saved { memory with
      inFlight := memory.inFlight || decide (request.operation ≠ .feedback) } :: trace))
    (reserved : post () { memory with
      inFlight := memory.inFlight || decide (request.operation ≠ .feedback) }
      (.saved { memory with
        inFlight := memory.inFlight || decide (request.operation ≠ .feedback) } :: trace))
    (exhausted : ∀ message, failed (.extractionBudgetExceeded message) memory trace) :
    Yields (Sound stage payload.window) (reserve payload request inputBytes outputTokens) memory
      trace post failed := by
  have commit : Yields (Sound stage payload.window) (do
      Worker.update fun data : StageData (List Claim) =>
        { data with inFlight := data.inFlight || decide (request.operation ≠ .feedback) }
      saveStageData) memory trace post failed := by
    rw [yields_bind, yields_update]
    exact yields_save sound covered reserved
  rw [reserve, yields_bind, recordRequest]
  split
  · rw [yields_bind, yields_ask]
    intro answer
    cases answer with
    | recorded => exact commit
    | captureStopped => exact ⟨sound, by simp [Failure.fatal]⟩
    | exhausted => exact ⟨sound, fun _ => exhausted _⟩
  · exact commit

theorem Asks.covers {request : Request} (asks : Asks stage payload.window memory trace request)
    (same : Same memory after)
    (flying : after.inFlight = true → request.operation ≠ .feedback) :
    Covers stage trace after := by
  refine asks.rests.covers.same asks.rests.idle same ?_
  intro flies
  rw [same.artifact, same.invalidAttempts]
  exact asks.needed (flying flies)

structure Accounted (stage : ExtractionStage) (window : ObservationWindow)
    (memory : StageData (List Claim)) (trace : Ledger) (request : Request)
    (after : StageData (List Claim)) (later : Ledger) : Prop where
  sound : Sound stage window later
  same : Same memory after
  flies : after.inFlight = decide (request.operation ≠ .feedback)
  saved : later = .saved after :: trace

structure Refused (stage : ExtractionStage) (window : ObservationWindow)
    (memory : StageData (List Claim)) (trace : Ledger) (after : StageData (List Claim))
    (later : Ledger) : Prop where
  rests : Rests stage window after later
  same : Same memory after
  grows : ∀ operation, Extends operation trace later

theorem Refused.called (refused : Refused stage payload.window memory trace after later)
    (operation : Operation) : Called stage payload.window operation memory trace after later :=
  ⟨refused.rests.sound, refused.rests.same, refused.same, refused.grows operation⟩

theorem Same.unsent (data : StageData (List Claim)) : Same data (unsent data) :=
  ⟨rfl, rfl, rfl, rfl, id, rfl⟩

theorem refuse_fatal {provider : Provider} {refused : Failure} (fatal : refused.fatal = true)
    (sound : Sound stage payload.window trace)
    {post : Unit → StageData (List Claim) → Ledger → Prop}
    {failed : Failure → StageData (List Claim) → Ledger → Prop} :
    Yields (Sound stage payload.window) (stage.refuse provider refused) memory trace post
      failed := by
  unfold ExtractionStage.refuse
  rw [yields_bind]
  cases refused with
  | leaseLost =>
      exact units_yields rfl sound ⟨sound, by simp [Failure.fatal]⟩
        ⟨sound.quiet rfl, by simp [Failure.fatal]⟩
  | cancellationRequested =>
      exact units_yields rfl sound ⟨sound, by simp [Failure.fatal]⟩
        ⟨sound.quiet rfl, by simp [Failure.fatal]⟩
  | _ => simp [Failure.fatal] at fatal

theorem refuse_budget {provider : Provider} {message : String}
    (rests : Rests stage payload.window memory trace) (same : Same memory after)
    {post : Unit → StageData (List Claim) → Ledger → Prop} :
    Yields (Sound stage payload.window)
      (stage.refuse provider (.extractionBudgetExceeded message)) after trace post
      (fun _ => Refused stage payload.window memory trace) := by
  have unchanged : Same memory (unsent after) := same.trans (.unsent after)
  have covers := rests.covers.same rests.idle unchanged (by simp [unsent])
  have refused : ∀ earlier : Ledger, Sound stage payload.window earlier →
      Covers stage earlier (unsent after) →
      (∀ operation, Extends operation trace earlier) →
      Yields (Sound stage payload.window) (do
        Worker.update unsent
        saveStageData
        Worker.raise (.extractionBudgetExceeded message) : Run Unit) after earlier post
        (fun _ => Refused stage payload.window memory trace) := by
    intro earlier sound covers grown
    rw [yields_bind, yields_update, yields_bind]
    have saved := sound.saved covers
    exact yields_save sound saved ⟨saved, fun _ =>
      ⟨⟨saved, rfl, rfl⟩, unchanged, fun operation => (grown operation).trans (.saved _)⟩⟩
  unfold ExtractionStage.refuse
  rw [yields_bind]
  refine units_yields rfl rests.sound (refused trace rests.sound covers fun _ => .refl) ?_
  exact refused _ (rests.sound.quiet rfl)
    (covers.emitted rfl rfl (by simp [contact?]) covers.feedback) fun _ => .quiet rfl

/-- An accounted request is on record before it is sent. -/
theorem account_yields {provider : Provider} {request : Request} {outputTokens : Nat}
    (asks : Asks stage payload.window memory trace request) :
    Yields (Sound stage payload.window)
      (stage.account codec payload provider request outputTokens) memory trace
      (fun _ => Accounted stage payload.window memory trace request)
      (fun _ => Refused stage payload.window memory trace) := by
  have rests := asks.rests
  have idle := rests.idle
  rw [ExtractionStage.account, yields_bind]
  refine acquire_yields rests.sound ?_ ?_
  · rw [yields_bind, yields_update]
    refine yields_attempt (fun _ _ _ fatal sound => refuse_fatal fatal sound) ?_
    have flies : (memory.inFlight || decide (request.operation ≠ .feedback)) =
        decide (request.operation ≠ .feedback) := by simp [idle]
    have recorded : Same memory { memory with requests := memory.requests ++
        [⟨provider, request.operation, codec.inputBytes request, outputTokens⟩] } :=
      ⟨rfl, rfl, rfl, rfl, id, rfl⟩
    have marked : Same memory { memory with
        requests := memory.requests ++
          [⟨provider, request.operation, codec.inputBytes request, outputTokens⟩]
        inFlight := memory.inFlight || decide (request.operation ≠ .feedback) } :=
      ⟨rfl, rfl, rfl, rfl, id, rfl⟩
    have covers := asks.covers marked
      fun flying => of_decide_eq_true (flies.symm.trans flying)
    have sound := rests.sound.saved covers
    exact reserve_yields rests.sound sound ⟨sound, marked, flies, rfl⟩
      fun _ _ => refuse_budget rests recorded
  · exact fun _ => ⟨rests, .refl memory, fun _ => .refl⟩

/-- Every routing and completion request is sent from a settled trace. -/
theorem exchange_yields {request : Request} {expectJson : Bool}
    (asks : Asks stage payload.window memory trace request)
    (operation : request.operation ≠ .feedback)
    (selected : Selected stage payload.window memory active) :
    Yields (Sound stage payload.window)
      (active.exchange (stage.account codec payload) request expectJson) memory trace
      (fun _ => Called stage payload.window request.operation memory trace)
      (fun _ => Called stage payload.window request.operation memory trace) := by
  unfold Adapter.exchange
  rw [yields_bind]
  refine (account_yields asks).mono ?_ fun _ _ _ _ refused => refused.called _
  rintro _ after later ⟨sound, same, flies, rfl⟩
  have counted := asks.rests.covers.sent
  rw [asks.rests.idle, ← same.length] at counted
  have sent := sound.sent (selected.same same) operation (by simpa [operation] using flies)
    (.inr asks.rests.settled) (by simpa using counted)
  rw [yields_bind, yields_emit]
  refine ⟨sent, ?_⟩
  rw [yields_bind, yields_ask]
  intro response
  have called : Called stage payload.window request.operation memory trace after
      (.emitted (.sent active.provider request) :: .saved after :: trace) :=
    ⟨sent, rfl, same, (Extends.saved after).trans (.sent active.provider operation)⟩
  exact yields_ofExcept sent (fun _ _ => called) fun _ _ => called

theorem Called.before {operation calls : Operation} {provider : Provider}
    (called : Called stage payload.window operation memory
      (.emitted (.called provider calls) :: trace) after later) :
    Called stage payload.window operation memory trace after later :=
  ⟨called.sound, called.record, called.same, (Extends.called provider calls).trans called.grows⟩

theorem Rests.called (rests : Rests stage payload.window memory trace)
    (selected : Selected stage payload.window memory active) (operation : Operation) :
    Rests stage payload.window memory (.emitted (.called active.provider operation) :: trace) :=
  ⟨rests.sound.called (rests.same ▸ selected) operation, rests.same, rests.idle⟩

theorem Rests.contacted (rests : Rests stage payload.window memory trace)
    (selected : Selected stage payload.window memory active) (operation : Operation) :
    Called stage payload.window operation memory trace memory
      (.emitted (.called active.provider operation) :: trace) :=
  ⟨(rests.called selected operation).sound, rests.same, .refl memory, .called _ _⟩

theorem complete_yields {repair : Bool} {model repairReason : Option String}
    (rests : Rests stage payload.window memory trace) (artifact : memory.artifact = none)
    (invalid : memory.invalidAttempts ≤ 1)
    (selected : Selected stage payload.window memory active) :
    Yields (Sound stage payload.window)
      (active.complete (stage.account codec payload) repair model repairReason) memory trace
      (fun _ after later => Called stage payload.window .completion memory trace after later ∧
        (active.provider = .groq → Entered later))
      (fun _ after later => Called stage payload.window .completion memory trace after later ∧
        (active.provider = .groq → Entered later)) := by
  have begun := rests.called selected .completion
  have contacted := rests.contacted selected .completion
  have entered : active.provider = .groq →
      Entered (.emitted (.called active.provider .completion) :: trace) :=
    fun groq => entered_emitted.mpr (.inl (congrArg some groq))
  unfold Adapter.complete
  rw [yields_bind, yields_emit]
  refine ⟨begun.sound, ?_⟩
  split
  · exact ⟨begun.sound, fun _ => ⟨contacted, entered⟩⟩
  · split
    · exact ⟨begun.sound, fun _ => ⟨contacted, entered⟩⟩
    · split
      · exact ⟨begun.sound, fun _ => ⟨contacted, entered⟩⟩
      · have asks : Asks stage payload.window memory _ (.completion model repair repairReason) :=
          ⟨begun, fun _ => ⟨artifact, invalid⟩⟩
        rw [yields_bind]
        refine (exchange_yields asks (by simp [Request.operation]) selected).mono ?_ ?_
        · intro envelope after later called
          have reached := fun groq => called.grows.entered (entered groq)
          exact yields_ofExcept called.sound (fun _ _ => ⟨called.before, reached⟩)
            fun _ _ => ⟨called.before, reached⟩
        · intro failure after later _ called
          exact ⟨called.before, fun groq => called.grows.entered (entered groq)⟩

theorem fallbacks_yields (rests : Rests stage payload.window memory trace)
    (artifact : memory.artifact = none) (invalid : memory.invalidAttempts ≤ 1)
    (selected : Selected stage payload.window memory active) :
    Yields (Sound stage payload.window) (active.fallbacks (stage.account codec payload)) memory
      trace (fun _ => Called stage payload.window .decision memory trace)
      (fun _ => Called stage payload.window .decision memory trace) := by
  have begun := rests.called selected .decision
  have contacted := rests.contacted selected .decision
  unfold Adapter.fallbacks
  rw [yields_bind, yields_emit]
  refine ⟨begun.sound, ?_⟩
  split
  · exact ⟨begun.sound, fun _ => contacted⟩
  · split
    · exact ⟨begun.sound, fun _ => contacted⟩
    · split
      · exact ⟨begun.sound, fun _ => contacted⟩
      · have asks : Asks stage payload.window memory _ .decision :=
          ⟨begun, fun _ => ⟨artifact, invalid⟩⟩
        rw [yields_bind]
        refine (exchange_yields asks (by simp [Request.operation]) selected).mono ?_ ?_
        · intro envelope after later called
          exact yields_ofExcept called.sound (fun _ _ => called.before) fun _ _ => called.before
        · exact fun _ _ _ _ called => called.before

theorem feedback_yields {attempt : Attempt} {decisionId : String}
    (rests : Rests stage payload.window memory trace)
    (selected : Selected stage payload.window memory active)
    (last : memory.attempts.getLast? = some attempt)
    (decided : attempt.decisionId = some decisionId) (invalid : attempt.valid = some false)
    (earlier : ∀ number ∈ feedbackAttempts trace, number < memory.attempts.length) :
    Yields (Sound stage payload.window)
      (active.feedback (stage.account codec payload) decisionId) memory trace
      (fun _ after later => Rests stage payload.window after later ∧ Same memory after)
      (fun _ after later => Rests stage payload.window after later ∧ Same memory after) := by
  have begun := rests.called selected .feedback
  have unchanged : Same memory memory := .refl memory
  unfold Adapter.feedback
  rw [yields_bind, yields_emit]
  refine ⟨begun.sound, ?_⟩
  split
  · exact ⟨begun.sound, fun _ => ⟨begun, unchanged⟩⟩
  · split
    · exact ⟨begun.sound, fun _ => ⟨begun, unchanged⟩⟩
    · split
      · exact ⟨begun.sound, fun _ => ⟨begun, unchanged⟩⟩
      · have asks : Asks stage payload.window memory _ (.feedback decisionId) :=
          ⟨begun, fun other => absurd rfl other⟩
        rw [yields_bind]
        unfold Adapter.exchange
        rw [yields_bind]
        refine (account_yields asks).mono ?_ fun _ _ _ _ refused => ⟨refused.rests, refused.same⟩
        rintro _ after later ⟨sound, same, flies, rfl⟩
        obtain ⟨kept, found, equal⟩ := same.last last
        have sent := sound.fedBack (selected.same same) found
          ((congrArg (·.decisionId) equal).trans decided) ((congrArg (·.valid) equal).trans invalid)
          (fun number member => by
            rw [record_saved, same.length]
            exact earlier number member)
        have rests : Rests stage payload.window after _ := ⟨sent, rfl, flies.trans rfl⟩
        rw [yields_bind, yields_emit]
        refine ⟨sent, ?_⟩
        rw [yields_bind, yields_ask]
        intro response
        exact yields_ofExcept sent (fun _ _ => ⟨rests, same⟩) fun _ _ => ⟨rests, same⟩

end Calls

section Waits

variable {stage : ExtractionStage} {codec : Codec} {payload : Payload} {trace later : Ledger}
  {memory after : StageData (List Claim)} {active : Adapter}

theorem wait_yields {β : Type} {provider : Provider} {pending : Run β}
    {post : β → StageData (List Claim) → Ledger → Prop}
    {failed : StageData (List Claim) → Ledger → Prop}
    (sound : Sound stage payload.window trace)
    (closed : ∀ after later event, contact? (.emitted event) = none →
      failed after later → failed after (.emitted event :: later))
    (yields : Yields (Sound stage payload.window) pending memory trace post fun _ => failed) :
    Yields (Sound stage payload.window) (stage.wait provider pending) memory trace post
      fun _ => failed := by
  unfold ExtractionStage.wait
  refine yields_attempt ?_ (yields_waitForProvider sound (yields.mono (fun _ _ _ => id) ?_))
  · intro failure after later fatal sound
    cases failure with
    | leaseLost => exact ⟨sound, by simp [Failure.fatal]⟩
    | cancellationRequested => exact ⟨sound, by simp [Failure.fatal]⟩
    | _ => simp [Failure.fatal] at fatal
  · intro failure after later _ holds sound
    cases failure with
    | providerCooldown seconds =>
        simp only
        rw [yields_bind]
        refine units_yields rfl sound ⟨sound, fun _ => holds⟩ ?_
        exact ⟨sound.quiet rfl, fun _ => closed after later _ rfl holds⟩
    | _ => exact ⟨sound, fun _ => holds⟩

theorem Rests.save {post : Unit → StageData (List Claim) → Ledger → Prop}
    {failed : Failure → StageData (List Claim) → Ledger → Prop}
    (rests : Rests stage payload.window memory trace) (same : Same memory after)
    (idle : after.inFlight = false)
    (holds : Rests stage payload.window after (.saved after :: trace) →
      post () after (.saved after :: trace)) :
    Yields (Sound stage payload.window) saveStageData after trace post failed := by
  have covers := rests.covers.same rests.idle same (by simp [idle])
  have saved := rests.sound.saved covers
  exact yields_save rests.sound saved (holds ⟨saved, rfl, idle⟩)

structure Changed (stage : ExtractionStage) (window : ObservationWindow)
    (memory after : StageData (List Claim)) (later : Ledger) : Prop where
  resting : ∃ before, Rests stage window before later ∧ Same memory before ∧ Same before after
  idle : after.inFlight = false

/-- The handlers of the feedback call change the last attempt's diagnostic, what blocks the
stage and when it may go on. -/
theorem feedbackCall_yields {attempt : Attempt} {decisionId : String}
    (rests : Rests stage payload.window memory trace)
    (selected : Selected stage payload.window memory active)
    (last : memory.attempts.getLast? = some attempt)
    (decided : attempt.decisionId = some decisionId) (invalid : attempt.valid = some false)
    (earlier : ∀ number ∈ feedbackAttempts trace, number < memory.attempts.length)
    {failed : Failure → StageData (List Claim) → Ledger → Prop} :
    Yields (Sound stage payload.window)
      (feedbackCall active (stage.account codec payload) decisionId) memory trace
      (fun _ => Changed stage payload.window memory) failed := by
  unfold feedbackCall
  refine yields_attempt ?_ (yields_waitForProvider rests.sound
    ((feedback_yields rests selected last decided invalid earlier).mono ?_ ?_))
  · intro failure after later fatal sound
    simp only [fatal, if_true]
    exact ⟨sound, by simp [fatal]⟩
  · rintro _ after later ⟨rests, same⟩
    exact ⟨⟨after, rests, same, .marked .sent after⟩, rests.idle⟩
  · rintro failure after later handled ⟨rests, same⟩ _
    simp only [handled, Bool.false_eq_true, if_false]
    have failedCall : Same after (after.marked .failed) := .marked .failed after
    split
    · exact ⟨⟨after, rests, same, .marked .unknown after⟩, rests.idle⟩
    · rw [yields_bind, yields_update]
      split
      · exact ⟨⟨after, rests, same, failedCall.trans ⟨rfl, rfl, rfl, rfl, id, rfl⟩⟩, rests.idle⟩
      · rw [yields_bind, yields_ask]
        intro now
        exact ⟨⟨after, rests, same, failedCall.trans ⟨rfl, rfl, rfl, rfl, id, rfl⟩⟩, rests.idle⟩
      · exact ⟨⟨after, rests, same, failedCall⟩, rests.idle⟩

theorem giveFeedback_yields {attempt : Attempt}
    (rests : Rests stage payload.window memory trace)
    (selected : Selected stage payload.window memory active)
    (last : memory.attempts.getLast? = some attempt) (invalid : attempt.valid = some false)
    (earlier : ∀ number ∈ feedbackAttempts trace, number < memory.attempts.length)
    {failed : Failure → StageData (List Claim) → Ledger → Prop} :
    Yields (Sound stage payload.window) (giveFeedback active (stage.account codec payload))
      memory trace (fun _ => Changed stage payload.window memory) failed := by
  have marks (feedback : Feedback) :
      Changed stage payload.window memory (memory.marked feedback) trace :=
    ⟨⟨memory, rests, .refl memory, .marked feedback memory⟩, rests.idle⟩
  unfold giveFeedback
  rw [yields_bind, yields_read]
  split
  · exact marks .notApplicable
  · split
    · exact marks .missing
    · exact marks .missing
    · rename_i decisionId _ decided
      rw [yields_bind, yields_update, yields_bind]
      have unknown : Same memory (memory.marked .unknown) := .marked .unknown memory
      refine rests.save unknown rests.idle fun saved => ?_
      obtain ⟨kept, found, equal⟩ := unknown.last last
      have named : attempt.decisionId = some decisionId := by simpa [last] using decided
      have before : ∀ number ∈ feedbackAttempts trace,
          number < (memory.marked .unknown).attempts.length := by
        rw [unknown.length]
        exact earlier
      refine (feedbackCall_yields saved (selected.same unknown) found
        ((congrArg (·.decisionId) equal).trans named) ((congrArg (·.valid) equal).trans invalid)
        before).mono ?_ fun _ _ _ _ holds => holds
      rintro stop after later ⟨⟨before, resting, same, change⟩, idle⟩
      exact ⟨⟨before, resting, unknown.trans same, change⟩, idle⟩

theorem invalidFeedback_yields {attempt : Attempt}
    (rests : Rests stage payload.window memory trace)
    (selected : Selected stage payload.window memory active)
    (last : memory.attempts.getLast? = some attempt) (invalid : attempt.valid = some false)
    (earlier : ∀ number ∈ feedbackAttempts trace, number < memory.attempts.length) :
    Yields (Sound stage payload.window)
      (invalidFeedback active (stage.account codec payload)) memory trace
      (fun _ after later => Rests stage payload.window after later ∧ Same memory after)
      fun _ _ _ => True := by
  unfold invalidFeedback
  rw [yields_bind]
  refine (giveFeedback_yields rests selected last invalid earlier).mono ?_ fun _ _ _ _ => id
  rintro stop after later ⟨⟨before, resting, same, change⟩, idle⟩
  rw [yields_bind]
  refine resting.save change idle fun saved => ?_
  rw [yields_bind, yields_read]
  split
  · split
    · exact ⟨saved.sound, fun _ => trivial⟩
    · exact ⟨saved, same.trans change⟩
  · exact ⟨saved, same.trans change⟩

end Waits

end Ovrly.Extraction
