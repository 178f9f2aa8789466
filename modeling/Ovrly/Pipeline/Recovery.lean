import Ovrly.Pipeline.Llm

/-!
The invalid-output feedback that the stages share (`pipeline/provider_recovery.py`).
-/

namespace Ovrly.Pipeline

open Crash

variable {α : Type}

def markLast (feedback : Feedback) : List Attempt → List Attempt
  | [] => []
  | [attempt] => [{ attempt with feedback := some feedback }]
  | attempt :: rest => attempt :: markLast feedback rest

def Attempt.unmarked (attempt : Attempt) : Attempt := { attempt with feedback := none }

theorem markLast_unmarked (feedback : Feedback) (attempts : List Attempt) :
    (markLast feedback attempts).map Attempt.unmarked = attempts.map Attempt.unmarked := by
  induction attempts with
  | nil => rfl
  | cons attempt rest ih =>
      cases rest with
      | nil => rfl
      | cons second later =>
          simp only [markLast, List.map_cons, ih]

def StageData.marked (feedback : Feedback) (data : StageData α) : StageData α :=
  { data with attempts := markLast feedback data.attempts }

def Failure.block? : Failure → Option FeedbackBlock
  | .extractionDenied _ => some .extractionDenied
  | .invalidCooldown _ => some .invalidCooldown
  | .extractionBudgetExceeded _ => some .extractionBudgetExceeded
  | _ => none

/-- The exceptions that are no `RetryableError`. -/
def Failure.fatal : Failure → Bool
  | .leaseLost | .cancellationRequested => true
  | _ => false

/-- The feedback call and the handlers of its failures; the result is what stops the stage. -/
def feedbackCall (active : Adapter) (account : RequestAccount α) (decisionId : String) :
    Stage α (Option Failure) := do
  match ← (waitForProvider (active.feedback account decisionId)).attempt with
  | .ok () =>
      Worker.update (StageData.marked .sent)
      pure none
  | .error failure =>
      if failure.fatal then Worker.raise failure
      else
        match failure with
        | .unknownOutcome _ =>
            Worker.update (StageData.marked .unknown)
            pure none
        | failure =>
            Worker.update (StageData.marked .failed)
            match failure.block?, failure.rateLimit? with
            | some block, _ =>
                Worker.update fun data => { data with feedbackBlocked := some block }
                pure (some failure)
            | none, some seconds =>
                let now : Int ← Worker.ask (S := Signature α) .now
                Worker.update fun data => { data with notBefore := some (now + seconds.getD 0) }
                pure (some failure)
            | none, none => pure none

def giveFeedback (active : Adapter) (account : RequestAccount α) : Stage α (Option Failure) := do
  let data ← Worker.read
  if active.provider ≠ .scholarxiv then do
    Worker.update (StageData.marked .notApplicable)
    pure none
  else
    match data.attempts.getLast? >>= (·.decisionId) with
    | none | some "" => do
        Worker.update (StageData.marked .missing)
        pure none
    | some decisionId => do
        Worker.update (StageData.marked .unknown)
        saveStageData
        feedbackCall active account decisionId

def invalidFeedback (active : Adapter) (account : RequestAccount α) : Stage α Unit := do
  let stop ← giveFeedback active account
  saveStageData
  let data ← Worker.read
  match stop with
  | some failure => if data.invalidAttempts < 2 then Worker.raise failure else pure ()
  | none => pure ()

end Ovrly.Pipeline
