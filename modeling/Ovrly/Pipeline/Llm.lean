import Ovrly.Crash
import Ovrly.Extraction.Grounding
import Ovrly.Jobs.Queue

/-!
Extraction transports (`pipeline/llm.py`) and the durable record of the stages that use them.

What a provider answers, whether the lease still holds and what the clock reads are questions
to the environment. Decoded JSON is given by the fields the adapters read, each of them
missing, of another type, or given. Times are whole seconds.
-/

namespace Ovrly.Pipeline

open Crash Ovrly.Reports Ovrly.Extraction
open Ovrly.Jobs (RetryClass)

inductive Provider
  | scholarxiv
  | groq
  deriving DecidableEq, Repr

def Provider.text : Provider → String
  | .scholarxiv => "scholarxiv"
  | .groq => "groq"

inductive Task
  | claimExtraction
  | reconciliation
  | assessment
  deriving DecidableEq, Repr

/-- The payload of a provider request, up to what every request of its kind contains. -/
inductive Request
  | completion (model : Option String) (repair : Bool) (repairReason : Option String)
  | decision
  | feedback (decisionId : String)
  deriving DecidableEq, Repr

inductive Operation
  | completion
  | decision
  | feedback
  deriving DecidableEq, Repr

def Request.operation : Request → Operation
  | .completion .. => .completion
  | .decision => .decision
  | .feedback _ => .feedback

structure Usage where
  promptTokens : Option Nat := none
  completionTokens : Option Nat := none
  totalTokens : Option Nat := none
  deriving DecidableEq, Repr

structure Provenance where
  model : String
  decisionId : Option String := none
  usage : Usage := {}
  deriving DecidableEq, Repr

/-- The exceptions a stage raises or lets pass. -/
inductive Failure
  | rateLimited (retryAfterSeconds : Option Int)
  | providerCooldown (retryAfterSeconds : Option Int)
  | gatewayFailure (message : String)
  | unknownOutcome (message : String)
  | nonRetriableInput (message : String)
  | extractionInvalid (invalid : ExtractionInvalid) (provenance : Option Provenance)
  | extractionUnavailable (message : String)
  | extractionDenied (message : String)
  | invalidCooldown (message : String)
  | extractionBudgetExceeded (message : String)
  | leaseLost
  | cancellationRequested
  deriving DecidableEq

/-- `retry_after_seconds` of the classes derived from `RateLimited`. -/
def Failure.rateLimit? : Failure → Option (Option Int)
  | .rateLimited seconds | .providerCooldown seconds => some seconds
  | _ => none

/-- The retry class of `RateLimited` and `GatewayFailure`, which the stages recover from. -/
def Failure.unavailable? : Failure → Option RetryClass
  | .rateLimited _ | .providerCooldown _ => some .rateLimited
  | .gatewayFailure _ => some .transient
  | _ => none

/-- `(repair_reason or message)[:REPAIR_REASON_LIMIT]` -/
def reasonOf (invalid : ExtractionInvalid) : String :=
  let text := match invalid.repairReason with
    | none | some "" => invalid.message
    | some reason => reason
  String.ofList (text.toList.take 200)

section Responses

inductive Field (α : Type)
  | missing
  | other
  | given (value : α)
  deriving DecidableEq

structure UsageFields where
  promptTokens : Field Int := .missing
  completionTokens : Field Int := .missing
  totalTokens : Field Int := .missing
  deriving DecidableEq

structure Envelope where
  model : Field String := .missing
  decisionId : Field String := .missing
  usage : Field UsageFields := .missing
  /-- The content and finish reason of the only choice. -/
  choice : Option (String × String) := none
  degraded : Field Bool := .missing
  preset : Field String := .missing
  fallbacks : Option (List String) := none
  deriving DecidableEq

inductive Body
  | oversized
  | undecodable
  | object (envelope : Envelope)
  deriving DecidableEq

inductive Response
  | lost
  | answered (status : Nat) (retryAfter : Field Int) (body : Body)
  deriving DecidableEq

structure Completion where
  content : String
  finishReason : String
  model : String
  decisionId : Option String
  usage : Usage
  provider : Provider
  deriving DecidableEq

end Responses

inductive Transport
  | disabled
  | unconfigured
  | ready
  deriving DecidableEq, Repr

structure Adapter where
  provider : Provider
  task : Task
  allowedModels : List String
  maxTokens : Nat
  recoveryAttempts : Nat
  transport : Transport := .ready

/-- What `_exchange` makes of a response. -/
def received (expectJson : Bool) : Response → Except Failure Envelope
  | .lost => .error (.unknownOutcome "Scholarxiv completion outcome is unknown")
  | .answered status retryAfter body =>
      if status = 429 then
        match retryAfter with
        | .missing => .error (.providerCooldown none)
        | .other => .error (.invalidCooldown "Invalid provider cooldown")
        | .given seconds =>
            if 0 ≤ seconds ∧ seconds ≤ 86400 then .error (.providerCooldown (some seconds))
            else .error (.invalidCooldown "Invalid provider cooldown")
      else if status = 502 then .error (.gatewayFailure "Upstream completion failed")
      else if status = 401 ∨ status = 403 then
        .error (.extractionDenied "Provider authentication or permission denied")
      else if status ≠ 200 ∧ ¬(expectJson = false ∧ 200 ≤ status ∧ status < 300) then
        .error (.extractionUnavailable "Scholarxiv did not complete extraction")
      else
        match body with
        | .oversized => .error (.extractionInvalid ⟨"Completion exceeds the response limit", none⟩ none)
        | .undecodable =>
            if expectJson then .error (.extractionInvalid ⟨"Invalid provider response", none⟩ none)
            else .ok {}
        | .object envelope => if expectJson then .ok envelope else .ok {}

def counter : Field Int → Option (Option Nat)
  | .missing => some none
  | .other => none
  | .given value => if 0 ≤ value ∧ value ≤ 2147483647 then some (some value.toNat) else none

def UsageFields.counters? (fields : UsageFields) : Option Usage := do
  let promptTokens ← counter fields.promptTokens
  let completionTokens ← counter fields.completionTokens
  let totalTokens ← counter fields.totalTokens
  return { promptTokens, completionTokens, totalTokens }

def Adapter.decision (adapter : Adapter) (envelope : Envelope) : Option (Option String) :=
  match adapter.provider, envelope.decisionId with
  | .groq, _ | _, .missing => some none
  | _, .other => none
  | _, .given id =>
      if 200 < id.length then none
      else if blank id.toList then some none
      else some (some id)

def Adapter.completion (adapter : Adapter) (envelope : Envelope) : Except Failure Completion :=
  let invalid (provenance : Option Provenance) : Except Failure Completion :=
    .error (.extractionInvalid ⟨"Invalid completion envelope", none⟩ provenance)
  match envelope.model with
  | .missing => invalid none
  | .other => .error (.extractionUnavailable "The executing model is outside the verified pool")
  | .given model =>
      if model ∉ adapter.allowedModels then
        .error (.extractionUnavailable "The executing model is outside the verified pool")
      else
        match adapter.decision envelope with
        | none => invalid (some { model })
        | some decisionId =>
            let usage := match envelope.usage with
              | .missing => some ({} : Usage)
              | .other => none
              | .given fields => fields.counters?
            match usage with
            | none => invalid (some { model, decisionId })
            | some usage =>
                match envelope.choice with
                | none => invalid (some { model, decisionId, usage })
                | some (content, finishReason) =>
                    .ok { content, finishReason, model, decisionId, usage,
                          provider := adapter.provider }

def Adapter.preset (adapter : Adapter) : String :=
  if adapter.task = .claimExtraction then "cheap" else "quality"

/-- The routing decision of an envelope, where it satisfies the verified policy. -/
def Adapter.routed (adapter : Adapter) (envelope : Envelope) : Except Failure (List String) :=
  let refused := .error
    (.extractionUnavailable "Routing decision does not satisfy the verified policy")
  match envelope.model, envelope.fallbacks with
  | .given model, some models =>
      if envelope.degraded = .given false ∧ envelope.preset = .given adapter.preset ∧
          model ∈ adapter.allowedModels ∧ models.length ≤ 20 ∧
          (∀ model ∈ models, model ∈ adapter.allowedModels) ∧ models.Nodup then
        .ok models
      else refused
  | _, _ => refused

section Record

inductive Feedback
  | notApplicable
  | missing
  | unknown
  | failed
  | sent
  deriving DecidableEq, Repr

def Feedback.text : Feedback → String
  | .notApplicable => "not_applicable"
  | .missing => "feedback_missing"
  | .unknown => "feedback_unknown"
  | .failed => "feedback_failed"
  | .sent => "feedback_sent"

inductive FeedbackBlock
  | extractionDenied
  | invalidCooldown
  | extractionBudgetExceeded
  deriving DecidableEq, Repr

structure Attempt where
  repair : Bool
  provider : Provider
  model : Option String := none
  decisionId : Option String := none
  usage : Usage := {}
  thinkingLeaked : Bool := false
  fenced : Bool := false
  valid : Option Bool := none
  outcome : Option RetryClass := none
  reason : Option String := none
  feedback : Option Feedback := none
  deriving DecidableEq

structure SentRequest where
  provider : Provider
  operation : Operation
  inputBytes : Nat
  maxOutputTokens : Nat
  deriving DecidableEq, Repr

/-- `stage_data` of a stage whose artifact has type `α`. -/
structure StageData (α : Type) where
  requests : List SentRequest := []
  inFlight : Bool := false
  budgetExhausted : Bool := false
  attempts : List Attempt := []
  feedbackBlocked : Option FeedbackBlock := none
  provider : Option Provider := none
  availabilityFailures : Nat := 0
  notBefore : Option Int := none
  needsRoute : Bool := false
  fallbacks : Option (List String) := none
  routingFailure : Option RetryClass := none
  model : Option String := none
  artifact : Option α := none
  promptVersion : Option String := none
  schemaVersion : Option Nat := none
  deriving DecidableEq

def StageData.invalidAttempts {α : Type} (data : StageData α) : Nat :=
  data.attempts.countP (·.valid == some false)

end Record

section Worker

inductive Event
  | called (provider : Provider) (operation : Operation)
  | sent (provider : Provider) (request : Request)
  | released (provider : Provider)
  | blocked (provider : Provider) (seconds : Option Int)
  deriving DecidableEq, Repr

inductive Query
  | heartbeat
  | owned
  | previousReport
  | now
  | admission (provider : Provider) (inputBytes outputTokens : Nat)
  | reservation (inputBytes outputTokens : Nat)
  | fence
  | response (provider : Provider) (request : Request)
  deriving DecidableEq, Repr

inductive Heartbeat
  | renewed
  | lost
  | cancelRequested
  deriving DecidableEq, Repr

inductive Reservation
  | recorded
  | captureStopped
  | exhausted
  deriving DecidableEq, Repr

structure PreviousReport where
  provisional : Bool
  reconciled : Bool
  deriving DecidableEq, Repr

abbrev Query.Answer : Query → Type
  | .heartbeat => Heartbeat
  | .owned => Bool
  | .previousReport => Option PreviousReport
  | .now => Int
  /- The wait a refused acquisition asks for. -/
  | .admission .. => Option Int
  | .reservation .. => Reservation
  | .fence => Bool
  | .response .. => Response

abbrev Signature (α : Type) : Crash.Signature where
  Data := StageData α
  Event := Event
  Query := Query
  Answer := Query.Answer

abbrev Stage (α β : Type) := Worker (Signature α) (StageData α) Failure β

abbrev RequestAccount (α : Type) := Provider → Request → Nat → Stage α Unit

variable {α β : Type}

def ofExcept : Except Failure β → Stage α β
  | .ok value => pure value
  | .error failure => Worker.raise failure

def heartbeat : Stage α Unit := do
  match ← Worker.ask (S := Signature α) .heartbeat with
  | .renewed => pure ()
  | .lost => Worker.raise .leaseLost
  | .cancelRequested => Worker.raise .cancellationRequested

/-- `queue.save_stage_data`, fenced on the lease. -/
def saveStageData : Stage α Unit := do
  let held : Bool ← Worker.ask (S := Signature α) .fence
  if held then
    let data ← Worker.read
    Worker.save (S := Signature α) data
  else Worker.raise .leaseLost

/-- A renewal that fails while the call is pending cancels it, which stops the worker. -/
def waitForProvider (pending : Stage α β) : Stage α β := do
  heartbeat
  pending

def Adapter.exchange (adapter : Adapter) (account : RequestAccount α) (request : Request)
    (expectJson : Bool) : Stage α Envelope := do
  account adapter.provider request
    (if request.operation = .completion then adapter.maxTokens else 0)
  Worker.emit (S := Signature α) (.sent adapter.provider request)
  let response : Response ← Worker.ask (S := Signature α) (.response adapter.provider request)
  ofExcept (received expectJson response)

def Adapter.complete (adapter : Adapter) (account : RequestAccount α) (repair : Bool)
    (model : Option String) (repairReason : Option String) : Stage α Completion := do
  Worker.emit (S := Signature α) (.called adapter.provider .completion)
  if adapter.transport = .disabled then
    Worker.raise (.extractionUnavailable "Hosted extraction is disabled")
  else if ∃ name ∈ model, name ∉ adapter.allowedModels then
    Worker.raise (.extractionUnavailable "The requested model is outside the verified pool")
  else if adapter.transport = .unconfigured then
    Worker.raise (.extractionUnavailable "Scholarxiv is not configured")
  else
    let envelope ← adapter.exchange account (.completion model repair repairReason) true
    ofExcept (adapter.completion envelope)

def Adapter.fallbacks (adapter : Adapter) (account : RequestAccount α) :
    Stage α (List String) := do
  Worker.emit (S := Signature α) (.called adapter.provider .decision)
  if adapter.transport = .disabled then
    Worker.raise (.extractionUnavailable "Hosted extraction is disabled")
  else if adapter.provider ≠ .scholarxiv then
    Worker.raise (.extractionUnavailable "This provider has no permitted routing fallback")
  else if adapter.transport = .unconfigured then
    Worker.raise (.extractionUnavailable "Scholarxiv is not configured")
  else
    let envelope ← adapter.exchange account .decision true
    ofExcept (adapter.routed envelope)

def Adapter.feedback (adapter : Adapter) (account : RequestAccount α) (decisionId : String) :
    Stage α Unit := do
  Worker.emit (S := Signature α) (.called adapter.provider .feedback)
  if adapter.transport = .disabled then
    Worker.raise (.extractionUnavailable "Hosted extraction is disabled")
  else if adapter.provider ≠ .scholarxiv ∨ blank decisionId.toList ∨ 200 < decisionId.length then
    Worker.raise (.extractionUnavailable "No usable Scholarxiv decision identifier")
  else if adapter.transport = .unconfigured then
    Worker.raise (.extractionUnavailable "Scholarxiv is not configured")
  else
    let _ ← adapter.exchange account (.feedback decisionId) false
    pure ()

end Worker

end Ovrly.Pipeline
