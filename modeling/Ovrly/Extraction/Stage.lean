import Ovrly.Pipeline.Recovery

/-!
The extraction stage: one window, with durable attempts (`ExtractionStage.run`).

The functions over JSON text that the stage calls are parameters. The loop over completions
takes fuel; four iterations are enough for every run.
-/

namespace Ovrly.Extraction

open Crash Ovrly.Reports Ovrly.Pipeline

structure Payload where
  investigationId : Uuid
  window : ObservationWindow
  incremental : Bool := false

structure Flags where
  thinkingLeaked : Bool
  fenced : Bool
  deriving DecidableEq, Repr

def within (text needle : String) : Bool := decide (needle.toList <:+: text.toList)

structure Codec where
  /-- The size of the JSON payload of a request. -/
  inputBytes : Request → Nat
  parseCompletion :
    Completion → List Observation → Except ExtractionInvalid (List Occurrence × Flags)
  identify : Uuid → List (String × Nat × Nat) → String
  extractionKey : Payload → String

structure ExtractionStage where
  llm : Adapter
  groq : Option Adapter := none
  admission : Bool := false
  llmTask : llm.task = .claimExtraction
  llmProvider : llm.provider = .scholarxiv
  groqTask : ∀ adapter ∈ groq, adapter.task = .claimExtraction
  groqProvider : ∀ adapter ∈ groq, adapter.provider = .groq

structure StageResult where
  data : StageData (List Claim)
  claims : List Claim
  processingAttempts : List ProcessingAttempt

abbrev Run (β : Type) := Stage (List Claim) β

def provenanceOf (attempt : Attempt) : ProcessingAttempt where
  provider := attempt.provider.text
  model := attempt.model
  decisionId := attempt.decisionId
  task := "claim_extraction"
  outcome := match attempt.outcome with
    | some .rateLimited => "rate_limited"
    | some .transient => "transient"
    | some .nonRetriableInput => "non_retriable_input"
    | some .invalidModelSchema => "invalid_model_schema"
    | some .unknownOutcome => "unknown_outcome"
    | none => if attempt.valid = some true then "valid" else "invalid"
  promptTokens := attempt.usage.promptTokens
  completionTokens := attempt.usage.completionTokens
  totalTokens := attempt.usage.totalTokens
  thinkingLeaked := attempt.thinkingLeaked
  fenced := attempt.fenced
  repair := attempt.repair
  feedback := attempt.feedback.map Feedback.text

variable (stage : ExtractionStage) (codec : Codec) (payload : Payload)

def onGroq (data : StageData (List Claim)) : StageData (List Claim) :=
  { data with provider := some .groq, model := none, needsRoute := false,
              availabilityFailures := 0 }

def ExtractionStage.useGroq : Run Adapter := do
  let data ← Worker.read
  match stage.groq with
  | some groq =>
      if payload.window.groqProcessingApproved = false ∨ data.provider = some .groq ∨
          data.attempts.any (·.valid == some false) then
        Worker.raise (.extractionUnavailable "No authorized availability fallback remains")
      else do
        Worker.update onGroq
        pure groq
  | none => Worker.raise (.extractionUnavailable "No authorized availability fallback remains")

def ExtractionStage.units (event : Event) : Run Unit :=
  if stage.admission then Worker.emit (S := Signature (List Claim)) event else pure ()

/-- `_wait`: a cooldown the provider asks for holds its shared buckets too. -/
def ExtractionStage.wait {β : Type} (provider : Provider) (pending : Run β) : Run β := do
  match ← (waitForProvider pending).attempt with
  | .ok value => pure value
  | .error (.providerCooldown seconds) => do
      stage.units (.blocked provider seconds)
      Worker.raise (.providerCooldown seconds)
  | .error failure => Worker.raise failure

/-- Shared provider units are taken first; nothing is recorded yet. -/
def ExtractionStage.acquire (provider : Provider) (inputBytes outputTokens : Nat) : Run Unit :=
  if stage.admission then do
    match ← Worker.ask (S := Signature (List Claim))
        (.admission provider inputBytes outputTokens) with
    | some seconds => Worker.raise (.rateLimited (some seconds))
    | none => pure ()
  else pure ()

def recordRequest (inputBytes outputTokens : Nat) : Run Unit :=
  if payload.incremental then do
    match ← Worker.ask (S := Signature (List Claim)) (.reservation inputBytes outputTokens) with
    | .captureStopped => Worker.raise .cancellationRequested
    | .exhausted =>
        Worker.raise
          (.extractionBudgetExceeded "Extraction budget exhausted; reconciliation is reserved")
    | .recorded => pure ()
  else pure ()

/-- The transaction of `account`: the in-flight mark becomes durable only with an admitted
request, just before the send. -/
def reserve (request : Request) (inputBytes outputTokens : Nat) : Run Unit := do
  recordRequest payload inputBytes outputTokens
  Worker.update fun data =>
    { data with inFlight := data.inFlight || decide (request.operation ≠ .feedback) }
  saveStageData

def unsent (data : StageData (List Claim)) : StageData (List Claim) :=
  { data with requests := data.requests.dropLast, inFlight := false, budgetExhausted := true }

def ExtractionStage.refuse (provider : Provider) (refused : Failure) : Run Unit := do
  stage.units (.released provider)
  match refused with
  | .extractionBudgetExceeded _ => do
      Worker.update unsent
      saveStageData
      Worker.raise refused
  | _ => Worker.raise refused

def ExtractionStage.account : RequestAccount (List Claim) :=
  fun provider request outputTokens => do
    let inputBytes := codec.inputBytes request
    stage.acquire provider inputBytes outputTokens
    Worker.update fun data =>
      { data with requests := data.requests ++
          [⟨provider, request.operation, inputBytes, outputTokens⟩] }
    match ← (reserve payload request inputBytes outputTokens).attempt with
    | .ok () => pure ()
    | .error refused => stage.refuse provider refused

def ExtractionStage.active : Run Adapter := do
  let data ← Worker.read
  if data.provider = some .groq then
    match stage.groq with
    | some groq =>
        if payload.window.groqProcessingApproved then pure groq
        else
          Worker.raise (.extractionUnavailable "Previously selected provider is not authorized")
    | none =>
        Worker.raise (.extractionUnavailable "Previously selected provider is not authorized")
  else pure stage.llm

def recordedRoute (models : List String) (routingFailure : Option Ovrly.Jobs.RetryClass)
    (data : StageData (List Claim)) : StageData (List Claim) :=
  { data with
    fallbacks := some models
    routingFailure := routingFailure <|> data.routingFailure
    inFlight := false }

def ExtractionStage.askFallbacks : Run Unit := do
  match ← (stage.wait stage.llm.provider
      (stage.llm.fallbacks (stage.account codec payload))).attempt with
  | .ok models => do
      Worker.update (recordedRoute models none)
      saveStageData
  | .error failure =>
      match failure.unavailable? with
      | some retryClass => do
          Worker.update (recordedRoute [] (some retryClass))
          saveStageData
      | none => Worker.raise failure

def ExtractionStage.takeFallback : Run Unit := do
  let data ← Worker.read
  match data.fallbacks.getD [] with
  | [] => do
      let _ ← stage.useGroq payload
      Worker.update fun data => { data with needsRoute := false }
      saveStageData
  | model :: rest => do
      Worker.update fun data =>
        { data with model := some model, fallbacks := some rest, needsRoute := false }
      saveStageData

def ExtractionStage.route : Run Unit := do
  let data ← Worker.read
  if data.fallbacks.isNone then do
    stage.askFallbacks codec payload
    stage.takeFallback payload
  else stage.takeFallback payload

/-- Enter Groq once the recovery attempts are used up. -/
def ExtractionStage.enterGroq : Run Adapter := do
  let groq ← stage.useGroq payload
  Worker.update fun data => { data with notBefore := none }
  saveStageData
  pure groq

def ExtractionStage.recover (active : Adapter) : Run Unit := do
  let data ← Worker.read
  if active.recoveryAttempts < data.availabilityFailures then do
    let _ ← stage.enterGroq payload
    pure ()
  else pure ()

def ExtractionStage.reroute : Run Unit := do
  let data ← Worker.read
  let now : Int ← Worker.ask (S := Signature (List Claim)) .now
  if 0 < data.notBefore.getD 0 - now then
    Worker.raise (.providerCooldown (some (data.notBefore.getD 0 - now)))
  else if data.needsRoute then stage.route codec payload
  else pure ()

def ExtractionStage.resume : Run Adapter := do
  let data ← Worker.read
  if 2 ≤ data.invalidAttempts then
    Worker.raise (.extractionInvalid ⟨"One repair exhausted", none⟩ none)
  else
    match data.feedbackBlocked with
    | some .extractionDenied =>
        Worker.raise
          (.extractionDenied "Feedback authorization denied; no further inference permitted")
    | some _ =>
        Worker.raise
          (.extractionUnavailable "Feedback cooldown invalid; no further inference permitted")
    | none => do
        let active ← stage.active payload
        stage.recover payload active
        stage.reroute codec payload
        stage.active payload

/-- The attempt a completion makes of a request, and the claims if it is valid. -/
def judge (requested : Attempt) (completion : Completion) :
    Attempt × Except ExtractionInvalid (List Claim) :=
  let content := completion.content
  let attempt := { requested with
    model := some completion.model, decisionId := completion.decisionId,
    usage := completion.usage
    thinkingLeaked := within content "<think>" || within content "</think>"
    fenced := within content "```" }
  match codec.parseCompletion completion payload.window.observations with
  | .error invalid => (attempt, .error invalid)
  | .ok (output, flags) =>
      ({ attempt with thinkingLeaked := flags.thinkingLeaked, fenced := flags.fenced },
        groundedClaims codec.identify output payload.window payload.investigationId)

/-- `not_before` of a rate limit. -/
def holdBack (failure : Failure) : Run Unit :=
  match failure.rateLimit? with
  | some seconds => do
      let now : Int ← Worker.ask (S := Signature (List Claim)) .now
      Worker.update fun data => { data with notBefore := some (now + seconds.getD 0) }
  | none => pure ()

def recordedUnavailable (active : Adapter) (requested : Attempt) (failure : Failure)
    (retryClass : Ovrly.Jobs.RetryClass) (data : StageData (List Claim)) :
    StageData (List Claim) :=
  { data with
    attempts := data.attempts ++ [{ requested with outcome := some retryClass }]
    inFlight := false
    needsRoute := failure.rateLimit?.isNone && active.provider == .scholarxiv
    availabilityFailures := data.availabilityFailures + 1 }

/-- Record that the provider was unavailable; the result says whether recovery is used up. -/
def recordUnavailable (active : Adapter) (requested : Attempt) (failure : Failure)
    (retryClass : Ovrly.Jobs.RetryClass) : Run Bool := do
  Worker.update (recordedUnavailable active requested failure retryClass)
  holdBack failure
  saveStageData
  let data ← Worker.read
  return active.recoveryAttempts < data.availabilityFailures

def rejected (attempt : Attempt) (invalid : ExtractionInvalid)
    (provenance : Option Provenance) : Attempt :=
  let attempt := match provenance with
    | none => attempt
    | some known => { attempt with
        model := some known.model, decisionId := known.decisionId, usage := known.usage }
  { attempt with reason := some (reasonOf invalid), valid := some false }

def recordedAttempt (attempt : Attempt) (data : StageData (List Claim)) : StageData (List Claim) :=
  { data with attempts := data.attempts ++ [attempt], inFlight := false }

def ExtractionStage.reject (active : Adapter) (attempt : Attempt) (invalid : ExtractionInvalid)
    (provenance : Option Provenance) : Run Unit := do
  Worker.update (recordedAttempt (rejected attempt invalid provenance))
  saveStageData
  invalidFeedback active (stage.account codec payload)

def recordedArtifact (attempt : Attempt) (claims : List Claim) (data : StageData (List Claim)) :
    StageData (List Claim) :=
  { recordedAttempt { attempt with valid := some true } data with
    artifact := some claims
    promptVersion := some "claim-window-v2"
    schemaVersion := some 1 }

def accept (attempt : Attempt) (claims : List Claim) : Run Unit := do
  Worker.update (recordedArtifact attempt claims)
  saveStageData

def requestedAttempt (data : StageData (List Claim)) (active : Adapter) : Attempt where
  repair := data.attempts.any (·.valid == some false)
  provider := active.provider

def repairReason (data : StageData (List Claim)) : Option String :=
  if data.attempts.any (·.valid == some false) then
    ((data.attempts.filterMap (·.reason)).filter (· ≠ "")).getLast?
  else none

/-- The loop over completions; `none` means that the fuel ran out. -/
def infer : Nat → Adapter → Run (Option Unit)
  | 0, _ => pure none
  | fuel + 1, active => do
      let data ← Worker.read
      if 2 ≤ data.invalidAttempts then
        Worker.raise (.extractionInvalid ⟨"One repair exhausted", none⟩ none)
      else do
        heartbeat
        let requested := requestedAttempt data active
        match ← (stage.wait active.provider (active.complete (stage.account codec payload)
            requested.repair data.model (repairReason data))).attempt with
        | .ok completion =>
            match judge codec payload requested completion with
            | (attempt, .ok claims) => do
                accept attempt claims
                pure (some ())
            | (attempt, .error invalid) => do
                stage.reject codec payload active attempt invalid none
                infer fuel active
        | .error failure =>
            match failure.unavailable? with
            | some retryClass => do
                let exhausted ← recordUnavailable active requested failure retryClass
                if exhausted then do
                  let groq ← stage.enterGroq payload
                  infer fuel groq
                else Worker.raise failure
            | none =>
                match failure with
                | .extractionInvalid invalid provenance => do
                    stage.reject codec payload active requested invalid provenance
                    infer fuel active
                | failure => Worker.raise failure

def checkPrevious (payload : Payload) : Run Unit :=
  if payload.incremental then do
    match ← Worker.ask (S := Signature (List Claim)) .previousReport with
    | some previous =>
        if previous.provisional = false ∨ previous.reconciled then
          Worker.raise
            (.nonRetriableInput "Incremental extraction cannot reopen a finalized report")
        else pure ()
    | none => pure ()
  else pure ()

def checkJob (payload : Payload) (key : String) : Run Unit :=
  if key ≠ codec.extractionKey payload then
    Worker.raise (.nonRetriableInput "Window does not match its stage key")
  else if payload.window.hostedProcessingApproved = false then
    Worker.raise
      (.nonRetriableInput "Hosted processing has not been authorized for this window")
  else do
    heartbeat
    let owned : Bool ← Worker.ask (S := Signature (List Claim)) .owned
    if owned = false then
      Worker.raise (.nonRetriableInput "Investigation is missing or not owned by this job")
    else checkPrevious payload

def ExtractionStage.inferArtifact (fuel : Nat) : Run (Option Unit) := do
  let data ← Worker.read
  if data.budgetExhausted then
    Worker.raise (.extractionBudgetExceeded "Extraction budget previously exhausted")
  else if data.inFlight then
    Worker.raise (.unknownOutcome "Earlier provider attempt has no durable outcome")
  else if data.artifact.isNone then do
    let active ← stage.resume codec payload
    infer stage codec payload fuel active
  else pure (some ())

def stageResult (data : StageData (List Claim)) : StageResult where
  data := data
  claims := data.artifact.getD []
  processingAttempts := data.attempts.map provenanceOf

def ExtractionStage.run (payload : Option Payload) (key : String) (fuel : Nat) :
    Run (Option StageResult) :=
  match payload with
  | none => Worker.raise (.nonRetriableInput "Invalid observation window")
  | some payload => do
      checkJob codec payload key
      let inferred ← stage.inferArtifact codec payload fuel
      let data ← Worker.read
      return inferred.map fun () => stageResult data

end Ovrly.Extraction
