import Ovrly.Extraction.Budget
import Ovrly.Extraction.Stage

/-!
Incremental admission of observations (`submit_observations`).

A call admits a batch into the ledger, sorts it and cuts the observations that no window covers
yet into windows, each with an overlap of earlier ones, and enqueues one extraction job a window.
It runs in one transaction: whatever it raises leaves the ledger and the queue as they were.
-/

namespace Ovrly.Extraction

open Relational Runs Ovrly.Jobs Ovrly.Reports Ovrly.Pipeline

def Accepted.id (item : Accepted) : String := item.source.id

def Accepted.characters (item : Accepted) : Nat := item.source.text.length

def Accepted.isTarget (item : Accepted) : Bool := item.source.role == .target

def Accepted.isPending (item : Accepted) : Bool := item.jobId.isNone && item.reason.isNone

def charactersOf (items : List Accepted) : Nat := (items.map Accepted.characters).sum

section Admission

structure Intake where
  existing : List Accepted
  unadmitted : List Unadmitted

def Intake.accepted? (intake : Intake) (id : String) : Option Accepted :=
  intake.existing.find? (·.id == id)

def Intake.refuses (intake : Intake) (id : String) : Bool :=
  intake.unadmitted.any (·.id == id)

def unadmittedOf (observation : Observation) (reason : SkipReason) : Unadmitted where
  id := observation.id
  startMs := observation.startMs
  endMs := observation.endMs
  timebase := observation.timebase
  reason := reason

def skipReason? (config : Config) (closed finalized : Bool) (accepted : Nat) :
    Option SkipReason :=
  if closed || finalized then some .inputClosed
  else if config.policy.maxObservations ≤ accepted then some .budgetExhausted
  else none

def admitOne (config : Config) (closed finalized : Bool) (intake : Intake)
    (observation : Observation) : Except Failure Intake :=
  match intake.accepted? observation.id with
  | some previous =>
      if previous.source ≠ observation then
        .error (.nonRetriableInput "Observation identifier was reused for changed content")
      else .ok intake
  | none =>
      if intake.refuses observation.id then .ok intake
      else
        let reason := if config.producer.isSome then
            skipReason? config closed finalized intake.existing.length
          else none
        match reason with
        | some reason =>
            .ok { intake with
              unadmitted := intake.unadmitted ++ [unadmittedOf observation reason] }
        | none =>
            if closed then .error (.nonRetriableInput "Observation input is closed")
            else .ok { intake with existing := intake.existing ++ [{ source := observation }] }

def admitAll (config : Config) (closed finalized : Bool) (intake : Intake)
    (observations : List Observation) : Except Failure Intake :=
  observations.foldlM (admitOne config closed finalized) intake

/-- `key=(start_ms, end_ms, id)` -/
def sortsBefore (startMs endMs : Nat) (id : String) (otherStart otherEnd : Nat)
    (otherId : String) : Bool :=
  decide (startMs < otherStart ∨ (startMs = otherStart ∧
    (endMs < otherEnd ∨ (endMs = otherEnd ∧ id ≤ otherId))))

def Accepted.before (first second : Accepted) : Bool :=
  sortsBefore first.source.startMs first.source.endMs first.id second.source.startMs
    second.source.endMs second.id

def Unadmitted.before (first second : Unadmitted) : Bool :=
  sortsBefore first.startMs first.endMs first.id second.startMs second.endMs second.id

def oneTimebase (items : List Accepted) : Bool :=
  items.all fun first => items.all fun second => first.source.timebase == second.source.timebase

/-- The config a call gives differs from the stored one; a call without a producer does not
look at the stored producer. -/
def Config.changed (stored given : Config) : Bool :=
  stored.policy ≠ given.policy ||
    stored.hostedProcessingApproved ≠ given.hostedProcessingApproved ||
    stored.groqProcessingApproved ≠ given.groqProcessingApproved ||
    (given.producer.isSome && stored.producer ≠ given.producer)

/-- A call of `submit_observations`, with what it finds around the ledger. -/
structure Submission where
  observations : List Observation
  closed : Bool
  captureStopped : Bool := false
  owned : Bool := true
  finalized : Bool := false
  /-- `uuid4()` for the job of each window. -/
  jobIds : Nat → JobId
  clock : Clock

def admission (config : Config) (stored : Option RunData) (call : Submission) :
    Except Failure RunData := do
  if call.captureStopped then
    throw (.nonRetriableInput "Capture was stopped without continued research")
  if !call.owned || !config.hostedProcessingApproved then
    throw (.nonRetriableInput "Owned investigation and hosted authorization are required")
  if call.finalized && config.producer.isNone then
    throw (.nonRetriableInput "Incremental extraction cannot reopen a finalized report")
  let data := stored.getD { config := config }
  if data.config.changed config then
    throw (.nonRetriableInput
      "Extraction policy and authorization cannot change during a run")
  let intake ← admitAll config data.closed call.finalized ⟨data.observations, data.unadmitted⟩
    call.observations
  if config.policy.maxObservations < intake.existing.length then
    throw (.nonRetriableInput "Observation admission exceeds the explicit run bound")
  let ordered := intake.existing.mergeSort Accepted.before
  if !oneTimebase ordered then
    throw (.nonRetriableInput "Observation input must use one original timebase")
  pure { data with
    observations := ordered
    unadmitted := intake.unadmitted.mergeSort Unadmitted.before
    closed := data.closed || call.closed }

end Admission

section Windows

def RunData.pressure (data : RunData) : Rat :=
  let policy := data.config.policy
  max
    ((max data.requestsUsed data.windows.length : Nat) /
      (policy.maxRequests - policy.reconciliationRequests : Nat))
    ((data.tokensReserved : Nat) / (policy.maxTokens - policy.reconciliationTokens : Nat))

/-- The batch size grows as the budget is used up. -/
def RunData.threshold (data : RunData) : Nat :=
  let factor := if 3 / 4 ≤ data.pressure then 4 else if 1 / 2 ≤ data.pressure then 2 else 1
  min 64 (data.config.policy.batchObservations * factor)

/-- Drops the earliest of the overlap until it leaves room for the first new observation. -/
def trimOverlap (room : Nat) : List Accepted → List Accepted
  | [] => []
  | item :: rest =>
      if charactersOf (item :: rest) + room > 24000 then trimOverlap room rest else item :: rest

def RunData.overlap (data : RunData) (first : Accepted) : List Accepted :=
  let start := data.observations.findIdx (·.id == first.id)
  let covered := (data.observations.take start).filter (·.jobId.isSome)
  trimOverlap first.characters
    (covered.drop (covered.length - data.config.policy.overlapObservations))

def selectFrom (characters : Nat) : List Accepted → List Accepted
  | [] => []
  | item :: rest =>
      if characters + item.characters > 24000 then []
      else item :: selectFrom (characters + item.characters) rest

def batchSize (threshold : Nat) (pending : List Accepted) : Nat :=
  min 64 (max threshold ((pending.findIdx? Accepted.isTarget).getD 0 + 1))

inductive Move
  | stop
  | skip (selected : List Accepted)
  | window (overlap selected : List Accepted)

def RunData.move (data : RunData) : List Accepted → Move
  | [] => .stop
  | first :: rest =>
      let pending := first :: rest
      let threshold := data.threshold
      if pending.length < threshold && !data.closed then .stop
      else
        let overlap := data.overlap first
        let selected :=
          selectFrom (charactersOf overlap) (pending.take (batchSize threshold pending))
        if !(overlap ++ selected).any Accepted.isTarget then
          if !data.closed && !(pending.drop selected.length).any Accepted.isTarget then .stop
          else .skip selected
        else .window overlap selected

def RunData.mark (data : RunData) (items : List Accepted) (change : Accepted → Accepted) :
    RunData :=
  { data with
    observations := data.observations.map fun item =>
      if items.any (·.id == item.id) then change item else item }

def skipped (item : Accepted) : Accepted := { item with reason := some .contextWithoutTarget }

def joined (jobId : JobId) (item : Accepted) : Accepted :=
  { item with windowIds := item.windowIds ++ [jobId] }

def taken (jobId : JobId) (item : Accepted) : Accepted := { item with jobId := some jobId }

/-- An enqueued window, with the observations it repeats and those it newly covers. -/
structure Issue where
  enqueued : Enqueued
  overlap : List Accepted
  selected : List Accepted

/-- `ObservationWindow(...)`: the validator raises on an inconsistent window. -/
def windowOf (config : Config) (number : Nat) (observations : List Observation) :
    Except Failure ObservationWindow :=
  if valid : (observations.map (·.id)).Nodup ∧
      (∀ first ∈ observations, ∀ second ∈ observations, first.timebase = second.timebase) ∧
      (∃ item ∈ observations, item.role = .target) ∧
      (observations.map (·.text.length)).sum ≤ 24000 ∧ observations.length ≤ 128 then
    .ok
      { windowId := "incremental-v1-" ++ toString number
        hostedProcessingApproved := config.hostedProcessingApproved
        groqProcessingApproved := config.groqProcessingApproved
        observations
        unique := valid.1
        oneTimebase := valid.2.1
        targeted := valid.2.2.1
        bounded := valid.2.2.2.1 }
  else .error (.nonRetriableInput "Observation window is invalid")

/-- The transaction while windows are cut: the ledger, the queue and the windows issued. -/
structure Cutting (σ ρ : Type) where
  data : RunData
  queue : Database Payload σ ρ
  issues : List Issue := []

variable {σ ρ : Type} [EmptyCollection σ] (extractionKey : Payload → String)
  (investigationId : Uuid) (ownerId : PrincipalId)

def enqueueExtraction (queue : Database Payload σ ρ) (call : Submission) (number : Nat)
    (window : ObservationWindow) : Except Failure (Enqueued × Database Payload σ ρ) :=
  let payload : Payload := ⟨investigationId, window, true⟩
  match enqueue queue
      ⟨call.jobIds number, ⟨1, "claim_extraction", extractionKey payload⟩, payload, some ownerId⟩
      call.clock with
  | .error _ => .error (.nonRetriableInput "The stage key belongs to another owner")
  | .ok answer => .ok answer

def Cutting.issue (cutting : Cutting σ ρ) (call : Submission) (overlap selected : List Accepted) :
    Except Failure (Cutting σ ρ) := do
  let number := cutting.data.windows.length + 1
  let window ← windowOf cutting.data.config number ((overlap ++ selected).map (·.source))
  let (enqueued, queue) ← enqueueExtraction extractionKey investigationId ownerId cutting.queue
    call number window
  let listed := { cutting.data with windows := cutting.data.windows ++ [enqueued.jobId] }
  pure
    { data := (listed.mark (overlap ++ selected) (joined enqueued.jobId)).mark selected
        (taken enqueued.jobId)
      queue
      issues := cutting.issues ++ [⟨enqueued, overlap, selected⟩] }

/-- The window loop; `none` when the fuel runs out. -/
def Cutting.cut (call : Submission) :
    Nat → Cutting σ ρ → List Accepted → Option (Except Failure (Cutting σ ρ))
  | 0, _, _ => none
  | fuel + 1, cutting, pending =>
      match cutting.data.move pending with
      | .stop => some (.ok cutting)
      | .skip selected =>
          Cutting.cut call fuel { cutting with data := cutting.data.mark selected skipped }
            (pending.drop selected.length)
      | .window overlap selected =>
          match cutting.issue extractionKey investigationId ownerId call overlap selected with
          | .error raised => some (.error raised)
          | .ok next => Cutting.cut call fuel next (pending.drop selected.length)

def RunData.pending (data : RunData) (finalized : Bool) : List Accepted :=
  if finalized then [] else data.observations.filter Accepted.isPending

/-- One round for each pending observation and a last one are enough. -/
def submitObservations (config : Config) (stored : Option RunData) (queue : Database Payload σ ρ)
    (call : Submission) : Option (Except Failure (Cutting σ ρ)) :=
  match admission config stored call with
  | .error raised => some (.error raised)
  | .ok data =>
      let pending := data.pending call.finalized
      Cutting.cut extractionKey investigationId ownerId call (pending.length + 1) ⟨data, queue, []⟩
        pending

structure AdmitSettings where
  policy : ExtractionPolicy
  extractionEnabled : Bool
  groqExtractionEnabled : Bool
  reconciliationEnabled : Bool

def AdmitSettings.config (settings : AdmitSettings) (source : Source) :
    Option RunData → Config
  | none =>
      { policy := settings.policy
        hostedProcessingApproved := settings.extractionEnabled
        groqProcessingApproved := settings.groqExtractionEnabled
        producer := some ⟨source, settings.reconciliationEnabled⟩ }
  | some data =>
      { data.config with
        producer := some (data.config.producer.getD ⟨source, settings.reconciliationEnabled⟩) }

/-- What `producers.admit` leaves behind: nothing to do, the committed savepoint, or a failure that
rolls the publishing transaction back. -/
inductive Admitted (σ ρ : Type)
  | unchanged
  | released (cutting : Cutting σ ρ)
  | rejected (reason : String)

def producerAdmit (settings : AdmitSettings) (source : Source) (openLedger : Bool)
    (stored : Option RunData) (queue : Database Payload σ ρ) (call : Submission) :
    Option (Admitted σ ρ) :=
  let batch := { call with closed := false }
  if !batch.owned || (stored.isNone && batch.observations.isEmpty && !openLedger) then
    some .unchanged
  else
    match submitObservations extractionKey investigationId ownerId (settings.config source stored)
        stored queue batch with
    | none => none
    | some (.error _) => some (.rejected "upstream observations were not admitted")
    | some (.ok cutting) => some (.released cutting)

end Windows

end Ovrly.Extraction
