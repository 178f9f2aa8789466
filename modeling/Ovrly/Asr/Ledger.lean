import Ovrly.Asr.Reservations

/-!
The requests of one speech job (`asr/reservations.py`).

A run of a job is told by its retry index. A worker marks a request as uncertain before it sends
it and stores the outcome after, each time under its active lease.
-/

namespace Ovrly.Asr

open Relational Ovrly.Jobs

structure SpeechPayload (δ : Type) where
  speechRetry : Option Nat
  settingsSha256 : Option String
  document : δ
  deriving DecidableEq

instance {δ : Type} [EmptyCollection δ] : EmptyCollection (SpeechPayload δ) :=
  ⟨{ speechRetry := none, settingsSha256 := none, document := ∅ }⟩

variable {δ σ ρ : Type}

abbrev SpeechJob (δ σ : Type) := Job (SpeechPayload δ) σ

abbrev SpeechClaim (δ σ : Type) := ClaimedJob (SpeechPayload δ) σ

abbrev SpeechStore (δ σ ρ : Type) := Store (SpeechPayload δ) σ ρ

def payloadIndex (payload : SpeechPayload δ) (retryCounts : RetryCounts) : Nat :=
  payload.speechRetry.getD 0 * 100 + (retryCounts.map Prod.snd).sum

def retryIndex (job : SpeechClaim δ σ) : Nat := payloadIndex job.payload job.retryCounts

inductive SpeechError
  | leaseLost
  | unavailable
  | reserve (error : ReserveError)
  deriving DecidableEq, Repr

def reservedFor (job : SpeechClaim δ σ) (model : String) (row : AsrRequest ρ) : Bool :=
  row.jobId == job.lease.jobId && row.model == model && row.retryIndex == retryIndex job &&
    row.outcome == .reserved

def marked (outcome : Outcome) (row : AsrRequest ρ) : AsrRequest ρ := { row with outcome }

@[simp] theorem marked_key (outcome : Outcome) (row : AsrRequest ρ) :
    (Keyed.key (marked outcome row) : RequestId) = Keyed.key row := rfl

def begin (store : SpeechStore δ σ ρ) (settings : Settings) (job : SpeechClaim δ σ)
    (model : String) (durationSeconds : Rat) (id : RequestId) (timestamp : Time)
    (clock : Clock) : Except SpeechError (RequestId × SpeechStore δ σ ρ) :=
  match lockActive store.queue job.lease clock with
  | .error _ => .error .leaseLost
  | .ok _ =>
      match store.requests.rows.find? (reservedFor job model) with
      | some row =>
          if row.accountId ≠ settings.groqAccountId then .error .unavailable
          else
            .ok (row.id,
              { store with
                requests := store.requests.update (·.id == row.id) (marked .uncertain)
                  (marked_key .uncertain) })
      | none =>
          (reserveIn store settings
            { id, jobId := job.lease.jobId, durationSeconds, index := retryIndex job
              model := some model, timestamp, outcome := .uncertain }).mapError .reserve

def replaySafe (requests : Table (AsrRequest ρ)) (jobId : JobId) (payload : SpeechPayload δ)
    (counts : RetryCounts) : Bool :=
  !(requests.rows.filter fun row =>
    row.jobId == jobId && row.retryIndex == payloadIndex payload counts).any
      (·.outcome.unsafeToResend)

/-- How a request ended: its result, or the name of the error and the rounded hint of a rate
limit. -/
def ended (outcome : Outcome) (result : Option ρ) (retryAfter : Option Int)
    (row : AsrRequest ρ) : AsrRequest ρ :=
  { row with outcome, result, retryAfter }

@[simp] theorem ended_key (outcome : Outcome) (result : Option ρ) (retryAfter : Option Int)
    (row : AsrRequest ρ) :
    (Keyed.key (ended outcome result retryAfter row) : RequestId) = Keyed.key row := rfl

def complete (store : SpeechStore δ σ ρ) (job : SpeechClaim δ σ) (requestId : RequestId)
    (outcome : Outcome) (result : Option ρ) (retryAfter : Option Int) (clock : Clock) :
    Except SpeechError (SpeechStore δ σ ρ) :=
  match lockActive store.queue job.lease clock with
  | .error _ => .error .leaseLost
  | .ok _ =>
      .ok { store with
        requests := store.requests.update
          (fun row => row.id == requestId && row.jobId == job.lease.jobId)
          (ended outcome result retryAfter) (ended_key outcome result retryAfter) }

end Ovrly.Asr
