import Ovrly.Jobs.Queue
import Ovrly.Runs
import Ovrly.Window

/-!
The reservation ledger of hosted speech (`asr/reservations.py`).

A row of `asr_requests` reserves one request to one model. The advisory lock of the account
and the model serialises `reserve_in`, so its calls run one after another; their timestamps
come from the clocks of the workers and need not be in that order.
-/

namespace Ovrly.Asr

open Relational Runs Ovrly.Jobs

abbrev RequestId := Nat

/-- The outcome of a request: a marker, or the class name of the exception that ended it. -/
inductive Outcome
  | reserved
  | uncertain
  | completed
  | unknownOutcome
  | quotaExhausted
  | rateLimited
  | offline
  | invalidResponse
  | missingAudio
  | chunkTooLarge
  | modelUnavailable
  | transient
  | unavailable
  deriving DecidableEq, Repr

/-- `UNSAFE_TO_RESEND`: a model may have processed (and charged for) the audio. -/
def Outcome.unsafeToResend : Outcome → Bool
  | .reserved | .uncertain | .unknownOutcome | .completed => true
  | _ => false

structure AsrRequest (ρ : Type) where
  id : RequestId
  jobId : JobId
  accountId : String
  model : String
  audioSeconds : Nat
  createdAt : Time
  outcome : Outcome
  result : Option ρ := none
  retryIndex : Nat
  retryAfter : Option Int := none
  deriving DecidableEq

instance {ρ : Type} : Keyed (AsrRequest ρ) RequestId := ⟨AsrRequest.id⟩

structure Settings where
  groqAccountId : String
  groqModel : String
  groqFallbackModel : String
  asrRequestsPerMinute : Option Nat
  asrRequestsPerDay : Option Nat
  asrAudioSecondsPerHour : Option Nat
  asrAudioSecondsPerDay : Option Nat
  asrMinimumBillableSeconds : Option Nat
  deriving DecidableEq, Repr

/-- The job queue and the reservation ledger, which share one database. -/
structure Store (π σ ρ : Type) where
  queue : Database π σ ρ
  requests : Table (AsrRequest ρ)

/-- Why `reserve_in` raises. -/
inductive ReserveError
  | quotaExhausted
  | duplicateId
  deriving DecidableEq, Repr

structure QuotaWindow where
  seconds : Nat
  limit : Option Nat
  audio : Bool
  deriving DecidableEq, Repr

def windows (settings : Settings) : List QuotaWindow :=
  [⟨60, settings.asrRequestsPerMinute, false⟩,
    ⟨86400, settings.asrRequestsPerDay, false⟩,
    ⟨3600, settings.asrAudioSecondsPerHour, true⟩,
    ⟨86400, settings.asrAudioSecondsPerDay, true⟩]

def QuotaWindow.width (window : QuotaWindow) : Time := window.seconds * 1000000

variable {π σ ρ : Type}

def QuotaWindow.charge (window : QuotaWindow) (row : AsrRequest ρ) : Nat :=
  if window.audio then row.audioSeconds else 1

/-- `model or settings.groq_model` -/
def Settings.modelOr (settings : Settings) : Option String → String
  | none | some "" => settings.groqModel
  | some model => model

/-- `max(ceil(duration_seconds), asr_minimum_billable_seconds or 1)` -/
def billableSeconds (settings : Settings) (durationSeconds : Rat) : Nat :=
  let minimum := match settings.asrMinimumBillableSeconds with
    | none | some 0 => 1
    | some seconds => seconds
  max durationSeconds.ceil.toNat minimum

def shares (account model : String) (row : AsrRequest ρ) : Bool :=
  row.accountId == account && row.model == model

def windowFilter (settings : Settings) (window : QuotaWindow) (timestamp : Time) (model : String)
    (row : AsrRequest ρ) : Bool :=
  shares settings.groqAccountId model row &&
    Window.recent AsrRequest.createdAt window.width timestamp row

def windowUsage (requests : Table (AsrRequest ρ)) (settings : Settings) (window : QuotaWindow)
    (timestamp : Time) (model : String) : Nat :=
  Window.usage window.charge (windowFilter settings window timestamp model) requests.rows

/-- A call of `reserve_in`; `uuid4()` supplies the id of the row. -/
structure Reservation where
  id : RequestId
  jobId : JobId
  durationSeconds : Rat
  index : Nat
  model : Option String
  timestamp : Time
  outcome : Outcome := .reserved
  deriving DecidableEq, Repr

def Reservation.row (settings : Settings) (call : Reservation) : AsrRequest ρ where
  id := call.id
  jobId := call.jobId
  accountId := settings.groqAccountId
  model := settings.modelOr call.model
  audioSeconds := billableSeconds settings call.durationSeconds
  createdAt := call.timestamp
  outcome := call.outcome
  retryIndex := call.index

def exhausted (requests : Table (AsrRequest ρ)) (settings : Settings) (row : AsrRequest ρ)
    (window : QuotaWindow) : Bool :=
  match window.limit with
  | none => true
  | some limit =>
      decide (windowUsage requests settings window row.createdAt row.model + window.charge row >
        limit)

def recordedRequest (id : RequestId) (job : Job π σ) : Job π σ :=
  { job with providerRequestId := some (toString id) }

@[simp] theorem recordedRequest_id (id : RequestId) (job : Job π σ) :
    (recordedRequest id job).id = job.id := rfl

def reserveIn (store : Store π σ ρ) (settings : Settings) (call : Reservation) :
    Except ReserveError (RequestId × Store π σ ρ) :=
  let row := call.row settings
  if (windows settings).any (exhausted store.requests settings row) then .error .quotaExhausted
  else
    match store.requests.insert? row with
    | none => .error .duplicateId
    | some requests =>
        .ok (call.id,
          { queue := { store.queue with
              jobs := store.queue.jobs.update (·.id == call.jobId) (recordedRequest call.id)
                (recordedRequest_id call.id) }
            requests })

theorem reserveIn_ok {store next : Store π σ ρ} {settings : Settings} {call : Reservation}
    {id : RequestId} (reserved : reserveIn store settings call = .ok (id, next)) :
    id = call.id ∧
      (∀ window ∈ windows settings, ∀ limit, window.limit = some limit →
        windowUsage store.requests settings window call.timestamp
            (settings.modelOr call.model) +
          window.charge (ρ := ρ) (call.row settings) ≤ limit) ∧
      store.requests.insert? (call.row settings) = some next.requests ∧
      next.queue = { store.queue with
        jobs := store.queue.jobs.update (·.id == call.jobId) (recordedRequest call.id)
          (recordedRequest_id call.id) } := by
  unfold reserveIn at reserved
  by_cases full : (windows settings).any
      (exhausted store.requests settings (call.row settings)) = true
  · simp only [if_pos full, reduceCtorEq] at reserved
  · simp only [if_neg full] at reserved
    cases inserted : store.requests.insert? (call.row settings) with
    | none => simp [inserted] at reserved
    | some requests =>
        simp only [inserted, Except.ok.injEq, Prod.mk.injEq] at reserved
        rcases reserved with ⟨rfl, rfl⟩
        refine ⟨rfl, ?_, rfl, rfl⟩
        intro window member limit limited
        have fits : exhausted store.requests settings (call.row settings) window = false := by
          by_contra refused
          exact full (List.any_eq_true.mpr ⟨window, member, by simpa using refused⟩)
        simp only [exhausted, limited, decide_eq_false_iff_not, not_lt] at fits
        exact fits

section Quota

/-- A call in its transaction: whatever it raises rolls the transaction back. -/
def Store.reserve (settings : Settings) (store : Store π σ ρ) (call : Reservation) :
    Store π σ ρ :=
  match reserveIn store settings call with
  | .error _ => store
  | .ok (_, next) => next

def ledgerOf (requests : Table (AsrRequest ρ)) (account model : String) : List (AsrRequest ρ) :=
  requests.rows.filter (shares account model)

theorem windowUsage_eq (requests : Table (AsrRequest ρ)) (settings : Settings)
    (window : QuotaWindow) (timestamp : Time) (model : String) :
    windowUsage requests settings window timestamp model =
      Window.usage window.charge (Window.recent AsrRequest.createdAt window.width timestamp)
        (ledgerOf requests settings.groqAccountId model) := by
  simp only [windowUsage, Window.usage, ledgerOf, List.filter_filter]
  congr 2
  apply List.filter_congr
  intro row _
  simp only [windowFilter, Bool.and_comm]

/-- Every row of the account and the model fitted in the window when it was reserved. -/
def Fitted (settings : Settings) (window : QuotaWindow) (limit : Nat) (model : String)
    (store : Store π σ ρ) : Prop :=
  Window.Admitted AsrRequest.createdAt window.charge window.width limit
    (ledgerOf store.requests settings.groqAccountId model)

theorem Fitted.reserve {settings : Settings} {window : QuotaWindow} {limit : Nat} {model : String}
    (member : window ∈ windows settings) (limited : window.limit = some limit)
    {store : Store π σ ρ} (fitted : Fitted settings window limit model store)
    (call : Reservation) : Fitted settings window limit model (store.reserve settings call) := by
  unfold Store.reserve
  split
  · exact fitted
  · rename_i id next reserved
    rcases reserveIn_ok reserved with ⟨-, fits, inserted, -⟩
    unfold Fitted ledgerOf
    rw [Table.rows_insert? inserted, List.filter_append]
    by_cases mine : settings.modelOr call.model = model
    · have shared : shares settings.groqAccountId model (call.row (ρ := ρ) settings) = true := by
        simp [shares, Reservation.row, mine]
      rw [List.filter_cons_of_pos shared, List.filter_nil]
      apply Window.Admitted.snoc fitted
      have room := fits window member limit limited
      rw [windowUsage_eq, mine] at room
      exact room
    · have other : shares settings.groqAccountId model (call.row (ρ := ρ) settings) = false := by
        simp [shares, Reservation.row, mine]
      rw [List.filter_cons_of_neg (by simp [other]), List.filter_nil, List.append_nil]
      exact fitted

theorem reserve_rows (settings : Settings) (store : Store π σ ρ) (calls : List Reservation) :
    ∃ admitted : List Reservation, admitted.Sublist calls ∧
      (exec (Store.reserve settings) store calls).requests.rows =
        store.requests.rows ++ admitted.map (Reservation.row settings) := by
  induction calls generalizing store with
  | nil => exact ⟨[], List.Sublist.slnil, by simp⟩
  | cons call rest ih =>
      obtain ⟨admitted, chosen, rows⟩ := ih (store.reserve settings call)
      rw [exec_cons]
      cases answer : reserveIn store settings call with
      | error refusal =>
          have same : store.reserve settings call = store := by simp only [Store.reserve, answer]
          rw [same] at rows ⊢
          exact ⟨admitted, chosen.cons call, rows⟩
      | ok reserved =>
          rcases reserved with ⟨id, next⟩
          have moved : store.reserve settings call = next := by simp only [Store.reserve, answer]
          rw [moved] at rows ⊢
          refine ⟨call :: admitted, chosen.cons_cons call, ?_⟩
          rw [rows, Table.rows_insert? (reserveIn_ok answer).2.2.1]
          simp

/-- Whatever the order of the timestamps, no window of an account and a model ever holds more
than its limit, and a refused reservation writes nothing. -/
theorem rolling_quota (settings : Settings) (queue : Database π σ ρ) (calls : List Reservation) :
    let store := exec (Store.reserve settings) ⟨queue, Table.empty⟩ calls
    (∀ window ∈ windows settings, ∀ limit, window.limit = some limit → ∀ model reading,
      Window.usage window.charge (Window.within AsrRequest.createdAt window.width reading)
        (ledgerOf store.requests settings.groqAccountId model) ≤ limit) ∧
    (∃ admitted : List Reservation, admitted.Sublist calls ∧
      store.requests.rows = admitted.map (Reservation.row settings)) ∧
    ∀ call refusal, reserveIn store settings call = .error refusal →
      store.reserve settings call = store := by
  intro store
  refine ⟨?_, ?_, ?_⟩
  · intro window member limit limited model reading
    have initially : Fitted settings window limit model
        (⟨queue, Table.empty⟩ : Store π σ ρ) := Window.Admitted.nil
    have fitted : Fitted settings window limit model store :=
      exec_invariant (Fitted settings window limit model)
        (fun _ call earlier => earlier.reserve member limited call) initially calls
    exact fitted.bounded reading
  · obtain ⟨admitted, chosen, rows⟩ := reserve_rows settings ⟨queue, Table.empty⟩ calls
    exact ⟨admitted, chosen, rows⟩
  · intro call refusal refused
    simp only [Store.reserve, refused]

end Quota

end Ovrly.Asr
