import Ovrly.Extraction.Grounding
import Ovrly.Pipeline.Llm
import Ovrly.Runs

/-!
The durable extraction ledger and its budget (`pipeline/incremental.py`).

Each request is recorded under the lock of the ledger row, so a run of the budget is a list
of calls in the order in which they took the lock. The surrounding transaction may still roll
back: saving the stage data can fail, and the process can die before the commit.
-/

namespace Ovrly.Extraction

open Runs Ovrly.Jobs Ovrly.Reports Ovrly.Pipeline

/-- `Extraction requires capacity outside the reconciliation reserve` -/
structure ExtractionPolicy where
  maxRequests : Nat
  maxTokens : Nat
  reconciliationRequests : Nat
  reconciliationTokens : Nat
  batchObservations : Nat
  overlapObservations : Nat
  maxObservations : Nat
  requestsBound : maxRequests ≤ 10000
  tokensBound : maxTokens ≤ 2147483647
  requestsKept : 1 ≤ reconciliationRequests
  tokensKept : 1 ≤ reconciliationTokens
  batchBound : 1 ≤ batchObservations ∧ batchObservations ≤ 64
  overlapBound : 1 ≤ overlapObservations ∧ overlapObservations ≤ 32
  observationsBound : 1 ≤ maxObservations ∧ maxObservations ≤ 4096
  requestsReserve : reconciliationRequests < maxRequests
  tokensReserve : reconciliationTokens < maxTokens
  deriving DecidableEq

inductive SkipReason
  | inputClosed
  | budgetExhausted
  | contextWithoutTarget
  deriving DecidableEq, Repr

inductive Source
  | capture
  | upload
  deriving DecidableEq, Repr

structure Producer where
  source : Source
  reconcile : Bool
  deriving DecidableEq, Repr

structure Config where
  policy : ExtractionPolicy
  hostedProcessingApproved : Bool
  groqProcessingApproved : Bool
  producer : Option Producer
  deriving DecidableEq

structure Accepted where
  source : Observation
  jobId : Option JobId := none
  windowIds : List JobId := []
  reason : Option SkipReason := none
  deriving DecidableEq

structure Unadmitted where
  id : String
  startMs : Nat
  endMs : Nat
  timebase : Timebase
  reason : SkipReason
  deriving DecidableEq

/-- The row of `extraction_runs`. -/
structure RunData where
  config : Config
  closed : Bool := false
  observations : List Accepted := []
  windows : List JobId := []
  requestsUsed : Nat := 0
  tokensReserved : Nat := 0
  unadmitted : List Unadmitted := []
  deriving DecidableEq

def framingTokens : Nat := 256

def reservedTokens (inputBytes outputTokens : Nat) : Nat :=
  inputBytes + outputTokens + framingTokens

/-- What is left for a kind of request when the reserve is kept for reconciliation. -/
def ExtractionPolicy.requestCeiling (policy : ExtractionPolicy) (reconciliation : Bool) : Nat :=
  policy.maxRequests - (if reconciliation then 0 else policy.reconciliationRequests)

def ExtractionPolicy.tokenCeiling (policy : ExtractionPolicy) (reconciliation : Bool) : Nat :=
  policy.maxTokens - (if reconciliation then 0 else policy.reconciliationTokens)

def RunData.recordRequest (data : RunData) (inputBytes outputTokens : Nat)
    (reconciliation : Bool) : Except Failure RunData :=
  let tokens := reservedTokens inputBytes outputTokens
  let policy := data.config.policy
  if data.requestsUsed + 1 > policy.requestCeiling reconciliation ∨
      data.tokensReserved + tokens > policy.tokenCeiling reconciliation then
    .error
      (.extractionBudgetExceeded "Extraction budget exhausted; reconciliation is reserved")
  else
    .ok { data with
      requestsUsed := data.requestsUsed + 1
      tokensReserved := data.tokensReserved + tokens }

section Spec

variable {data recorded : RunData} {inputBytes outputTokens : Nat} {reconciliation : Bool}

theorem RunData.recordRequest_ok :
    data.recordRequest inputBytes outputTokens reconciliation = .ok recorded ↔
      data.requestsUsed + 1 ≤ data.config.policy.requestCeiling reconciliation ∧
        data.tokensReserved + reservedTokens inputBytes outputTokens ≤
          data.config.policy.tokenCeiling reconciliation ∧
        recorded = { data with
          requestsUsed := data.requestsUsed + 1
          tokensReserved := data.tokensReserved + reservedTokens inputBytes outputTokens } := by
  unfold RunData.recordRequest
  by_cases refused : data.requestsUsed + 1 > data.config.policy.requestCeiling reconciliation ∨
      data.tokensReserved + reservedTokens inputBytes outputTokens >
        data.config.policy.tokenCeiling reconciliation
  · simp only [if_pos refused, reduceCtorEq, false_iff]
    rintro ⟨requests, tokens, -⟩
    omega
  · simp only [if_neg refused, Except.ok.injEq]
    constructor
    · rintro rfl
      exact ⟨by omega, by omega, rfl⟩
    · rintro ⟨-, -, rfl⟩
      rfl

end Spec

namespace Budget

/-- A call of `record_request`, and whether the transaction around it commits. -/
structure Call where
  inputBytes : Nat
  outputTokens : Nat
  reconciliation : Bool
  commits : Bool := true
  deriving DecidableEq, Repr

def Call.tokens (call : Call) : Nat := reservedTokens call.inputBytes call.outputTokens

/-- The ledger and the requests admitted so far, oldest first. -/
structure Books where
  data : RunData
  admitted : List Call := []
  deriving DecidableEq

def Books.step (books : Books) (call : Call) : Books :=
  match books.data.recordRequest call.inputBytes call.outputTokens call.reconciliation with
  | .error _ => books
  | .ok data => if call.commits then ⟨data, books.admitted ++ [call]⟩ else books

def opened (config : Config) : Books := ⟨{ config := config }, []⟩

def Books.run (config : Config) (calls : List Call) : Books :=
  exec Books.step (opened config) calls

def Books.Fits (books : Books) (call : Call) : Prop :=
  books.data.requestsUsed + 1 ≤ books.data.config.policy.requestCeiling call.reconciliation ∧
    books.data.tokensReserved + call.tokens ≤
      books.data.config.policy.tokenCeiling call.reconciliation

def Books.charged (books : Books) (call : Call) : Books where
  data := { books.data with
    requestsUsed := books.data.requestsUsed + 1
    tokensReserved := books.data.tokensReserved + call.tokens }
  admitted := books.admitted ++ [call]

theorem Books.step_fits {books : Books} {call : Call} (fits : books.Fits call)
    (commits : call.commits = true) : books.step call = books.charged call := by
  have recorded := RunData.recordRequest_ok.mpr ⟨fits.1, fits.2, rfl⟩
  simp only [Books.step, recorded, commits, if_true]
  rfl

/-- A step charges a call that fits, or leaves everything as it was. -/
theorem Books.step_cases (books : Books) (call : Call) :
    (books.Fits call ∧ call.commits = true ∧ books.step call = books.charged call) ∨
      ((¬books.Fits call ∨ call.commits = false) ∧ books.step call = books) := by
  by_cases fits : books.Fits call
  · cases commits : call.commits with
    | true => exact Or.inl ⟨fits, rfl, Books.step_fits fits commits⟩
    | false =>
        have recorded := RunData.recordRequest_ok.mpr ⟨fits.1, fits.2, rfl⟩
        exact Or.inr ⟨Or.inr rfl, by simp [Books.step, recorded, commits]⟩
  · refine Or.inr ⟨Or.inl fits, ?_⟩
    cases answer : books.data.recordRequest call.inputBytes call.outputTokens
        call.reconciliation with
    | error _ => simp only [Books.step, answer]
    | ok data =>
        have admitted := RunData.recordRequest_ok.mp answer
        exact absurd ⟨admitted.1, admitted.2.1⟩ fits

/-- The ledger counts what was admitted, under both ceilings, and keeps the reserve while no
request for reconciliation was admitted. -/
structure Kept (config : Config) (books : Books) : Prop where
  configured : books.data.config = config
  counted : books.data.requestsUsed = books.admitted.length
  summed : books.data.tokensReserved = (books.admitted.map Call.tokens).sum
  requests : books.data.requestsUsed ≤ config.policy.maxRequests
  tokens : books.data.tokensReserved ≤ config.policy.maxTokens
  reserved : (∀ call ∈ books.admitted, call.reconciliation = false) →
    books.data.requestsUsed + config.policy.reconciliationRequests ≤
        config.policy.maxRequests ∧
      books.data.tokensReserved + config.policy.reconciliationTokens ≤ config.policy.maxTokens

theorem kept_opened (config : Config) : Kept config (opened config) where
  configured := rfl
  counted := rfl
  summed := rfl
  requests := Nat.zero_le _
  tokens := Nat.zero_le _
  reserved _ := by
    have requests := config.policy.requestsReserve
    have tokens := config.policy.tokensReserve
    simp only [opened, Nat.zero_add]
    omega

section Charging

variable {config : Config} {books : Books} {call : Call}

theorem ceilings_le (policy : ExtractionPolicy) (reconciliation : Bool) :
    policy.requestCeiling reconciliation ≤ policy.maxRequests ∧
      policy.tokenCeiling reconciliation ≤ policy.maxTokens :=
  ⟨Nat.sub_le _ _, Nat.sub_le _ _⟩

theorem Books.Fits.reserve (fits : books.Fits call) (extraction : call.reconciliation = false) :
    (books.charged call).data.requestsUsed + books.data.config.policy.reconciliationRequests ≤
        books.data.config.policy.maxRequests ∧
      (books.charged call).data.tokensReserved +
          books.data.config.policy.reconciliationTokens ≤ books.data.config.policy.maxTokens := by
  have requests := books.data.config.policy.requestsReserve
  have tokens := books.data.config.policy.tokensReserve
  rcases fits with ⟨request, token⟩
  simp only [extraction, ExtractionPolicy.requestCeiling, ExtractionPolicy.tokenCeiling,
    Bool.false_eq_true, if_false] at request token
  simp only [Books.charged]
  omega

theorem Kept.charged (kept : Kept config books) (fits : books.Fits call) :
    Kept config (books.charged call) where
  configured := kept.configured
  counted := by simp [Books.charged, kept.counted]
  summed := by simp [Books.charged, kept.summed]
  requests := by
    have ceiling := ceilings_le books.data.config.policy call.reconciliation
    rw [← kept.configured]
    exact Nat.le_trans fits.1 ceiling.1
  tokens := by
    have ceiling := ceilings_le books.data.config.policy call.reconciliation
    rw [← kept.configured]
    exact Nat.le_trans fits.2 ceiling.2
  reserved extraction := by
    have last : call.reconciliation = false := extraction call (by simp [Books.charged])
    rw [← kept.configured]
    exact fits.reserve last

theorem Kept.step (kept : Kept config books) (call : Call) : Kept config (books.step call) := by
  rcases books.step_cases call with ⟨fits, -, charged⟩ | ⟨-, same⟩
  · rw [charged]
    exact kept.charged fits
  · rwa [same]

end Charging

theorem kept_run (config : Config) (calls : List Call) : Kept config (Books.run config calls) :=
  exec_invariant (Kept config) (fun _ call kept => kept.step call) (kept_opened config) calls

theorem run_reconciliations {books : Books} {calls : List Call}
    (reconciling : ∀ call ∈ calls, call.reconciliation = true ∧ call.commits = true)
    (requests : books.data.requestsUsed + calls.length ≤ books.data.config.policy.maxRequests)
    (tokens : books.data.tokensReserved + (calls.map Call.tokens).sum ≤
      books.data.config.policy.maxTokens) :
    (exec Books.step books calls).admitted = books.admitted ++ calls := by
  induction calls generalizing books with
  | nil => simp
  | cons call rest ih =>
      rcases reconciling call (by simp) with ⟨reconciliation, commits⟩
      simp only [List.length_cons, List.map_cons, List.sum_cons] at requests tokens
      have fits : books.Fits call := by
        simp only [Books.Fits, ExtractionPolicy.requestCeiling, ExtractionPolicy.tokenCeiling,
          reconciliation, if_true]
        omega
      rw [exec_cons, Books.step_fits fits commits]
      have admitted := @ih (books.charged call)
        (fun other member => reconciling other (List.mem_cons_of_mem _ member))
        (by simp only [Books.charged]; omega) (by simp only [Books.charged]; omega)
      rw [admitted]
      simp [Books.charged]

/-- What the budget promises of one state: the maxima hold and count exactly what was
admitted, extraction never takes the reserve, and a refused call changes nothing. -/
structure Lawful (books : Books) : Prop where
  requests : books.data.requestsUsed ≤ books.data.config.policy.maxRequests
  tokens : books.data.tokensReserved ≤ books.data.config.policy.maxTokens
  counted : books.data.requestsUsed = books.admitted.length ∧
    books.data.tokensReserved = (books.admitted.map Call.tokens).sum
  extraction : ∀ call, call.reconciliation = false → books.step call ≠ books →
    (books.step call).data.requestsUsed + books.data.config.policy.reconciliationRequests ≤
        books.data.config.policy.maxRequests ∧
      (books.step call).data.tokensReserved + books.data.config.policy.reconciliationTokens ≤
        books.data.config.policy.maxTokens
  reserve : (∀ call ∈ books.admitted, call.reconciliation = false) →
    books.data.requestsUsed + books.data.config.policy.reconciliationRequests ≤
        books.data.config.policy.maxRequests ∧
      books.data.tokensReserved + books.data.config.policy.reconciliationTokens ≤
        books.data.config.policy.maxTokens ∧
      ∀ calls : List Call,
        (∀ call ∈ calls, call.reconciliation = true ∧ call.commits = true) →
        calls.length ≤ books.data.config.policy.reconciliationRequests →
        (calls.map Call.tokens).sum ≤ books.data.config.policy.reconciliationTokens →
        (exec Books.step books calls).admitted = books.admitted ++ calls
  once : ∀ call, call.commits = true →
    (∃ data, books.data.recordRequest call.inputBytes call.outputTokens
      call.reconciliation = .ok data) →
    books.step call = books.charged call
  refused : ∀ call failure, books.data.recordRequest call.inputBytes call.outputTokens
    call.reconciliation = .error failure → books.step call = books

theorem Kept.lawful {config : Config} {books : Books} (kept : Kept config books) :
    Lawful books where
  requests := by rw [kept.configured]; exact kept.requests
  tokens := by rw [kept.configured]; exact kept.tokens
  counted := ⟨kept.counted, kept.summed⟩
  extraction call extraction changed := by
    rcases books.step_cases call with ⟨fits, -, charged⟩ | ⟨-, same⟩
    · rw [charged]
      exact fits.reserve extraction
    · exact absurd same changed
  reserve extraction := by
    have reserved := kept.reserved extraction
    rw [kept.configured]
    refine ⟨reserved.1, reserved.2, ?_⟩
    intro calls reconciling requests tokens
    apply run_reconciliations reconciling
    · rw [kept.configured]
      omega
    · rw [kept.configured]
      omega
  once call commits := by
    rintro ⟨data, recorded⟩
    have admitted := RunData.recordRequest_ok.mp recorded
    exact Books.step_fits ⟨admitted.1, admitted.2.1⟩ commits
  refused call failure refusal := by simp only [Books.step, refusal]

/-- Every order of extraction and reconciliation requests keeps the budget. -/
theorem budget_lawful (config : Config) (calls : List Call) :
    Lawful (Books.run config calls) :=
  (kept_run config calls).lawful

end Budget

end Ovrly.Extraction
