import Mathlib
import Ovrly.Relational
import Ovrly.Jobs.Queue
import Ovrly.Reports.Model

/-!
Admission budgets (`services/quotas.py`).

One row for each principal counts the checks and the upload bytes of one UTC day. A charge runs
in the transaction that admits the work, under the exclusive lock of the principal, so the
charges of one principal run one after another and what is refused later spends nothing.
-/

namespace Ovrly.Admission

open Relational Ovrly.Jobs Ovrly.Reports

structure ApiError where
  status : Nat
  code : String
  message : String
  /-- The `Retry-After` header. -/
  retryAfter : Option Int := none
  deriving DecidableEq, Repr

def notFound : ApiError :=
  { status := 404, code := "NOT_FOUND", message := "The requested resource was not found" }

def internalError : ApiError :=
  { status := 500, code := "INTERNAL_ERROR", message := "An internal error occurred" }

structure QuotaSettings where
  quotasEnabled : Bool
  quotaDailyChecks : Nat
  quotaActiveChecks : Nat
  quotaDailyUploadBytes : Nat
  deriving DecidableEq, Repr

structure QuotaUsage where
  ownerId : PrincipalId
  day : Int
  checks : Nat
  uploadBytes : Nat
  deriving DecidableEq, Repr

instance : Keyed QuotaUsage PrincipalId := ⟨QuotaUsage.ownerId⟩

structure ProviderStatus where
  pausesIntake : Bool
  retryAfterSeconds : Rat
  deriving DecidableEq, Repr

/-- What a charge reads of the shared budgets, the work in progress and the database clock. -/
structure Readings where
  statuses : List ProviderStatus
  /-- `active_checks` -/
  active : List Uuid
  clockTimestamp : Time
  deriving DecidableEq, Repr

def exhausted (code message : String) (seconds : Rat) : ApiError :=
  { status := 429, code, message, retryAfter := some (max 1 seconds.ceil) }

def maxSeconds : List ProviderStatus → Rat
  | [] => 0
  | [status] => status.retryAfterSeconds
  | status :: rest => max status.retryAfterSeconds (maxSeconds rest)

def providerGate (settings : QuotaSettings) (readings : Readings) : Except ApiError Unit :=
  if !settings.quotasEnabled then .ok ()
  else
    match readings.statuses.filter (·.pausesIntake) with
    | [] => .ok ()
    | paused =>
        .error (exhausted "PROVIDER_QUOTA_EXHAUSTED"
          "New checks are paused while the shared provider budget recovers" (maxSeconds paused))

def dayLength : Time := 86400000000

def utcDay (time : Time) : Int := time / dayLength

def secondsLeft (time : Time) : Rat := ((utcDay time + 1) * dayLength - time : Int) / 1000000

def charged (day : Int) (checks uploadBytes : Nat) (usage : QuotaUsage) : QuotaUsage :=
  { usage with day, checks, uploadBytes }

theorem charged_key (day : Int) (checks uploadBytes : Nat) (usage : QuotaUsage) :
    (Keyed.key (charged day checks uploadBytes usage) : PrincipalId) = Keyed.key usage := rfl

/-- `ON CONFLICT DO UPDATE` -/
def upsert (table : Table QuotaUsage) (ownerId : PrincipalId) (day : Int)
    (checks uploadBytes : Nat) : Table QuotaUsage :=
  match table.insert? (⟨ownerId, day, checks, uploadBytes⟩ : QuotaUsage) with
  | some inserted => inserted
  | none =>
      table.update (·.ownerId == ownerId) (charged day checks uploadBytes)
        (charged_key day checks uploadBytes)

structure Amount where
  checks : Nat := 0
  uploadBytes : Nat := 0
  deriving DecidableEq, Repr

def usedOn (table : Table QuotaUsage) (ownerId : PrincipalId) (day : Int) : Amount :=
  match table.find? ownerId with
  | none => {}
  | some used => if used.day = day then ⟨used.checks, used.uploadBytes⟩ else {}

def activeGate (settings : QuotaSettings) (readings : Readings)
    (investigationId : Option Uuid) : Except ApiError Unit :=
  if settings.quotaActiveChecks ≤ readings.active.length ∧
      (investigationId.getD "None") ∉ readings.active then
    .error (exhausted "QUOTA_EXCEEDED" "Wait for an active check to finish or cancel it" 30)
  else .ok ()

def checkGates (settings : QuotaSettings) (readings : Readings) (investigationId : Option Uuid)
    (checks : Nat) : Except ApiError Unit :=
  if checks = 0 then .ok ()
  else
    match providerGate settings readings with
    | .error paused => .error paused
    | .ok _ => activeGate settings readings investigationId

def charge (settings : QuotaSettings) (table : Table QuotaUsage) (ownerId : PrincipalId)
    (readings : Readings) (amount : Amount) (investigationId : Option Uuid) :
    Except ApiError (Table QuotaUsage) := do
  if !settings.quotasEnabled then return table
  checkGates settings readings investigationId amount.checks
  let day := utcDay readings.clockTimestamp
  let used := usedOn table ownerId day
  if used.checks + amount.checks > settings.quotaDailyChecks then
    throw (exhausted "QUOTA_EXCEEDED" "The daily check budget is exhausted"
      (secondsLeft readings.clockTimestamp))
  if used.uploadBytes + amount.uploadBytes > settings.quotaDailyUploadBytes then
    throw (exhausted "QUOTA_EXCEEDED" "The daily upload budget is exhausted"
      (secondsLeft readings.clockTimestamp))
  return upsert table ownerId day (used.checks + amount.checks)
    (used.uploadBytes + amount.uploadBytes)

theorem charge_ok {settings : QuotaSettings} {table next : Table QuotaUsage}
    {ownerId : PrincipalId} {readings : Readings} {amount : Amount}
    {investigationId : Option Uuid} (enabled : settings.quotasEnabled = true)
    (fits : charge settings table ownerId readings amount investigationId = .ok next) :
    let day := utcDay readings.clockTimestamp
    let used := usedOn table ownerId day
    used.checks + amount.checks ≤ settings.quotaDailyChecks ∧
      used.uploadBytes + amount.uploadBytes ≤ settings.quotaDailyUploadBytes ∧
      next = upsert table ownerId day (used.checks + amount.checks)
        (used.uploadBytes + amount.uploadBytes) := by
  simp only [charge, enabled, Bool.not_true, Bool.false_eq_true, if_false, bind, Except.bind, pure,
    Except.pure, throw, throwThe, MonadExceptOf.throw] at fits
  split at fits
  · cases fits
  split at fits
  · cases fits
  rename_i checks
  split at fits
  · cases fits
  rename_i uploadBytes
  simp only [Except.ok.injEq] at fits
  exact ⟨not_lt.mp checks, not_lt.mp uploadBytes, fits.symm⟩

theorem find?_upsert (table : Table QuotaUsage) (ownerId other : PrincipalId) (day : Int)
    (checks uploadBytes : Nat) :
    (upsert table ownerId day checks uploadBytes).find? other =
      if ownerId = other then some ⟨ownerId, day, checks, uploadBytes⟩ else table.find? other := by
  unfold upsert
  split
  · rename_i inserted added
    exact Table.find?_insert? added other
  · rename_i present
    rw [Table.find?_update]
    have known : ∃ used, table.find? ownerId = some used := by
      cases absent : table.find? ownerId with
      | some used => exact ⟨used, rfl⟩
      | none =>
          have fresh : ∃ next, table.insert? (⟨ownerId, day, checks, uploadBytes⟩ : QuotaUsage) =
              some next := Table.insert?_isSome absent
          rw [present] at fresh
          obtain ⟨next, ⟨⟩⟩ := fresh
    obtain ⟨used, found⟩ := known
    by_cases same : ownerId = other
    · subst same
      have owner : used.ownerId = ownerId := Table.find?_key found
      simp [found, owner, charged]
    · rw [if_neg same]
      cases elsewhere : table.find? other with
      | none => rfl
      | some row =>
          have owner : row.ownerId = other := Table.find?_key elsewhere
          have differs : (row.ownerId == ownerId) = false := by
            simpa [owner] using Ne.symm same
          simp only [Option.map_some, differs, Bool.false_eq_true, if_false]

end Ovrly.Admission
