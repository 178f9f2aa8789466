import Ovrly.Metered
import Ovrly.Runs
import Mathlib

/-!
The token bucket every worker process shares (`providers/budget.py`).

A bucket is one row of `provider_buckets`, and each method is one transaction under the lock
of that row, so what any number of processes do to it is a list of calls. Time and units are
exact rational numbers.
-/

namespace Ovrly.Providers

open Runs Metered

structure TokenBucket where
  name : String
  perHour : Nat
  periodSeconds : Rat := 3600
  capacious : 0 < perHour
  lasting : 0 < periodSeconds

def TokenBucket.capacity (bucket : TokenBucket) : Rat := bucket.perHour

def TokenBucket.perSecond (bucket : TokenBucket) : Rat :=
  bucket.perHour / bucket.periodSeconds

/-- A row of `provider_buckets`. -/
structure Row where
  tokens : Rat
  updatedAt : Rat
  heldUntil : Option Rat := none
  deriving DecidableEq, Repr

/-- Units charged to or returned to a bucket: positive and within its capacity. -/
structure Cost (bucket : TokenBucket) where
  amount : Rat
  positive : 0 < amount
  within : amount ≤ bucket.capacity

def defaultBlockSeconds : Rat := 60

/-- The pause a `Retry-After` asks for. -/
def pauseOf : Option Rat → Rat
  | none => defaultBlockSeconds
  | some seconds => max seconds 0

def Row.held (row : Row) (now : Rat) : Rat :=
  match row.heldUntil with
  | none => 0
  | some moment => max 0 (moment - now)

def Row.spent (row : Row) (amount : Rat) : Row := { row with tokens := row.tokens - amount }

section Operations

variable (bucket : TokenBucket)

/-- The locked row with its refilled balance; a missing row is inserted full. -/
def TokenBucket.locked (row : Option Row) (now : Rat) : Row :=
  let found := row.getD { tokens := bucket.capacity, updatedAt := now }
  { found with
    tokens := refilled bucket.capacity bucket.perSecond found.tokens (now - found.updatedAt)
    updatedAt := now }

def Row.admits (row : Row) (amount now : Rat) : Bool :=
  decide (row.held now = 0 ∧ amount ≤ row.tokens)

def TokenBucket.shortfall (row : Row) (amount : Rat) : Rat :=
  if row.tokens < amount then (amount - row.tokens) / bucket.perSecond else 0

def TokenBucket.take (row : Option Row) (amount now : Rat) : Rat × Row :=
  let row := bucket.locked row now
  if row.admits amount now then (0, row.spent amount)
  else (max (row.held now) (bucket.shortfall row amount), row)

def TokenBucket.refund (row : Option Row) (amount now : Rat) : Row :=
  let row := bucket.locked row now
  { row with tokens := min bucket.capacity (row.tokens + amount) }

/-- Pauses every user and keeps the balance. -/
def TokenBucket.hold (row : Option Row) (seconds : Option Rat) (now : Rat) : Row :=
  let row := bucket.locked row now
  let moment := now + pauseOf seconds
  { row with
    heldUntil := match row.heldUntil with
      | none => some moment
      | some current => some (if current < moment then moment else current) }

/-- Pauses every user by a negative balance. -/
def TokenBucket.block (row : Option Row) (seconds : Option Rat) (now : Rat) : Row :=
  let row := bucket.locked row now
  { row with tokens := min row.tokens (-pauseOf seconds * bucket.perSecond) }

end Operations

/-- What one transaction does to a bucket. A take is given whether the other buckets charged
in the same transaction admit their share. -/
inductive Op (bucket : TokenBucket)
  | take (cost : Cost bucket) (others : Bool)
  | refund (cost : Cost bucket)
  | hold (seconds : Option Rat)
  | block (seconds : Option Rat)

structure Call (bucket : TokenBucket) where
  now : Rat
  op : Op bucket

variable {bucket : TokenBucket}

def Call.succeeds (row : Option Row) (call : Call bucket) : Bool :=
  match call.op with
  | .take cost others =>
      (bucket.locked row call.now).admits cost.amount call.now && others
  | _ => false

def Call.perform (row : Option Row) (call : Call bucket) : Row :=
  match call.op with
  | .take cost others =>
      if others then (bucket.take row cost.amount call.now).2 else bucket.locked row call.now
  | .refund cost => bucket.refund row cost.amount call.now
  | .hold seconds => bucket.hold row seconds call.now
  | .block seconds => bucket.block row seconds call.now

def Row.step (row : Row) (call : Call bucket) : Row := call.perform (some row)

def Call.entry (row : Option Row) (call : Call bucket) : Entry Rat where
  time := call.now
  taken := match call.op with
    | .take cost _ => if call.succeeds row then cost.amount else 0
    | _ => 0
  returned := match call.op with
    | .refund cost => cost.amount
    | _ => 0

/-- The row of a bucket and what was taken from it and returned to it so far. -/
structure Meter where
  row : Option Row := none
  log : List (Entry Rat) := []
  deriving DecidableEq

def Meter.step (meter : Meter) (call : Call bucket) : Meter where
  row := some (call.perform meter.row)
  log := meter.log ++ [call.entry meter.row]

def Meter.run (calls : List (Call bucket)) : Meter := exec Meter.step {} calls

section Locked

theorem capacity_pos (bucket : TokenBucket) : 0 < bucket.capacity := by
  simpa [TokenBucket.capacity] using bucket.capacious

theorem perSecond_pos (bucket : TokenBucket) : 0 < bucket.perSecond :=
  div_pos (capacity_pos bucket) bucket.lasting

theorem locked_none (bucket : TokenBucket) (now : Rat) :
    (bucket.locked none now).tokens = bucket.capacity := by
  simp [TokenBucket.locked, refilled]

theorem locked_some (bucket : TokenBucket) (row : Row) (now : Rat) :
    (bucket.locked (some row) now).tokens =
      refilled bucket.capacity bucket.perSecond row.tokens (now - row.updatedAt) := rfl

@[simp] theorem locked_heldUntil (bucket : TokenBucket) (row : Row) (now : Rat) :
    (bucket.locked (some row) now).heldUntil = row.heldUntil := rfl

theorem locked_le (bucket : TokenBucket) (row : Option Row) (now : Rat) :
    (bucket.locked row now).tokens ≤ bucket.capacity := refilled_le

theorem held_nonneg (row : Row) (now : Rat) : 0 ≤ row.held now := by
  unfold Row.held
  split
  · exact le_refl _
  · exact le_max_left _ _

theorem held_eq_zero {row : Row} {now : Rat} :
    row.held now = 0 ↔ ∀ moment, row.heldUntil = some moment → moment ≤ now := by
  unfold Row.held
  split
  · rename_i free
    simp [free]
  · rename_i moment held
    simp only [held, Option.some.injEq, forall_eq', max_eq_left_iff, sub_nonpos]

/-- A row locked again later holds what it would have held without the first visit. -/
theorem locked_locked (row : Option Row) {now later : Rat} (first : ∀ found, row = some found →
    found.updatedAt ≤ now) (second : now ≤ later) :
    bucket.locked (some (bucket.locked row now)) later = bucket.locked row later := by
  cases row with
  | none =>
      simp only [TokenBucket.locked, Option.getD_some, Option.getD_none, sub_self]
      congr 1
      rw [refilled_zero (le_refl _)]
      have forward : (0 : Rat) ≤ max (later - now) 0 * bucket.perSecond :=
        mul_nonneg (le_max_right _ _) (perSecond_pos bucket).le
      simp only [refilled, min_eq_left_iff]
      linarith
  | some row =>
      have reached := first row rfl
      simp only [TokenBucket.locked, Option.getD_some]
      congr 1
      rw [refilled_refilled (perSecond_pos bucket).le (sub_nonneg.mpr reached)
        (sub_nonneg.mpr second)]
      congr 1
      linarith

end Locked

section Performing

variable {row : Option Row} {call : Call bucket}

@[simp] theorem perform_updatedAt (row : Option Row) (call : Call bucket) :
    (call.perform row).updatedAt = call.now := by
  rcases call with ⟨now, op⟩
  cases op with
  | take cost others =>
      simp only [Call.perform, TokenBucket.take]
      split
      · split <;> rfl
      · rfl
  | refund cost => rfl
  | hold seconds => rfl
  | block seconds => rfl

theorem perform_take (now : Rat) (cost : Cost bucket) (others : Bool) :
    Call.perform row ⟨now, .take cost others⟩ =
      if Call.succeeds row (⟨now, .take cost others⟩ : Call bucket) then
        (bucket.locked row now).spent cost.amount
      else bucket.locked row now := by
  cases others with
  | false => simp [Call.perform, Call.succeeds]
  | true =>
      simp only [Call.perform, Call.succeeds, TokenBucket.take, Bool.and_true, if_true]
      split <;> rfl

theorem perform_le (row : Option Row) (call : Call bucket) :
    (call.perform row).tokens ≤ bucket.capacity := by
  rcases call with ⟨now, op⟩
  have full := locked_le bucket row now
  cases op with
  | take cost others =>
      rw [perform_take]
      split
      · have spent := cost.positive
        simp only [Row.spent]
        linarith
      · exact full
  | refund cost => exact min_le_left _ _
  | hold seconds => exact full
  | block seconds => exact le_trans (min_le_left _ _) full

/-- Every call pays for what it takes out of the refilled balance. -/
theorem perform_paid (row : Option Row) (call : Call bucket) :
    (call.perform row).tokens + (call.entry row).taken ≤
      (bucket.locked row call.now).tokens + (call.entry row).returned := by
  rcases call with ⟨now, op⟩
  cases op with
  | take cost others =>
      rw [perform_take]
      simp only [Call.entry]
      split <;> simp [Row.spent]
  | refund cost =>
      simp only [Call.perform, TokenBucket.refund, Call.entry, add_zero]
      exact min_le_right _ _
  | hold seconds => simp [Call.perform, TokenBucket.hold, Call.entry]
  | block seconds =>
      simp only [Call.perform, TokenBucket.block, Call.entry, add_zero]
      exact min_le_left _ _

theorem entry_returned_nonneg (row : Option Row) (call : Call bucket) :
    0 ≤ (call.entry row).returned := by
  rcases call with ⟨now, op⟩
  cases op with
  | refund cost => exact cost.positive.le
  | _ => exact le_refl _

theorem entry_taken_nonneg (row : Option Row) (call : Call bucket) :
    0 ≤ (call.entry row).taken := by
  rcases call with ⟨now, op⟩
  cases op with
  | take cost others =>
      simp only [Call.entry]
      split
      · exact cost.positive.le
      · exact le_refl _
  | _ => exact le_refl _

theorem perform_nonneg (taken : call.succeeds row = true) : 0 ≤ (call.perform row).tokens := by
  rcases call with ⟨now, op⟩
  cases op with
  | take cost others =>
      rw [perform_take, if_pos taken]
      simp only [Call.succeeds, Row.admits, Bool.and_eq_true, decide_eq_true_eq] at taken
      simp only [Row.spent]
      linarith [taken.1.2]
  | _ => simp [Call.succeeds] at taken

theorem entry_taken_pos (taken : 0 < (call.entry row).taken) : call.succeeds row = true := by
  rcases call with ⟨now, op⟩
  cases op with
  | take cost others =>
      by_contra refused
      simp [Call.entry, refused] at taken
  | _ => simp [Call.entry] at taken

theorem held_refuses {found : Row} {moment : Rat} (held : found.heldUntil = some moment)
    (future : call.now < moment) : call.succeeds (some found) = false := by
  rcases call with ⟨now, op⟩
  cases op with
  | take cost others =>
      have waits : ¬(bucket.locked (some found) now).held now = 0 := by
        rw [held_eq_zero]
        intro free
        exact absurd (free moment held) (not_le.mpr future)
      simp [Call.succeeds, Row.admits, waits]
  | _ => rfl

theorem hold_balance (seconds : Option Rat) {now later : Rat}
    (first : ∀ found, row = some found → found.updatedAt ≤ now) (second : now ≤ later) :
    (bucket.locked (some (bucket.hold row seconds now)) later).tokens =
      (bucket.locked row later).tokens := by
  rw [← locked_locked row first second]
  rfl

end Performing

section Law

/-- The clock reading is not before the last one. -/
def Meter.Forward (meter : Meter) (call : Call bucket) : Prop :=
  ∀ row, meter.row = some row → row.updatedAt ≤ call.now

def Meter.Accounts (bucket : TokenBucket) (meter : Meter) : Prop :=
  match meter.row with
  | none => meter.log = []
  | some row => Run bucket.capacity bucket.perSecond row.tokens row.updatedAt meter.log

theorem Meter.Accounts.step {meter : Meter} (accounts : meter.Accounts bucket)
    (call : Call bucket) (forward : meter.Forward call) : (meter.step call).Accounts bucket := by
  have paid := perform_paid meter.row call
  have covered : 0 < (call.entry meter.row).taken → 0 ≤ (call.perform meter.row).tokens :=
    fun taken => perform_nonneg (entry_taken_pos taken)
  have moment : (call.perform meter.row).updatedAt = (call.entry meter.row).time :=
    perform_updatedAt meter.row call
  change Run bucket.capacity bucket.perSecond (call.perform meter.row).tokens
    (call.perform meter.row).updatedAt (meter.log ++ [call.entry meter.row])
  rw [moment]
  unfold Meter.Accounts at accounts
  split at accounts
  · rename_i absent
    rw [accounts]
    rw [absent] at paid covered ⊢
    rw [locked_none] at paid
    have opened : Run bucket.capacity bucket.perSecond bucket.capacity call.now [] :=
      Run.start (le_refl _)
    refine opened.move (le_refl _) (entry_returned_nonneg none call) (perform_le none call) ?_
      covered
    rw [show (call.entry none).time = call.now from rfl, sub_self, refilled_zero (le_refl _)]
    exact paid
  · rename_i row found
    rw [found] at paid covered ⊢
    exact accounts.move (forward row found) (entry_returned_nonneg _ call) (perform_le _ call)
      paid covered

theorem forward_of_pairwise {calls : List (Call bucket)} {meter : Meter}
    (sorted : calls.Pairwise fun first second => first.now ≤ second.now)
    (later : ∀ call ∈ calls, meter.Forward call) :
    Meets Meter.step Meter.Forward meter calls := by
  induction calls generalizing meter with
  | nil => trivial
  | cons call rest ih =>
      rcases List.pairwise_cons.mp sorted with ⟨first, others⟩
      refine ⟨later call List.mem_cons_self, ih others ?_⟩
      intro other member row found
      obtain rfl : call.perform meter.row = row := Option.some.inj found
      rw [perform_updatedAt]
      exact first other member

/-- What the bucket promises of a state: its balance is within the capacity, a span of time
takes no more than the capacity and its refill, and a hold refuses every take and costs
nothing. -/
structure Meter.Lawful (bucket : TokenBucket) (meter : Meter) : Prop where
  within : ∀ row, meter.row = some row → row.tokens ≤ bucket.capacity
  covered : ∀ call : Call bucket, call.succeeds meter.row = true →
    0 ≤ (call.perform meter.row).tokens
  rated : ∀ first last, first ≤ last →
    net (Run.during first last) meter.log ≤
      bucket.capacity + bucket.perSecond * (last - first)
  held : ∀ row moment, meter.row = some row → row.heldUntil = some moment →
    ∀ call : Call bucket, call.now < moment → call.succeeds meter.row = false
  kept : ∀ seconds now later, (∀ row, meter.row = some row → row.updatedAt ≤ now) →
    now ≤ later →
    (bucket.locked (some (bucket.hold meter.row seconds now)) later).tokens =
      (bucket.locked meter.row later).tokens

theorem Meter.Accounts.lawful {meter : Meter} (accounts : meter.Accounts bucket) :
    meter.Lawful bucket where
  within row found := by
    unfold Meter.Accounts at accounts
    rw [found] at accounts
    exact accounts.le_capacity
  covered call taken := perform_nonneg taken
  rated first last forward := by
    have rate := (perSecond_pos bucket).le
    have capacious := (capacity_pos bucket).le
    have gained : 0 ≤ bucket.perSecond * (last - first) :=
      mul_nonneg rate (sub_nonneg.mpr forward)
    unfold Meter.Accounts at accounts
    split at accounts
    · rw [accounts, net_nil]
      linarith
    · rw [mul_comm]
      exact accounts.during_le rate forward capacious
  held row moment found held call future := by
    rw [found]
    exact held_refuses held future
  kept seconds now later first second := hold_balance seconds first second

/-- Whatever any number of processes do to a bucket, its rate holds. -/
theorem bucket_rate (calls : List (Call bucket))
    (sorted : calls.Pairwise fun first second => first.now ≤ second.now) :
    (Meter.run calls).Lawful bucket := by
  have forward : Meets Meter.step Meter.Forward {} calls :=
    forward_of_pairwise sorted fun call _ row found => nomatch found
  have initially : (({} : Meter)).Accounts bucket := rfl
  have accounts : (Meter.run calls).Accounts bucket :=
    exec_invariant_of_meets (Meter.Accounts bucket)
      (fun _ call reading earlier => earlier.step call reading) initially forward
  exact accounts.lawful

def everySecond : TokenBucket where
  name := "scholarxiv"
  perHour := 3600
  capacious := by decide
  lasting := by decide

theorem oneUnit_positive : (0 : Rat) < 1 := by decide

def oneUnit (bucket : TokenBucket) : Cost bucket where
  amount := 1
  positive := oneUnit_positive
  within := by
    have capacious : 1 ≤ bucket.perHour := bucket.capacious
    simpa [TokenBucket.capacity] using capacious

theorem bucket_rate_example :
    (Meter.run ([⟨0, .take (oneUnit everySecond) true⟩, ⟨1, .block (some 10)⟩,
      ⟨2, .refund (oneUnit everySecond)⟩] : List (Call everySecond))).Lawful everySecond :=
  bucket_rate _ (by decide)

end Law

end Ovrly.Providers
