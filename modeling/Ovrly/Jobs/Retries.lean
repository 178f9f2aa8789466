import Mathlib
import Ovrly.Jobs.Fencing
import Ovrly.Jobs.Workers

/-!
Retry classes and their policy (`jobs/retries.py`), and the end of a failed attempt
(`worker/runtime.py`).

A worker decides from the counts it read when it claimed the job. The counter itself is raised
later by the statement that gives the lease back.
-/

namespace Ovrly.Jobs

structure RetrySettings where
  transientAttempts : Nat := 5
  rateLimitedAttempts : Nat := 5
  schemaRepairAttempts : Nat := 2
  unknownOutcomeAttempts : Nat := 3
  backoffSeconds : Rat := 1
  maxBackoffSeconds : Rat := 60
  bounded : transientAttempts ≤ 20 ∧ rateLimitedAttempts ≤ 20 ∧ schemaRepairAttempts ≤ 10 ∧
    unknownOutcomeAttempts ≤ 10
  positive : 0 < backoffSeconds
  ordered : backoffSeconds ≤ maxBackoffSeconds

structure RetryPolicy where
  transientAttempts : Nat
  rateLimitedAttempts : Nat
  schemaRepairAttempts : Nat
  unknownOutcomeAttempts : Nat
  backoffSeconds : Rat
  maxBackoffSeconds : Rat

def RetryPolicy.fromSettings (settings : RetrySettings) : RetryPolicy where
  transientAttempts := settings.transientAttempts
  rateLimitedAttempts := settings.rateLimitedAttempts
  schemaRepairAttempts := settings.schemaRepairAttempts
  unknownOutcomeAttempts := settings.unknownOutcomeAttempts
  backoffSeconds := settings.backoffSeconds
  maxBackoffSeconds := settings.maxBackoffSeconds

/-- The hint of a `ProviderCooldown`, a validated provider minimum. -/
structure Cooldown where
  seconds : Rat
  nonneg : 0 ≤ seconds

/-- What a handler raises; the classes that extend these keep their class. -/
inductive Outcome
  | transient
  | rateLimited (retryAfterSeconds : Option Rat)
  | providerCooldown (retryAfter : Option Cooldown)
  | nonRetriableInput
  | invalidModelSchema
  | unknownOutcome

structure RetryableError where
  name : String
  outcome : Outcome

def Outcome.retryClass : Outcome → RetryClass
  | .transient => .transient
  | .rateLimited _ => .rateLimited
  | .providerCooldown _ => .rateLimited
  | .nonRetriableInput => .nonRetriableInput
  | .invalidModelSchema => .invalidModelSchema
  | .unknownOutcome => .unknownOutcome

/-- A draw of `SystemRandom().random()`. -/
structure Jitter where
  fraction : Rat
  nonneg : 0 ≤ fraction
  below : fraction < 1

structure RetryDecision where
  retryClass : RetryClass
  count : Nat
  delaySeconds : Option Rat
  deriving DecidableEq

namespace RetryPolicy

variable (policy : RetryPolicy)

def cap : RetryClass → Nat
  | .transient => policy.transientAttempts
  | .rateLimited => policy.rateLimitedAttempts
  | .invalidModelSchema => policy.schemaRepairAttempts
  | .unknownOutcome => policy.unknownOutcomeAttempts
  | .nonRetriableInput => 0

/-- Full-jitter exponential backoff before a retry, counted from one. -/
def backoff (count : Nat) (jitter : Jitter) : Rat :=
  min policy.maxBackoffSeconds (policy.backoffSeconds * 2 ^ (count - 1)) * jitter.fraction

def delay (outcome : Outcome) (count : Nat) (jitter : Jitter) : Rat :=
  match outcome with
  | .providerCooldown (some cooldown) => cooldown.seconds
  | .rateLimited (some hint) => min (max hint 0) policy.maxBackoffSeconds
  | _ => policy.backoff count jitter

def decide (outcome : Outcome) (retryCounts : RetryCounts) (requestIdRecorded : Bool)
    (jitter : Jitter) : RetryDecision :=
  let retryClass := outcome.retryClass
  let count := retryCounts.count retryClass + 1
  { retryClass
    count
    delaySeconds :=
      if policy.cap retryClass < count then none
      else if retryClass = .unknownOutcome ∧ requestIdRecorded = false then none
      else some (policy.delay outcome count jitter) }

variable {policy} {outcome : Outcome} {counts : RetryCounts} {recorded : Bool} {jitter : Jitter}

theorem decide_exhausted :
    (policy.decide outcome counts recorded jitter).delaySeconds = none ↔
      policy.cap outcome.retryClass ≤ counts.count outcome.retryClass ∨
        outcome.retryClass = .unknownOutcome ∧ recorded = false := by
  simp only [decide]
  by_cases spent : policy.cap outcome.retryClass < counts.count outcome.retryClass + 1
  · simp [spent, Nat.lt_succ_iff.mp spent]
  · have left : ¬policy.cap outcome.retryClass ≤ counts.count outcome.retryClass := by omega
    by_cases blind : outcome.retryClass = .unknownOutcome ∧ recorded = false
    · rw [if_neg spent, if_pos blind]
      exact iff_of_true rfl (Or.inr blind)
    · rw [if_neg spent, if_neg blind]
      exact iff_of_false (Option.some_ne_none _) (not_or.mpr ⟨left, blind⟩)

theorem decide_delay {seconds : Rat}
    (scheduled : (policy.decide outcome counts recorded jitter).delaySeconds = some seconds) :
    counts.count outcome.retryClass < policy.cap outcome.retryClass ∧
      (outcome.retryClass = .unknownOutcome → recorded = true) ∧
      seconds = policy.delay outcome (counts.count outcome.retryClass + 1) jitter := by
  have going := mt decide_exhausted.mpr (by rw [scheduled]; exact Option.some_ne_none seconds)
  obtain ⟨left, seen⟩ := not_or.mp going
  refine ⟨not_le.mp left, fun unknown => by simpa [unknown] using seen, ?_⟩
  have open_ : ¬policy.cap outcome.retryClass < counts.count outcome.retryClass + 1 := by omega
  simp only [decide, if_neg open_, if_neg seen, Option.some.injEq] at scheduled
  exact scheduled.symm

end RetryPolicy

section Delays

variable (settings : RetrySettings)

theorem backoff_bounds (count : Nat) (jitter : Jitter) :
    0 ≤ (RetryPolicy.fromSettings settings).backoff count jitter ∧
      (RetryPolicy.fromSettings settings).backoff count jitter ≤ settings.maxBackoffSeconds := by
  have most : (0 : Rat) ≤ settings.maxBackoffSeconds :=
    settings.positive.le.trans settings.ordered
  have base : (0 : Rat) ≤ settings.backoffSeconds * 2 ^ (count - 1) :=
    mul_nonneg settings.positive.le (by positivity)
  have ceiling : (0 : Rat) ≤
      min settings.maxBackoffSeconds (settings.backoffSeconds * 2 ^ (count - 1)) :=
    le_min most base
  constructor
  · exact mul_nonneg ceiling jitter.nonneg
  · calc min settings.maxBackoffSeconds (settings.backoffSeconds * 2 ^ (count - 1)) *
          jitter.fraction
        ≤ min settings.maxBackoffSeconds (settings.backoffSeconds * 2 ^ (count - 1)) :=
          mul_le_of_le_one_right ceiling jitter.below.le
      _ ≤ settings.maxBackoffSeconds := min_le_left _ _

/-- The bounds of a delay, which the hint of a cooldown alone may exceed. -/
structure Bounded (outcome : Outcome) (seconds : Rat) : Prop where
  nonneg : 0 ≤ seconds
  ceiling : (∀ cooldown, outcome ≠ .providerCooldown (some cooldown)) →
    seconds ≤ settings.maxBackoffSeconds
  hinted : ∀ cooldown, outcome = .providerCooldown (some cooldown) → seconds = cooldown.seconds

theorem delay_bounded (outcome : Outcome) (count : Nat) (jitter : Jitter) :
    Bounded settings outcome ((RetryPolicy.fromSettings settings).delay outcome count jitter) := by
  have jittered := backoff_bounds settings count jitter
  have other : (∀ cooldown, outcome ≠ .providerCooldown (some cooldown)) →
      (∀ hint, outcome ≠ .rateLimited (some hint)) →
      Bounded settings outcome
        ((RetryPolicy.fromSettings settings).delay outcome count jitter) := by
    intro unhinted unlimited
    have same : (RetryPolicy.fromSettings settings).delay outcome count jitter =
        (RetryPolicy.fromSettings settings).backoff count jitter := by
      unfold RetryPolicy.delay
      split
      · rename_i cooldown
        exact absurd rfl (unhinted cooldown)
      · rename_i hint
        exact absurd rfl (unlimited hint)
      · rfl
    rw [same]
    exact ⟨jittered.1, fun _ => jittered.2, fun cooldown hint => absurd hint (unhinted cooldown)⟩
  cases outcome with
  | providerCooldown hint =>
      cases hint with
      | none => exact other (fun _ same => by cases same) fun _ same => by cases same
      | some cooldown =>
          refine ⟨cooldown.nonneg, fun unhinted => absurd rfl (unhinted cooldown), ?_⟩
          intro again same
          cases same
          rfl
  | rateLimited hint =>
      cases hint with
      | none => exact other (fun _ same => by cases same) fun _ same => by cases same
      | some seconds =>
          have most : (0 : Rat) ≤ settings.maxBackoffSeconds :=
            settings.positive.le.trans settings.ordered
          exact ⟨le_min (le_max_right _ _) most, fun _ => min_le_right _ _,
            fun _ same => by cases same⟩
  | transient | nonRetriableInput | invalidModelSchema | unknownOutcome =>
      exact other (fun _ same => by cases same) fun _ same => by cases same

end Delays

section Counts

theorem lookup_filter (counts : RetryCounts) {retryClass other : RetryClass}
    (different : other ≠ retryClass) :
    (counts.filter (·.1 ≠ retryClass)).lookup other = counts.lookup other := by
  induction counts with
  | nil => rfl
  | cons entry rest ih =>
      by_cases dropped : entry.1 = retryClass
      · have unlike : (other == entry.1) = false := by simpa [dropped] using different
        rw [List.filter_cons_of_neg (by simpa using dropped), List.lookup_cons, unlike]
        exact ih
      · rw [List.filter_cons_of_pos (by simpa using dropped), List.lookup_cons, List.lookup_cons,
          ih]

theorem count_set (counts : RetryCounts) (retryClass other : RetryClass) (count : Nat) :
    (counts.set retryClass count).count other =
      if other = retryClass then count else counts.count other := by
  unfold RetryCounts.set RetryCounts.count
  by_cases same : other = retryClass
  · simp [same, List.lookup]
  · have differs : (other == retryClass) = false := by simpa using same
    rw [if_neg same, List.lookup_cons, differs]
    exact congrArg (·.getD 0) (lookup_filter counts same)

end Counts

end Ovrly.Jobs
