import Ovrly.Providers.Bucket

/-!
The pause of `TokenBucket.block`.

A block is a negative balance, not a deadline, so whatever is returned to the bucket during the
pause moves its end. A row pauses until a moment when no take of one unit goes through before
it; every call but a refund keeps that, and a refund keeps it exactly when it leaves at most
one unit for the rest of the pause.
-/

namespace Ovrly.Providers

open Runs Metered

variable {bucket : TokenBucket}

/-- No take of one unit goes through before the moment. -/
def Paused (bucket : TokenBucket) (moment : Rat) (row : Row) : Prop :=
  ∀ now, row.updatedAt ≤ now → now < moment →
    Call.succeeds (some row) (⟨now, .take (oneUnit bucket) true⟩ : Call bucket) = false

def Row.HeldThrough (row : Row) (moment : Rat) : Prop :=
  ∃ held, row.heldUntil = some held ∧ moment ≤ held

def Row.Starved (bucket : TokenBucket) (row : Row) (moment : Rat) : Prop :=
  row.tokens + bucket.perSecond * (moment - row.updatedAt) ≤ 1

theorem succeeds_oneUnit {row : Row} {now : Rat} (forward : row.updatedAt ≤ now) :
    Call.succeeds (some row) (⟨now, .take (oneUnit bucket) true⟩ : Call bucket) = true ↔
      (∀ held, row.heldUntil = some held → held ≤ now) ∧
        1 ≤ row.tokens + bucket.perSecond * (now - row.updatedAt) := by
  have rate := perSecond_pos bucket
  have reached := @le_refilled_iff Rat _ _ bucket.capacity bucket.perSecond row.tokens
    (now - row.updatedAt) _ 1 rate (oneUnit bucket).within (sub_nonneg.mpr forward)
  simp only [Call.succeeds, Row.admits, Bool.and_true, decide_eq_true_eq, held_eq_zero,
    locked_heldUntil]
  apply and_congr_right
  intro _
  rw [show (oneUnit bucket).amount = 1 from rfl, locked_some, reached, div_le_iff₀ rate]
  constructor
  · intro enough
    linarith
  · intro enough
    linarith

/-- A row pauses until a moment exactly when the moment has passed, a hold covers it or the
balance is too low. -/
theorem paused_iff {moment : Rat} {row : Row} :
    Paused bucket moment row ↔
      moment ≤ row.updatedAt ∨ row.HeldThrough moment ∨ row.Starved bucket moment := by
  have rate := perSecond_pos bucket
  constructor
  · intro paused
    by_contra opened
    simp only [not_or, not_le, Row.HeldThrough, not_exists, not_and, Row.Starved] at opened
    rcases opened with ⟨future, free, enough⟩
    -- The first reading at which the hold is over and one unit is there.
    let full := row.updatedAt + (1 - row.tokens) / bucket.perSecond
    let released := row.heldUntil.getD row.updatedAt
    let now := max row.updatedAt (max full released)
    have filled : full < moment := by
      have share : (1 - row.tokens) / bucket.perSecond < moment - row.updatedAt := by
        rw [div_lt_iff₀ rate]
        linarith
      simp only [full]
      linarith
    have freed : released < moment := by
      cases held : row.heldUntil with
      | none => simpa [released, held] using future
      | some ends => simpa [released, held] using free ends held
    have before : now < moment := max_lt future (max_lt filled freed)
    have forward : row.updatedAt ≤ now := le_max_left _ _
    have refused := paused now forward before
    rw [← Bool.not_eq_true, succeeds_oneUnit forward] at refused
    apply refused
    constructor
    · intro held found
      have same : released = held := by simp [released, found]
      rw [← same]
      exact le_trans (le_max_right _ _) (le_max_right _ _)
    · have reached : full ≤ now := le_trans (le_max_left _ _) (le_max_right _ _)
      have share : (1 - row.tokens) / bucket.perSecond ≤ now - row.updatedAt := by
        simp only [full] at reached
        linarith
      rw [div_le_iff₀ rate] at share
      linarith
  · rintro kept now forward before
    rw [← Bool.not_eq_true, succeeds_oneUnit forward]
    rintro ⟨free, enough⟩
    rcases kept with past | ⟨held, found, covers⟩ | starved
    · linarith
    · have freed := free held found
      linarith
    · have shorter : bucket.perSecond * (now - row.updatedAt) <
          bucket.perSecond * (moment - row.updatedAt) :=
        mul_lt_mul_of_pos_left (by linarith) rate
      unfold Row.Starved at starved
      linarith

/-- A refund during the pause leaves at most one unit for the rest of it, or comes under a hold
that outlasts it. -/
def Gentle (bucket : TokenBucket) (moment : Rat) (row : Row) (call : Call bucket) : Prop :=
  match call.op with
  | .refund cost =>
      moment ≤ call.now ∨ row.HeldThrough moment ∨
        (bucket.locked (some row) call.now).tokens + cost.amount +
          bucket.perSecond * (moment - call.now) ≤ 1
  | _ => True

section Steps

variable {moment : Rat} {row : Row} {call : Call bucket}

theorem step_starved (forward : row.updatedAt ≤ call.now)
    (none : (call.entry (some row)).returned = 0) (starved : row.Starved bucket moment) :
    (row.step call).Starved bucket moment := by
  have rate := perSecond_pos bucket
  have paid := perform_paid (some row) call
  have gained : (bucket.locked (some row) call.now).tokens ≤
      row.tokens + (call.now - row.updatedAt) * bucket.perSecond :=
    refilled_le_add (sub_nonneg.mpr forward)
  have taken := entry_taken_nonneg (some row) call
  unfold Row.Starved Row.step at *
  rw [perform_updatedAt]
  rw [none] at paid
  nlinarith

theorem step_heldThrough (held : row.HeldThrough moment) :
    (row.step call).HeldThrough moment := by
  rcases held with ⟨current, found, covers⟩
  rcases call with ⟨now, op⟩
  cases op with
  | take cost others =>
      refine ⟨current, ?_, covers⟩
      simp only [Row.step, perform_take]
      split <;> exact found
  | refund cost => exact ⟨current, found, covers⟩
  | hold seconds =>
      have kept : (Row.step row (⟨now, .hold seconds⟩ : Call bucket)).heldUntil =
          some (if current < now + pauseOf seconds then now + pauseOf seconds else current) := by
        simp only [Row.step, Call.perform, TokenBucket.hold, locked_heldUntil, found]
      refine ⟨_, kept, ?_⟩
      split
      · linarith
      · exact covers
  | block seconds => exact ⟨current, found, covers⟩

theorem step_paused (forward : row.updatedAt ≤ call.now)
    (none : (call.entry (some row)).returned = 0) (paused : Paused bucket moment row) :
    Paused bucket moment (row.step call) := by
  rw [paused_iff] at paused ⊢
  have updated : (row.step call).updatedAt = call.now := perform_updatedAt _ _
  rcases paused with past | held | starved
  · left
    rw [updated]
    linarith
  · exact Or.inr (Or.inl (step_heldThrough held))
  · exact Or.inr (Or.inr (step_starved forward none starved))

theorem refund_paused_iff (now : Rat) (cost : Cost bucket) :
    Paused bucket moment (row.step (⟨now, .refund cost⟩ : Call bucket)) ↔
      Gentle bucket moment row ⟨now, .refund cost⟩ := by
  rw [paused_iff]
  have rate := perSecond_pos bucket
  have unit : 1 ≤ bucket.capacity := (oneUnit bucket).within
  have tokens : (row.step (⟨now, .refund cost⟩ : Call bucket)).tokens =
      min bucket.capacity ((bucket.locked (some row) now).tokens + cost.amount) := rfl
  have updated : (row.step (⟨now, .refund cost⟩ : Call bucket)).updatedAt = now := rfl
  simp only [Gentle, Row.Starved, tokens, updated]
  constructor
  · rintro (past | held | starved)
    · exact Or.inl past
    · exact Or.inr (Or.inl held)
    · by_cases past : moment ≤ now
      · exact Or.inl past
      · have left : 0 < bucket.perSecond * (moment - now) :=
          mul_pos rate (sub_pos.mpr (not_le.mp past))
        rcases le_total bucket.capacity
          ((bucket.locked (some row) now).tokens + cost.amount) with full | room
        · rw [min_eq_left full] at starved
          linarith
        · rw [min_eq_right room] at starved
          exact Or.inr (Or.inr starved)
  · rintro (past | held | low)
    · exact Or.inl past
    · exact Or.inr (Or.inl held)
    · have smaller := min_le_right bucket.capacity
        ((bucket.locked (some row) now).tokens + cost.amount)
      exact Or.inr (Or.inr (by linarith))

theorem step_paused_iff (forward : row.updatedAt ≤ call.now) (paused : Paused bucket moment row) :
    Paused bucket moment (row.step call) ↔ Gentle bucket moment row call := by
  rcases call with ⟨now, op⟩
  cases op with
  | refund cost => exact refund_paused_iff now cost
  | take cost others => exact iff_of_true (step_paused forward rfl paused) trivial
  | hold seconds => exact iff_of_true (step_paused forward rfl paused) trivial
  | block seconds => exact iff_of_true (step_paused forward rfl paused) trivial

theorem block_paused (row : Option Row) (seconds : Option Rat) (now : Rat) :
    Paused bucket (now + pauseOf seconds) (bucket.block row seconds now) := by
  rw [paused_iff]
  right; right
  have lowered := min_le_right (bucket.locked row now).tokens
    (-pauseOf seconds * bucket.perSecond)
  have tokens : (bucket.block row seconds now).tokens =
      min (bucket.locked row now).tokens (-pauseOf seconds * bucket.perSecond) := rfl
  have updated : (bucket.block row seconds now).updatedAt = now := rfl
  unfold Row.Starved
  rw [tokens, updated]
  linarith

end Steps

/-- A paused row stays paused throughout a run exactly when every refund of it is gentle. -/
theorem run_paused_iff {moment : Rat} {row : Row} {calls : List (Call bucket)}
    (paused : Paused bucket moment row) (forward : ∀ call ∈ calls, row.updatedAt ≤ call.now)
    (sorted : calls.Pairwise fun first second => first.now ≤ second.now) :
    (∀ earlier, earlier <+: calls → Paused bucket moment (exec Row.step row earlier)) ↔
      Meets Row.step (Gentle bucket moment) row calls := by
  induction calls generalizing row with
  | nil =>
      refine iff_of_true ?_ trivial
      intro earlier initial
      rw [List.prefix_nil.mp initial]
      exact paused
  | cons call rest ih =>
      rcases List.pairwise_cons.mp sorted with ⟨first, others⟩
      have reached : row.updatedAt ≤ call.now := forward call List.mem_cons_self
      have updated : (row.step call).updatedAt = call.now := perform_updatedAt _ _
      have later : ∀ other ∈ rest, (row.step call).updatedAt ≤ other.now := by
        intro other member
        rw [updated]
        exact first other member
      constructor
      · intro stays
        have next : Paused bucket moment (row.step call) :=
          stays [call] ⟨rest, rfl⟩
        refine ⟨(step_paused_iff reached paused).mp next, ?_⟩
        apply (ih next later others).mp
        intro earlier initial
        exact stays (call :: earlier) (List.cons_prefix_cons.mpr ⟨rfl, initial⟩)
      · rintro ⟨gentle, rest_gentle⟩ earlier initial
        have next := (step_paused_iff reached paused).mpr gentle
        cases earlier with
        | nil => exact paused
        | cons other tail =>
            rcases List.cons_prefix_cons.mp initial with ⟨rfl, shorter⟩
            exact (ih next later others).mpr rest_gentle tail shorter

/-- After a block no take of one unit goes through before the pause is over, wherever it comes
in the calls that follow, exactly when every refund among them is gentle. -/
theorem block_pauses_iff (row : Option Row) (seconds : Option Rat) (now : Rat)
    (calls : List (Call bucket)) (forward : ∀ call ∈ calls, now ≤ call.now)
    (sorted : calls.Pairwise fun first second => first.now ≤ second.now) :
    (∀ earlier, earlier <+: calls → ∀ reading,
      (exec Row.step (bucket.block row seconds now) earlier).updatedAt ≤ reading →
      reading < now + pauseOf seconds →
      Call.succeeds (some (exec Row.step (bucket.block row seconds now) earlier))
        (⟨reading, .take (oneUnit bucket) true⟩ : Call bucket) = false) ↔
      Meets Row.step (Gentle bucket (now + pauseOf seconds)) (bucket.block row seconds now)
        calls :=
  run_paused_iff (block_paused row seconds now) forward sorted

/-- The hourly bucket after two takes and a block, where one unit comes back during the pause. -/
theorem block_pauses_example :
    let one := oneUnit everySecond
    let row := (Meter.run [⟨0, .take one true⟩, ⟨0, .take one true⟩]).row
    let blocked := everySecond.block row (some 10) 0
    (∀ earlier, earlier <+: [(⟨1, .refund one⟩ : Call everySecond)] → ∀ reading,
      (exec Row.step blocked earlier).updatedAt ≤ reading → reading < 0 + pauseOf (some 10) →
      Call.succeeds (some (exec Row.step blocked earlier))
        (⟨reading, .take (oneUnit everySecond) true⟩ : Call everySecond) = false) ↔
      Meets Row.step (Gentle everySecond (0 + pauseOf (some 10))) blocked
        [(⟨1, .refund one⟩ : Call everySecond)] :=
  block_pauses_iff _ (some 10) 0 _ (by decide) (by decide)

/-- Two units come back a second into a pause of ten, and the take at nine goes through. -/
theorem block_cut_short :
    let one := oneUnit everySecond
    let calls : List (Call everySecond) :=
      [⟨0, .take one true⟩, ⟨0, .take one true⟩, ⟨0, .block (some 10)⟩, ⟨1, .refund one⟩,
        ⟨1, .refund one⟩]
    (Meter.run (calls.take 2)).log.map Entry.taken = [1, 1] ∧ (9 : Rat) < 0 + pauseOf (some 10) ∧
      Call.succeeds (Meter.run calls).row
        (⟨9, .take one true⟩ : Call everySecond) = true := by
  decide +kernel

section Totals

def Call.returned (call : Call bucket) : Rat :=
  match call.op with
  | .refund cost => cost.amount
  | _ => 0

theorem entry_returned (row : Option Row) (call : Call bucket) :
    (call.entry row).returned = call.returned := rfl

theorem gentle_of_total {moment slack : Rat} {row : Row} {calls : List (Call bucket)}
    (low : row.tokens + bucket.perSecond * (moment - row.updatedAt) ≤ slack)
    (total : slack + (calls.map Call.returned).sum ≤ 1)
    (forward : ∀ call ∈ calls, row.updatedAt ≤ call.now)
    (sorted : calls.Pairwise fun first second => first.now ≤ second.now) :
    Meets Row.step (Gentle bucket moment) row calls := by
  induction calls generalizing row slack with
  | nil => trivial
  | cons call rest ih =>
      rcases List.pairwise_cons.mp sorted with ⟨first, others⟩
      have reached : row.updatedAt ≤ call.now := forward call List.mem_cons_self
      have updated : (row.step call).updatedAt = call.now := perform_updatedAt _ _
      have later : ∀ other ∈ rest, (row.step call).updatedAt ≤ other.now := by
        intro other member
        rw [updated]
        exact first other member
      have returned : ∀ other ∈ rest, 0 ≤ other.returned := fun other _ =>
        entry_returned_nonneg none other
      have rest_nonneg : 0 ≤ (rest.map Call.returned).sum := by
        apply List.sum_nonneg
        intro amount member
        obtain ⟨other, belongs, rfl⟩ := List.mem_map.mp member
        exact returned other belongs
      have gained : (bucket.locked (some row) call.now).tokens ≤
          row.tokens + (call.now - row.updatedAt) * bucket.perSecond :=
        refilled_le_add (sub_nonneg.mpr reached)
      rw [List.map_cons, List.sum_cons] at total
      refine ⟨?_, ?_⟩
      · rcases call with ⟨now, op⟩
        cases op with
        | refund cost =>
            right; right
            simp only [Call.returned] at total
            simp only at gained
            nlinarith
        | _ => trivial
      · have paid := perform_paid (some row) call
        have taken := entry_taken_nonneg (some row) call
        rw [entry_returned] at paid
        apply @ih (slack + call.returned) (row.step call) _ _ later others
        · rw [updated]
          unfold Row.step
          nlinarith
        · linarith

/-- A pause in which at most one unit is returned lasts as long as it was asked for. -/
theorem block_pauses_of_total (row : Option Row) (seconds : Option Rat) (now : Rat)
    {calls : List (Call bucket)} (forward : ∀ call ∈ calls, now ≤ call.now)
    (sorted : calls.Pairwise fun first second => first.now ≤ second.now)
    (total : (calls.map Call.returned).sum ≤ 1) :
    Paused bucket (now + pauseOf seconds)
      (exec Row.step (bucket.block row seconds now) calls) := by
  have lowered := min_le_right (bucket.locked row now).tokens
    (-pauseOf seconds * bucket.perSecond)
  have low : (bucket.block row seconds now).tokens +
      bucket.perSecond * (now + pauseOf seconds - (bucket.block row seconds now).updatedAt) ≤
      0 := by
    change min (bucket.locked row now).tokens (-pauseOf seconds * bucket.perSecond) +
      bucket.perSecond * (now + pauseOf seconds - now) ≤ 0
    linarith
  have gentle := gentle_of_total low (by linarith) forward sorted
  exact (run_paused_iff (block_paused row seconds now) forward sorted).mpr gentle calls
    (List.prefix_refl calls)

end Totals

end Ovrly.Providers
