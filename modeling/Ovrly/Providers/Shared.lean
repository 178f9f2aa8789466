import Ovrly.Providers.Bucket

/-!
Several buckets charged together (`SharedBudget`).

One transaction locks the rows of every charged bucket in name order, each with its own clock
reading, and takes every cost or none. Refunds and holds visit the buckets one by one.
-/

namespace Ovrly.Providers

open Runs Metered

/-- The rows of `provider_buckets` by name. -/
abbrev Rows := String → Option Row

structure SharedBudget where
  buckets : List TokenBucket
  distinct : (buckets.map TokenBucket.name).Nodup

structure Charge where
  bucket : TokenBucket
  cost : Cost bucket

def Charge.name (charge : Charge) : String := charge.bucket.name

def clamped (bucket : TokenBucket) (cost : Rat) (positive : 0 < cost) : Cost bucket where
  amount := min cost bucket.capacity
  positive := lt_min positive (capacity_pos bucket)
  within := min_le_right _ _

def charge? (item : TokenBucket × Rat) : Option Charge :=
  if positive : 0 < item.2 then some ⟨item.1, clamped item.1 item.2 positive⟩ else none

def SharedBudget.charges (budget : SharedBudget) (costs : List Rat) :
    Except String (List Charge) :=
  if costs.length ≠ budget.buckets.length then .error "One cost is required per bucket"
  else if costs.any (· < 0) then .error "Token cost must be finite and not negative"
  else
    .ok (((budget.buckets.zip costs).filterMap charge?).mergeSort
      fun first second => decide (first.name ≤ second.name))

/-- A charge with its locked row. -/
structure Locked where
  charge : Charge
  row : Row
  now : Rat

def lock (rows : Rows) (reading : String → Rat) (charge : Charge) : Locked where
  charge := charge
  row := charge.bucket.locked (rows charge.name) (reading charge.name)
  now := reading charge.name

def Locked.held (state : Locked) : Rat := state.row.held state.now

def Locked.shortfall (state : Locked) : Rat :=
  state.charge.bucket.shortfall state.row state.charge.cost.amount

def waitOf (states : List Locked) : Rat :=
  (states.map Locked.held ++ states.map Locked.shortfall).foldl max 0

def written (rows : Rows) (wait : Rat) (state : Locked) : Rows :=
  Function.update rows state.charge.name
    (some (if wait = 0 then state.row.spent state.charge.cost.amount else state.row))

/-- Takes every cost or none, and answers the wait. -/
def take (rows : Rows) (charged : List Charge) (reading : String → Rat) : Rat × Rows :=
  let states := charged.map (lock rows reading)
  let wait := waitOf states
  (wait, states.foldl (fun current state => written current wait state) rows)

section Charges

variable {budget : SharedBudget} {costs : List Rat} {charged : List Charge}

theorem charges_ok (accepted : budget.charges costs = .ok charged) :
    costs.length = budget.buckets.length ∧ (∀ cost ∈ costs, 0 ≤ cost) ∧
      charged.Perm ((budget.buckets.zip costs).filterMap charge?) := by
  unfold SharedBudget.charges at accepted
  split at accepted
  · cases accepted
  · rename_i length
    split at accepted
    · cases accepted
    · rename_i signs
      simp only [Except.ok.injEq] at accepted
      refine ⟨not_not.mp length, ?_, ?_⟩
      · intro cost member
        by_contra negative
        exact signs (List.any_eq_true.mpr ⟨cost, member, by simpa using negative⟩)
      · rw [← accepted]
        exact List.mergeSort_perm _ _

theorem charge?_some {item : TokenBucket × Rat} {charge : Charge}
    (found : charge? item = some charge) :
    charge.bucket = item.1 ∧ 0 < item.2 ∧
      charge.cost.amount = min item.2 item.1.capacity := by
  unfold charge? at found
  split at found
  · rename_i positive
    obtain rfl := Option.some.inj found
    exact ⟨rfl, positive, rfl⟩
  · cases found

theorem charge?_names (buckets : List TokenBucket) (costs : List Rat) :
    (((buckets.zip costs).filterMap charge?).map Charge.name).Sublist
      (buckets.map TokenBucket.name) := by
  induction buckets generalizing costs with
  | nil => simp
  | cons bucket rest ih =>
      cases costs with
      | nil => simp
      | cons cost others =>
          rw [List.zip_cons_cons, List.map_cons]
          cases found : charge? (bucket, cost) with
          | none =>
              rw [List.filterMap_cons_none found]
              exact (ih others).cons _
          | some charge =>
              rw [List.filterMap_cons_some found, List.map_cons]
              have same : charge.name = bucket.name := by
                rw [Charge.name, (charge?_some found).1]
              rw [same]
              exact (ih others).cons_cons _

theorem charges_distinct (accepted : budget.charges costs = .ok charged) :
    (charged.map Charge.name).Nodup := by
  have same := ((charges_ok accepted).2.2.map Charge.name).nodup_iff
  exact same.mpr ((charge?_names budget.buckets costs).nodup budget.distinct)

end Charges

section Taking

variable {rows : Rows} {charged : List Charge} {reading : String → Rat}

def Admitted (rows : Rows) (charged : List Charge) (reading : String → Rat) : Prop :=
  ∀ charge ∈ charged,
    (lock rows reading charge).held = 0 ∧
      charge.cost.amount ≤ (lock rows reading charge).row.tokens

theorem foldl_max_le {values : List Rat} {start bound : Rat} :
    values.foldl max start ≤ bound ↔ start ≤ bound ∧ ∀ value ∈ values, value ≤ bound := by
  induction values generalizing start with
  | nil => simp
  | cons value rest ih =>
      rw [List.foldl_cons, ih, max_le_iff]
      simp only [List.mem_cons, forall_eq_or_imp, and_assoc]

theorem shortfall_le {state : Locked} {bound : Rat} (nonneg : 0 ≤ bound) :
    state.shortfall ≤ bound ↔
      state.charge.cost.amount ≤
        state.row.tokens + bound * state.charge.bucket.perSecond := by
  have rate := perSecond_pos state.charge.bucket
  unfold Locked.shortfall TokenBucket.shortfall
  split
  · rw [div_le_iff₀ rate]
    constructor <;> intro enough <;> linarith
  · rename_i enough
    have gained : 0 ≤ bound * state.charge.bucket.perSecond := mul_nonneg nonneg rate.le
    exact iff_of_true nonneg (by linarith)

theorem waitOf_nonneg (states : List Locked) : 0 ≤ waitOf states :=
  (foldl_max_le.mp (le_refl (waitOf states))).1

theorem waitOf_le {states : List Locked} {bound : Rat} (nonneg : 0 ≤ bound) :
    waitOf states ≤ bound ↔
      ∀ state ∈ states, state.held ≤ bound ∧ state.shortfall ≤ bound := by
  unfold waitOf
  rw [foldl_max_le]
  constructor
  · rintro ⟨-, all⟩ state member
    constructor
    · exact all _ (List.mem_append_left _ (List.mem_map_of_mem member))
    · exact all _ (List.mem_append_right _ (List.mem_map_of_mem member))
  · intro all
    refine ⟨nonneg, ?_⟩
    intro value member
    rcases List.mem_append.mp member with held | short
    · obtain ⟨state, belongs, rfl⟩ := List.mem_map.mp held
      exact (all state belongs).1
    · obtain ⟨state, belongs, rfl⟩ := List.mem_map.mp short
      exact (all state belongs).2

/-- A take goes through exactly when no charged bucket is held and each has its cost. -/
theorem take_iff : (take rows charged reading).1 = 0 ↔ Admitted rows charged reading := by
  have zero : (take rows charged reading).1 = 0 ↔
      waitOf (charged.map (lock rows reading)) ≤ 0 := by
    constructor
    · exact fun equal => le_of_eq equal
    · exact fun bound => le_antisymm bound (waitOf_nonneg _)
  rw [zero, waitOf_le (le_refl _)]
  constructor
  · intro all charge member
    have both := all _ (List.mem_map_of_mem member)
    refine ⟨le_antisymm both.1 (held_nonneg _ _), ?_⟩
    have enough := (shortfall_le (le_refl _)).mp both.2
    rw [zero_mul, add_zero] at enough
    exact enough
  · intro admitted state member
    obtain ⟨charge, belongs, rfl⟩ := List.mem_map.mp member
    have both := admitted charge belongs
    refine ⟨le_of_eq both.1, ?_⟩
    rw [shortfall_le (le_refl _), zero_mul, add_zero]
    exact both.2

theorem foldl_written_of_not_mem {states : List Locked} {wait : Rat} {name : String}
    (absent : ∀ state ∈ states, state.charge.name ≠ name) :
    states.foldl (fun current state => written current wait state) rows name = rows name := by
  induction states generalizing rows with
  | nil => rfl
  | cons state rest ih =>
      rw [List.foldl_cons, ih fun other member => absent other (List.mem_cons_of_mem _ member)]
      exact Function.update_of_ne (absent state List.mem_cons_self).symm _ _

theorem take_other {name : String} (absent : ∀ charge ∈ charged, charge.name ≠ name) :
    (take rows charged reading).2 name = rows name := by
  apply foldl_written_of_not_mem
  intro state member
  obtain ⟨charge, belongs, rfl⟩ := List.mem_map.mp member
  exact absent charge belongs

theorem foldl_written_of_mem {states : List Locked} {wait : Rat} {state : Locked}
    (distinct : (states.map fun other => other.charge.name).Nodup) (member : state ∈ states) :
    states.foldl (fun current other => written current wait other) rows state.charge.name =
      some (if wait = 0 then state.row.spent state.charge.cost.amount else state.row) := by
  induction states generalizing rows with
  | nil => simp at member
  | cons first rest ih =>
      rw [List.map_cons, List.nodup_cons] at distinct
      rw [List.foldl_cons]
      rcases List.mem_cons.mp member with rfl | later
      · rw [foldl_written_of_not_mem]
        · exact Function.update_self _ _ _
        · intro other belongs same
          exact distinct.1 (List.mem_map.mpr ⟨other, belongs, same⟩)
      · exact ih distinct.2 later

theorem take_charged (distinct : (charged.map Charge.name).Nodup) {charge : Charge}
    (member : charge ∈ charged) :
    (take rows charged reading).2 charge.name =
      some (if (take rows charged reading).1 = 0 then
        (lock rows reading charge).row.spent charge.cost.amount
      else (lock rows reading charge).row) := by
  have names : ((charged.map (lock rows reading)).map fun other => other.charge.name) =
      charged.map Charge.name := by
    rw [List.map_map]
    rfl
  have belongs : lock rows reading charge ∈ charged.map (lock rows reading) :=
    List.mem_map_of_mem member
  exact foldl_written_of_mem (by rw [names]; exact distinct) belongs

theorem take_row (distinct : (charged.map Charge.name).Nodup) {charge : Charge}
    (member : charge ∈ charged) :
    ∃ others, (take rows charged reading).2 charge.name =
      some (Call.perform (rows charge.name)
        (⟨reading charge.name, .take charge.cost others⟩ : Call charge.bucket)) := by
  by_cases through : (take rows charged reading).1 = 0
  · refine ⟨true, ?_⟩
    have admitted := take_iff.mp through charge member
    have succeeds : Call.succeeds (rows charge.name)
        (⟨reading charge.name, .take charge.cost true⟩ : Call charge.bucket) = true := by
      simp only [Call.succeeds, Row.admits, Bool.and_true, decide_eq_true_eq]
      exact admitted
    rw [take_charged distinct member, if_pos through, perform_take, if_pos succeeds]
    rfl
  · refine ⟨false, ?_⟩
    rw [take_charged distinct member, if_neg through]
    simp [Call.perform, lock]

theorem held_le {row : Row} {now delay : Rat} (nonneg : 0 ≤ delay) :
    row.held now ≤ delay ↔ row.held (now + delay) = 0 := by
  rw [held_eq_zero]
  unfold Row.held
  split
  · rename_i free
    simp [free, nonneg]
  · rename_i moment held
    simp only [held, Option.some.injEq, forall_eq', max_le_iff, nonneg, true_and]
    exact sub_le_iff_le_add'

/-- A row left alone for a while has lost the hold and reached the cost exactly when the while
is as long as what is left of the hold and as what the shortfall takes to refill. -/
theorem locked_later {state : Locked} (reached : state.row.updatedAt = state.now) {delay : Rat}
    (nonneg : 0 ≤ delay) :
    ((state.charge.bucket.locked (some state.row) (state.now + delay)).held
          (state.now + delay) = 0 ∧
        state.charge.cost.amount ≤
          (state.charge.bucket.locked (some state.row) (state.now + delay)).tokens) ↔
      state.held ≤ delay ∧ state.shortfall ≤ delay := by
  have rate := perSecond_pos state.charge.bucket
  apply and_congr
  · exact (held_le nonneg).symm
  · have elapsed : state.now + delay - state.row.updatedAt = delay := by
      rw [reached]
      linarith
    rw [locked_some, elapsed, le_refilled_iff rate state.charge.cost.within nonneg,
      shortfall_le nonneg, div_le_iff₀ rate]
    constructor <;> intro enough <;> linarith

/-- After a refused take the same take goes through as soon as the wait is over. -/
theorem take_again (distinct : (charged.map Charge.name).Nodup)
    (refused : (take rows charged reading).1 ≠ 0) {delay : Rat} (nonneg : 0 ≤ delay) :
    (take (take rows charged reading).2 charged fun name => reading name + delay).1 = 0 ↔
      (take rows charged reading).1 ≤ delay := by
  have later : ∀ charge ∈ charged,
      lock (take rows charged reading).2 (fun name => reading name + delay) charge =
        ⟨charge, charge.bucket.locked (some (lock rows reading charge).row)
          (reading charge.name + delay), reading charge.name + delay⟩ := by
    intro charge member
    have row := @take_charged rows charged reading distinct charge member
    rw [if_neg refused] at row
    simp only [lock] at row ⊢
    rw [row]
  rw [take_iff]
  change _ ↔ waitOf (charged.map (lock rows reading)) ≤ delay
  rw [waitOf_le nonneg]
  constructor
  · intro admitted state member
    obtain ⟨charge, belongs, rfl⟩ := List.mem_map.mp member
    have both := admitted charge belongs
    rw [later charge belongs] at both
    exact (@locked_later (lock rows reading charge) rfl delay nonneg).mp both
  · intro all charge member
    have both := all _ (List.mem_map_of_mem member)
    rw [later charge member]
    exact (@locked_later (lock rows reading charge) rfl delay nonneg).mpr both

end Taking

section Refunds

variable {bucket : TokenBucket}

/-- A call that neither takes nor blocks. -/
def Call.Quiet (row : Option Row) (call : Call bucket) : Prop :=
  call.succeeds row = false ∧ ∀ seconds, call.op ≠ .block seconds

def performed (row : Option Row) (call : Call bucket) : Option Row := some (call.perform row)

theorem perform_locked {row : Option Row} {moment : Rat} {call : Call bucket}
    (first : ∀ found, row = some found → found.updatedAt ≤ moment) (later : moment ≤ call.now) :
    call.perform (some (bucket.locked row moment)) = call.perform row := by
  have same : bucket.locked (some (bucket.locked row moment)) call.now =
      bucket.locked row call.now := locked_locked row first later
  rcases call with ⟨now, op⟩
  cases op with
  | take cost others => simp only [Call.perform, TokenBucket.take, same]
  | refund cost => simp only [Call.perform, TokenBucket.refund, same]
  | hold seconds => simp only [Call.perform, TokenBucket.hold, same]
  | block seconds => simp only [Call.perform, TokenBucket.block, same]

theorem exec_locked {row : Option Row} {moment now : Rat} {calls : List (Call bucket)}
    (first : ∀ found, row = some found → found.updatedAt ≤ moment)
    (forward : ∀ call ∈ calls, moment ≤ call.now) (later : moment ≤ now) :
    bucket.locked (exec performed (some (bucket.locked row moment)) calls) now =
      bucket.locked (exec performed row calls) now := by
  cases calls with
  | nil => exact locked_locked row first later
  | cons call rest =>
      simp only [exec_cons, performed, perform_locked first (forward call List.mem_cons_self)]

/-- A row from which a cost was taken, beside the row without that take: the cost would fill it
up to the other at most. -/
structure Behind (bucket : TokenBucket) (cost : Rat) (taken untaken : Row) : Prop where
  updated : taken.updatedAt = untaken.updatedAt
  held : taken.heldUntil = untaken.heldUntil
  tokens : min bucket.capacity (taken.tokens + cost) ≤ untaken.tokens

theorem min_add_cut {capacity level gain cost : Rat} (nonneg : 0 ≤ cost) :
    min capacity (min capacity (level + gain) + cost) = min capacity (level + cost + gain) := by
  rcases le_total capacity (level + gain) with full | room
  · rw [min_eq_left full, min_eq_left (by linarith), min_eq_left (by linarith)]
  · rw [min_eq_right room]
    congr 1
    linarith

theorem min_gain_le {capacity level cost reached gain : Rat} (nonneg : 0 ≤ cost)
    (forward : 0 ≤ gain) (behind : min capacity (level + cost) ≤ reached) :
    min capacity (min capacity (level + gain) + cost) ≤ min capacity (reached + gain) := by
  rw [min_add_cut nonneg]
  rcases min_le_iff.mp behind with full | room
  · exact le_trans (min_le_left _ _) (le_min (le_refl _) (by linarith))
  · exact min_le_min_left _ (by linarith)

theorem Behind.locked {cost : Rat} (nonneg : 0 ≤ cost) {taken untaken : Row}
    (behind : Behind bucket cost taken untaken) (now : Rat) :
    Behind bucket cost (bucket.locked (some taken) now) (bucket.locked (some untaken) now) where
  updated := rfl
  held := behind.held
  tokens := by
    have gained : 0 ≤ max (now - untaken.updatedAt) 0 * bucket.perSecond :=
      mul_nonneg (le_max_right _ _) (perSecond_pos bucket).le
    rw [locked_some, locked_some, behind.updated]
    exact min_gain_le nonneg gained behind.tokens

theorem Behind.perform {cost : Rat} (nonneg : 0 ≤ cost) {taken untaken : Row}
    (behind : Behind bucket cost taken untaken) (call : Call bucket)
    (quiet : call.Quiet (some taken)) (other : call.Quiet (some untaken)) :
    Behind bucket cost (call.perform (some taken)) (call.perform (some untaken)) := by
  rcases call with ⟨now, op⟩
  have locked := behind.locked nonneg now
  cases op with
  | take charged others =>
      rw [perform_take, perform_take, if_neg (by simp [quiet.1]), if_neg (by simp [other.1])]
      exact locked
  | refund returned =>
      refine ⟨rfl, locked.held, ?_⟩
      exact min_gain_le nonneg returned.positive.le locked.tokens
  | hold seconds =>
      refine ⟨rfl, ?_, locked.tokens⟩
      simp only [Call.perform, TokenBucket.hold, locked.held]
  | block seconds => exact absurd rfl (quiet.2 seconds)

theorem Behind.run {cost : Rat} (nonneg : 0 ≤ cost) {taken untaken : Row}
    (behind : Behind bucket cost taken untaken) {calls : List (Call bucket)}
    (quiet : Meets performed Call.Quiet (some taken) calls)
    (other : Meets performed Call.Quiet (some untaken) calls) :
    ∃ after without, exec performed (some taken) calls = some after ∧
      exec performed (some untaken) calls = some without ∧ Behind bucket cost after without := by
  induction calls generalizing taken untaken with
  | nil => exact ⟨taken, untaken, rfl, rfl, behind⟩
  | cons call rest ih =>
      exact ih (behind.perform nonneg call quiet.1 other.1) quiet.2 other.2

theorem spent_behind (cost : Rat) (row : Row) :
    Behind bucket cost (row.spent cost) row where
  updated := rfl
  held := rfl
  tokens := by
    have restored : (row.spent cost).tokens + cost = row.tokens := by
      simp [Row.spent]
    rw [restored]
    exact min_le_right _ _

theorem refund_le {cost : Cost bucket} {row : Row} {calls : List (Call bucket)}
    (quiet : Meets performed Call.Quiet (some (row.spent cost.amount)) calls)
    (other : Meets performed Call.Quiet (some row) calls) (now : Rat) :
    (bucket.refund (exec performed (some (row.spent cost.amount)) calls) cost.amount now).tokens ≤
      (bucket.locked (exec performed (some row) calls) now).tokens := by
  obtain ⟨after, without, taken, untaken, behind⟩ :=
    (spent_behind cost.amount row).run cost.positive.le quiet other
  rw [taken, untaken]
  exact (behind.locked cost.positive.le now).tokens

end Refunds

/-- What one shared take promises. -/
structure Transacts (budget : SharedBudget) (costs : List Rat) (charged : List Charge)
    (rows : Rows) (reading : String → Rat) : Prop where
  /-- Every positive cost is charged, limited to the capacity of its bucket. -/
  clamped : ∀ charge ∈ charged, ∃ cost, (charge.bucket, cost) ∈ budget.buckets.zip costs ∧
    0 < cost ∧ charge.cost.amount = min cost charge.bucket.capacity
  complete : ∀ item ∈ budget.buckets.zip costs, 0 < item.2 →
    ∃ charge ∈ charged, charge.bucket = item.1
  others : ∀ name, (∀ charge ∈ charged, charge.name ≠ name) →
    (take rows charged reading).2 name = rows name
  whole : (take rows charged reading).1 = 0 → ∀ charge ∈ charged,
    (take rows charged reading).2 charge.name =
      some ((charge.bucket.locked (rows charge.name) (reading charge.name)).spent
        charge.cost.amount)
  refused : (take rows charged reading).1 ≠ 0 → ∀ charge ∈ charged,
    (take rows charged reading).2 charge.name =
      some (charge.bucket.locked (rows charge.name) (reading charge.name))
  calls : ∀ charge ∈ charged, ∃ others, (take rows charged reading).2 charge.name =
    some (Call.perform (rows charge.name)
      (⟨reading charge.name, .take charge.cost others⟩ : Call charge.bucket))
  succeeds : (take rows charged reading).1 = 0 ↔ Admitted rows charged reading
  positive : (take rows charged reading).1 ≠ 0 → 0 < (take rows charged reading).1
  least : (take rows charged reading).1 ≠ 0 → ∀ delay, 0 ≤ delay →
    ((take (take rows charged reading).2 charged fun name => reading name + delay).1 = 0 ↔
      (take rows charged reading).1 ≤ delay)
  capped : ∀ charge ∈ charged, ∀ row now,
    (charge.bucket.refund row charge.cost.amount now).tokens ≤ charge.bucket.capacity
  /-- While nothing else takes from the bucket or blocks it, with the take or without, the
  refund leaves no more than there would be without the take. -/
  restored : (take rows charged reading).1 = 0 → ∀ charge ∈ charged,
    (∀ found, rows charge.name = some found → found.updatedAt ≤ reading charge.name) →
    ∀ (calls : List (Call charge.bucket)) (now : Rat),
      (∀ call ∈ calls, reading charge.name ≤ call.now) → reading charge.name ≤ now →
      Meets performed Call.Quiet ((take rows charged reading).2 charge.name) calls →
      Meets performed Call.Quiet (rows charge.name) calls →
      (charge.bucket.refund (exec performed ((take rows charged reading).2 charge.name) calls)
          charge.cost.amount now).tokens ≤
        (charge.bucket.locked (exec performed (rows charge.name) calls) now).tokens

theorem quiet_locked {bucket : TokenBucket} {row : Option Row} {moment : Rat}
    {calls : List (Call bucket)}
    (first : ∀ found, row = some found → found.updatedAt ≤ moment)
    (forward : ∀ call ∈ calls, moment ≤ call.now)
    (quiet : Meets performed Call.Quiet row calls) :
    Meets performed Call.Quiet (some (bucket.locked row moment)) calls := by
  cases calls with
  | nil => trivial
  | cons call rest =>
      have later := forward call List.mem_cons_self
      refine ⟨⟨?_, quiet.1.2⟩, ?_⟩
      · rw [← quiet.1.1]
        unfold Call.succeeds
        rw [locked_locked row first later]
      · simp only [performed, perform_locked first later]
        exact quiet.2

/-- A shared take is all or nothing, waits for the least time that helps, and its refund gives
back no more than was taken. -/
theorem shared_take {budget : SharedBudget} {costs : List Rat} {charged : List Charge}
    (accepted : budget.charges costs = .ok charged) (rows : Rows) (reading : String → Rat) :
    Transacts budget costs charged rows reading where
  clamped charge member := by
    have found := (charges_ok accepted).2.2.mem_iff.mp member
    obtain ⟨⟨bucket, cost⟩, belongs, charges⟩ := List.mem_filterMap.mp found
    obtain ⟨same, positive, amount⟩ := charge?_some charges
    simp only at same positive amount
    refine ⟨cost, ?_, positive, ?_⟩
    · rw [same]
      exact belongs
    · rw [amount, same]
  complete item member positive := by
    have found : charge? item = some ⟨item.1, Providers.clamped item.1 item.2 positive⟩ := by
      simp only [charge?, dif_pos positive]
    refine ⟨_, ?_, (charge?_some found).1⟩
    exact (charges_ok accepted).2.2.mem_iff.mpr (List.mem_filterMap.mpr ⟨item, member, found⟩)
  others name absent := take_other absent
  whole through charge member := by
    rw [take_charged (charges_distinct accepted) member, if_pos through]
    rfl
  refused held charge member := by
    rw [take_charged (charges_distinct accepted) member, if_neg held]
    rfl
  calls charge member := take_row (charges_distinct accepted) member
  succeeds := take_iff
  positive refused := lt_of_le_of_ne (waitOf_nonneg _) (Ne.symm refused)
  least refused delay nonneg := take_again (charges_distinct accepted) refused nonneg
  capped charge member row now := min_le_left _ _
  restored through charge member first calls now forward later quiet other := by
    have row : (take rows charged reading).2 charge.name =
        some ((charge.bucket.locked (rows charge.name) (reading charge.name)).spent
          charge.cost.amount) := by
      rw [take_charged (charges_distinct accepted) member, if_pos through]
      rfl
    rw [row] at quiet ⊢
    rw [← exec_locked first forward later]
    exact refund_le quiet (quiet_locked first forward other) now

section Examples

def hourly : SharedBudget := ⟨[everySecond], by decide⟩

theorem hourly_charges {cost : Rat} (positive : 0 < cost) :
    hourly.charges [cost] = .ok [⟨everySecond, clamped everySecond cost positive⟩] := by
  simp [SharedBudget.charges, hourly, charge?, positive, positive.le]

def perMinute : TokenBucket where
  name := "minute"
  perHour := 60
  periodSeconds := 60
  capacious := by decide
  lasting := by decide

theorem perDay_capacious : 0 < 1000 := by decide

def perDay : TokenBucket where
  name := "day"
  perHour := 1000
  periodSeconds := 86400
  capacious := perDay_capacious
  lasting := by decide

def dayAndMinute : SharedBudget := ⟨[perMinute, perDay], by decide⟩

def spentRows : Rows
  | "minute" => some ⟨20, 0, none⟩
  | "day" => some ⟨200, 0, none⟩
  | _ => none

def fifty : List Charge :=
  [⟨perDay, clamped perDay 50 (by decide)⟩, ⟨perMinute, clamped perMinute 50 (by decide)⟩]

theorem fifty_charges : dayAndMinute.charges [50, 50] = .ok fifty := by
  have unsorted : (dayAndMinute.buckets.zip [50, 50]).filterMap charge? = fifty.reverse := rfl
  have sorted : fifty.reverse.mergeSort (fun first second => decide (first.name ≤ second.name)) =
      fifty := by
    simp [fifty, List.mergeSort, Charge.name, perDay, perMinute]
  simp only [SharedBudget.charges, unsorted, sorted]
  rfl

/-- The minute cannot pay ten seconds after its last take, so the day is not charged either;
twenty seconds later both pay. -/
theorem shared_take_example :
    (take spentRows fifty fun _ => 10).1 = 20 ∧
      (take (take spentRows fifty fun _ => 10).2 fifty fun _ => 30).1 = 0 ∧
      Transacts dayAndMinute [50, 50] fifty spentRows (fun _ => 10) ∧
      Transacts dayAndMinute [50, 50] fifty (take spentRows fifty fun _ => 10).2 (fun _ => 30) :=
  ⟨by decide +kernel, by decide +kernel, shared_take fifty_charges _ _,
    shared_take fifty_charges _ _⟩

/-- A full bucket refills while five units are out; after another take of eight their refund
leaves more than there would be without the first take. -/
theorem refund_gains :
    let five : Charge := ⟨everySecond, clamped everySecond 5 (by decide)⟩
    let eight : Charge := ⟨everySecond, clamped everySecond 8 (by decide)⟩
    let first := take (fun _ => none) [five] (fun _ => 0)
    let second := take first.2 [eight] (fun _ => 5)
    let without := take (fun _ => none) [eight] (fun _ => 5)
    hourly.charges [5] = .ok [five] ∧ hourly.charges [8] = .ok [eight] ∧
      first.1 = 0 ∧ second.1 = 0 ∧ without.1 = 0 ∧
      (everySecond.locked (without.2 "scholarxiv") 5).tokens <
        (everySecond.refund (second.2 "scholarxiv") 5 5).tokens := by
  refine ⟨hourly_charges _, hourly_charges _, ?_⟩
  decide +kernel

end Examples

end Ovrly.Providers
