import Ovrly.Asr.Reservations

/-!
When the reserve of a speech window is back (`services/provider_budgets.py`).
-/

namespace Ovrly.Providers

open Relational Ovrly.Jobs Ovrly.Asr

structure LimitStatus where
  name : String
  unit : String
  capacity : Nat
  periodSeconds : Nat
  available : Option Rat
  reserve : Rat
  recoverSeconds : Rat

/-- `_ASR_NAMES`, by the window's seconds and whether it counts audio. -/
def asrNames (seconds : Nat) (audio : Bool) : Option (String × String) :=
  if seconds = 60 ∧ audio = false then some ("groq_asr:requests_minute", "requests")
  else if seconds = 86400 ∧ audio = false then some ("groq_asr:requests_day", "requests")
  else if seconds = 3600 ∧ audio = true then
    some ("groq_asr:audio_seconds_hour", "audio_seconds")
  else if seconds = 86400 ∧ audio = true then some ("groq_asr:audio_seconds_day", "audio_seconds")
  else none

def totalSeconds (delta : Time) : Rat := (delta : Rat) / 1000000

variable {ρ : Type}

/-- The rows of the window `ORDER BY created_at`; rows of one time come in any order. -/
structure Oldest (requests : Table (AsrRequest ρ)) (settings : Settings) (window : QuotaWindow)
    (now : Time) where
  rows : List (AsrRequest ρ)
  selected : rows.Perm
    (requests.rows.filter (windowFilter settings window now settings.groqModel))
  ordered : rows.Pairwise fun first second => first.createdAt ≤ second.createdAt

theorem mergeSort_ordered (rows : List (AsrRequest ρ)) :
    (rows.mergeSort fun first second => first.createdAt ≤ second.createdAt).Pairwise
      fun first second => first.createdAt ≤ second.createdAt := by
  have sorted := @List.pairwise_mergeSort (AsrRequest ρ)
    (fun first second => decide (first.createdAt ≤ second.createdAt))
    (fun first second third before after => by
      simp only [decide_eq_true_eq] at before after ⊢
      exact le_trans before after)
    (fun first second => by simpa using le_total first.createdAt second.createdAt) rows
  simpa using sorted

def oldest (requests : Table (AsrRequest ρ)) (settings : Settings) (window : QuotaWindow)
    (now : Time) : Oldest requests settings window now where
  rows := (requests.rows.filter (windowFilter settings window now settings.groqModel)).mergeSort
    fun first second => first.createdAt ≤ second.createdAt
  selected := List.mergeSort_perm _ _
  ordered := mergeSort_ordered _

/-- The time of the first row with which the rows so far release the excess. -/
def releasedAt (charge : AsrRequest ρ → Nat) (excess : Rat) :
    Nat → List (AsrRequest ρ) → Option Time
  | _, [] => none
  | released, row :: rest =>
      if excess ≤ ((released + charge row : Nat) : Rat) then some row.createdAt
      else releasedAt charge excess (released + charge row) rest

section Status

variable {requests : Table (AsrRequest ρ)} {settings : Settings} {window : QuotaWindow}
  {now : Time}

def recoverSeconds (rows : Oldest requests settings window now) (limit : Nat) (fraction : Rat) :
    Rat :=
  let used := windowUsage requests settings window now settings.groqModel
  let reserve := limit * fraction
  let excess := used - (limit - reserve)
  if 0 < excess then
    match releasedAt window.charge excess 0 rows.rows with
    | some createdAt => max 0 (totalSeconds (createdAt + window.width - now))
    | none => 0
  else 0

/-- `_window`; `none` where the name of the window is missing. -/
def windowStatus (rows : Oldest requests settings window now) (limit : Nat) (fraction : Rat) :
    Option LimitStatus := do
  let (name, unit) ← asrNames window.seconds window.audio
  let used := windowUsage requests settings window now settings.groqModel
  return {
    name := name
    unit := unit
    capacity := limit
    periodSeconds := window.seconds
    available := some (limit - used)
    reserve := limit * fraction
    recoverSeconds := recoverSeconds rows limit fraction }

end Status

theorem releasedAt_none {charge : AsrRequest ρ → Nat} {excess : Rat} {released : Nat}
    {rows : List (AsrRequest ρ)} (below : (released : Rat) < excess)
    (missing : releasedAt charge excess released rows = none) :
    ((released + (rows.map charge).sum : Nat) : Rat) < excess := by
  induction rows generalizing released with
  | nil => simpa using below
  | cons row rest ih =>
      simp only [releasedAt] at missing
      split at missing
      · contradiction
      · rename_i short
        have tail := ih (lt_of_not_ge short) missing
        rwa [List.map_cons, List.sum_cons, ← Nat.add_assoc]

/-- The row found is the first one with which enough is released. -/
theorem releasedAt_some {charge : AsrRequest ρ → Nat} {excess : Rat} {released : Nat}
    {rows : List (AsrRequest ρ)} {createdAt : Time} (below : (released : Rat) < excess)
    (found : releasedAt charge excess released rows = some createdAt) :
    ∃ before row after, rows = before ++ row :: after ∧ row.createdAt = createdAt ∧
      ((released + (before.map charge).sum : Nat) : Rat) < excess ∧
      excess ≤ ((released + (before.map charge).sum + charge row : Nat) : Rat) := by
  induction rows generalizing released with
  | nil => simp [releasedAt] at found
  | cons row rest ih =>
      simp only [releasedAt] at found
      split at found
      · rename_i enough
        exact ⟨[], row, rest, rfl, by simpa using found, by simpa using below,
          by simpa using enough⟩
      · rename_i short
        obtain ⟨before, last, after, split, time, less, enough⟩ := ih (lt_of_not_ge short) found
        refine ⟨row :: before, last, after, by rw [split, List.cons_append], time, ?_, ?_⟩
        · rwa [List.map_cons, List.sum_cons, ← Nat.add_assoc]
        · rwa [List.map_cons, List.sum_cons, ← Nat.add_assoc]

section Recovery

variable {requests : Table (AsrRequest ρ)} {settings : Settings} {window : QuotaWindow}
  {now : Time} (rows : Oldest requests settings window now)

theorem windowUsage_later {delay : Time} (future : 0 ≤ delay) :
    windowUsage requests settings window (now + delay) settings.groqModel =
      Window.usage window.charge
        (Window.recent AsrRequest.createdAt window.width (now + delay)) rows.rows := by
  have narrowed : requests.rows.filter
      (windowFilter settings window (now + delay) settings.groqModel) =
      (requests.rows.filter (windowFilter settings window now settings.groqModel)).filter
        (Window.recent AsrRequest.createdAt window.width (now + delay)) := by
    rw [List.filter_filter]
    apply List.filter_congr
    intro row _
    simp only [windowFilter, Window.recent]
    by_cases inside : now + delay - window.width < row.createdAt
    · have wider : now - window.width < row.createdAt :=
        lt_of_le_of_lt (sub_le_sub_right (le_add_of_nonneg_right future) _) inside
      simp [inside, wider]
    · simp [inside]
  simp only [windowUsage, Window.usage]
  rw [narrowed]
  exact (((rows.selected.filter _).map _).sum_eq).symm

theorem windowUsage_now :
    windowUsage requests settings window now settings.groqModel =
      (rows.rows.map window.charge).sum :=
  ((rows.selected.map _).sum_eq).symm

/-- When the row at which enough is released leaves the window, the rows after it remain. -/
theorem usage_released {before after : List (AsrRequest ρ)} {row : AsrRequest ρ}
    (split : rows.rows = before ++ row :: after) :
    Window.usage window.charge
        (Window.recent AsrRequest.createdAt window.width (row.createdAt + window.width))
        rows.rows ≤ (after.map window.charge).sum := by
  have ordered := rows.ordered
  rw [split, List.pairwise_append] at ordered
  have left : ∀ other ∈ before ++ [row], ¬ row.createdAt < other.createdAt := by
    intro other member
    rw [not_lt]
    rcases List.mem_append.mp member with earlier | last
    · exact ordered.2.2 other earlier row List.mem_cons_self
    · rw [List.mem_singleton.mp last]
  have gone : (before ++ [row]).filter (Window.recent AsrRequest.createdAt window.width
      (row.createdAt + window.width)) = [] := by
    rw [List.filter_eq_nil_iff]
    intro other member
    simpa [Window.recent] using left other member
  rw [split, List.append_cons, Window.usage_append, Window.usage, gone]
  simpa [Window.usage] using
    (List.Sublist.map window.charge List.filter_sublist).sum_le_sum (fun _ _ => Nat.zero_le _)

theorem usage_unreleased {before after : List (AsrRequest ρ)} {row : AsrRequest ρ} {reading : Time}
    (split : rows.rows = before ++ row :: after)
    (early : reading < row.createdAt + window.width) :
    window.charge row + (after.map window.charge).sum ≤
      Window.usage window.charge
        (Window.recent AsrRequest.createdAt window.width reading) rows.rows := by
  have ordered := rows.ordered
  rw [split, List.pairwise_append, List.pairwise_cons] at ordered
  have kept : (row :: after).filter (Window.recent AsrRequest.createdAt window.width reading) =
      row :: after := by
    rw [List.filter_eq_self]
    intro other member
    have later : row.createdAt ≤ other.createdAt := by
      rcases List.mem_cons.mp member with rfl | behind
      · exact le_refl _
      · exact ordered.2.1.1 other behind
    simp only [Window.recent, decide_eq_true_eq]
    exact lt_of_lt_of_le (sub_lt_iff_lt_add.mpr early) later
  rw [split, Window.usage_append]
  have counted : Window.usage window.charge
      (Window.recent AsrRequest.createdAt window.width reading) (row :: after) =
      window.charge row + (after.map window.charge).sum := by
    rw [Window.usage, kept, List.map_cons, List.sum_cons]
  omega

/-- The row at which the excess is released leaves the window at the least delay that brings the
usage back to what is available. -/
theorem isLeast_released {before after : List (AsrRequest ρ)} {row : AsrRequest ρ}
    {available : Rat} (split : rows.rows = before ++ row :: after)
    (short : ((before.map window.charge).sum : Rat) < (rows.rows.map window.charge).sum - available)
    (enough : ((rows.rows.map window.charge).sum : Rat) - available ≤
      ((before.map window.charge).sum + window.charge row : Nat)) :
    0 < row.createdAt + window.width - now ∧
      IsLeast {delay : Time | 0 ≤ delay ∧
        (windowUsage requests settings window (now + delay) settings.groqModel : Rat) ≤ available}
        (row.createdAt + window.width - now) := by
  have total : (rows.rows.map window.charge).sum = (before.map window.charge).sum +
      (window.charge row + (after.map window.charge).sum) := by
    rw [split, List.map_append, List.sum_append, List.map_cons, List.sum_cons]
  have inside : now - window.width < row.createdAt := by
    have member : row ∈ rows.rows := by simp [split]
    have chosen := (List.mem_filter.mp (rows.selected.mem_iff.mp member)).2
    simp only [windowFilter, Bool.and_eq_true, Window.recent, decide_eq_true_eq] at chosen
    exact chosen.2
  have future : 0 < row.createdAt + window.width - now :=
    sub_pos.mpr (sub_lt_iff_lt_add.mp inside)
  rw [total] at short enough
  simp only [Nat.cast_add] at short enough
  refine ⟨future, ⟨future.le, ?_⟩, ?_⟩
  · have usage := usage_released rows split
    rw [windowUsage_later rows future.le, add_sub_cancel]
    have cast : ((Window.usage window.charge (Window.recent AsrRequest.createdAt window.width
        (row.createdAt + window.width)) rows.rows : Nat) : Rat) ≤
        ((after.map window.charge).sum : Nat) := Nat.cast_le.mpr usage
    linarith
  · rintro delay ⟨waits, back⟩
    by_contra early
    have before : now + delay < row.createdAt + window.width :=
      lt_sub_iff_add_lt'.mp (not_le.mp early)
    have usage := usage_unreleased rows split before
    rw [windowUsage_later rows waits] at back
    have cast : ((window.charge row + (after.map window.charge).sum : Nat) : Rat) ≤
        (Window.usage window.charge (Window.recent AsrRequest.createdAt window.width
          (now + delay)) rows.rows : Nat) := Nat.cast_le.mpr usage
    rw [Nat.cast_add] at cast
    linarith

theorem recoverSeconds_of_excess {limit : Nat} {fraction : Rat} (share : fraction ≤ 1)
    (exceeds : (limit : Rat) - limit * fraction <
      windowUsage requests settings window now settings.groqModel) :
    ∃ delay : Time, 0 < delay ∧ recoverSeconds rows limit fraction = totalSeconds delay ∧
      IsLeast {delay : Time | 0 ≤ delay ∧
        (windowUsage requests settings window (now + delay) settings.groqModel : Rat) ≤
          limit - limit * fraction} delay := by
  have nonnegative : 0 ≤ (limit : Rat) - limit * fraction := by
    have whole : (limit : Rat) * fraction ≤ limit * 1 :=
      mul_le_mul_of_nonneg_left share (Nat.cast_nonneg limit)
    linarith
  have excess : 0 < (windowUsage requests settings window now settings.groqModel : Rat) -
      (limit - limit * fraction) := sub_pos.mpr exceeds
  simp only [recoverSeconds, if_pos excess]
  rw [windowUsage_now rows] at excess ⊢
  cases found : releasedAt window.charge
      (((rows.rows.map window.charge).sum : Rat) - (limit - limit * fraction)) 0 rows.rows with
  | none =>
      have short := releasedAt_none (by simpa using excess) found
      rw [Nat.zero_add] at short
      linarith
  | some createdAt =>
      obtain ⟨before, row, after, split, rfl, short, enough⟩ :=
        releasedAt_some (by simpa using excess) found
      rw [Nat.zero_add] at short enough
      obtain ⟨future, least⟩ := isLeast_released rows split short enough
      refine ⟨row.createdAt + window.width - now, future, ?_, least⟩
      apply max_eq_right
      exact div_nonneg (Int.cast_nonneg future.le) (by norm_num)

/-- The reported recovery is nothing exactly when the usage leaves the reserve; otherwise it is
the least delay after which, with no further reservation, the usage leaves it. -/
theorem recoverSeconds_exact (rows : Oldest requests settings window now) (limit : Nat)
    (fraction : Rat) (share : fraction ≤ 1) :
    let available : Rat := limit - limit * fraction
    let usage (reading : Time) : Rat :=
      windowUsage requests settings window reading settings.groqModel
    (recoverSeconds rows limit fraction = 0 ↔ usage now ≤ available) ∧
    (available < usage now →
      ∃ delay : Time, recoverSeconds rows limit fraction = totalSeconds delay ∧
        IsLeast {delay | 0 ≤ delay ∧ usage (now + delay) ≤ available} delay) ∧
    ∀ status ∈ windowStatus rows limit fraction,
      status.recoverSeconds = recoverSeconds rows limit fraction ∧
        status.capacity - status.reserve = available := by
  intro available usage
  refine ⟨⟨?_, ?_⟩, ?_, ?_⟩
  · intro nothing
    by_contra exceeds
    obtain ⟨delay, future, waits, -⟩ := recoverSeconds_of_excess rows share (not_le.mp exceeds)
    rw [nothing, totalSeconds, eq_comm, div_eq_zero_iff] at waits
    rcases waits with zero | absurdity
    · exact future.ne' (Int.cast_eq_zero.mp zero)
    · norm_num at absurdity
  · intro within
    simp only [recoverSeconds]
    rw [if_neg]
    exact not_lt.mpr (sub_nonpos.mpr within)
  · intro exceeds
    obtain ⟨delay, -, waits, least⟩ := recoverSeconds_of_excess rows share exceeds
    exact ⟨delay, waits, least⟩
  · intro status reported
    cases named : asrNames window.seconds window.audio with
    | none => simp [windowStatus, named] at reported
    | some names =>
        simp only [windowStatus, named, Option.bind_eq_bind, Option.bind_some, Option.pure_def,
          Option.mem_def, Option.some.injEq] at reported
        subst reported
        exact ⟨rfl, rfl⟩

def minuteSettings : Settings := ⟨"account", "model", "fallback", some 2, none, none, none, none⟩

def minuteRequest (id : Nat) (createdAt : Time) : AsrRequest Unit where
  id := id
  jobId := 0
  accountId := "account"
  model := "model"
  audioSeconds := 30
  createdAt := createdAt
  outcome := .completed
  retryIndex := id

def minuteRequests : Table (AsrRequest Unit) :=
  ⟨[minuteRequest 0 20000000, minuteRequest 1 5000000, minuteRequest 2 5000000], by decide⟩

/-- The two older requests leave the window together. -/
theorem recoverSeconds_exact_example :
    ∃ delay : Time, delay ≤ 35000000 ∧
      recoverSeconds (oldest minuteRequests minuteSettings ⟨60, some 2, false⟩ 30000000) 2 (1 / 2) =
        totalSeconds delay ∧
      IsLeast {delay : Time | 0 ≤ delay ∧ (windowUsage minuteRequests minuteSettings
        ⟨60, some 2, false⟩ (30000000 + delay) "model" : Rat) ≤ 2 - 2 * (1 / 2)} delay := by
  have used : windowUsage minuteRequests minuteSettings ⟨60, some 2, false⟩ 30000000 "model" = 3 := by
    decide
  have left : windowUsage minuteRequests minuteSettings ⟨60, some 2, false⟩
      (30000000 + 35000000) "model" = 1 := by decide
  obtain ⟨delay, waits, least⟩ := (recoverSeconds_exact
    (oldest minuteRequests minuteSettings ⟨60, some 2, false⟩ 30000000) 2 (1 / 2)
    (by norm_num)).2.1 (by
      show _ < (windowUsage minuteRequests minuteSettings ⟨60, some 2, false⟩ 30000000 "model" : Rat)
      rw [used]
      norm_num)
  refine ⟨delay, least.2 ⟨by decide, ?_⟩, waits, least⟩
  show (windowUsage minuteRequests minuteSettings ⟨60, some 2, false⟩ (30000000 + 35000000)
    "model" : Rat) ≤ _
  rw [left]
  norm_num

end Recovery

end Ovrly.Providers
