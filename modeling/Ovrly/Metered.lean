import Mathlib.Algebra.Order.Field.Basic
import Mathlib.Algebra.BigOperators.Group.List.Basic
import Mathlib.Tactic.Linarith

/-!
Metered accounts: a level that refills at a constant rate up to a capacity, with units taken
from it and returned to it.

The law of a metered account needs only upper bounds on the level, so that whatever else
lowers it in between is allowed: over any span of time no more units are taken, net of those
returned, than the capacity and what the span refills.
-/

namespace Metered

section Refilled

variable {K : Type} [Field K] [LinearOrder K]

/-- The level after some time without other activity. -/
def refilled (capacity rate level elapsed : K) : K :=
  min capacity (level + max elapsed 0 * rate)

variable {capacity rate level elapsed : K}

theorem refilled_le : refilled capacity rate level elapsed ≤ capacity := min_le_left _ _

theorem refilled_le_add (forward : 0 ≤ elapsed) :
    refilled capacity rate level elapsed ≤ level + elapsed * rate := by
  unfold refilled
  rw [max_eq_left forward]
  exact min_le_right _ _

theorem refilled_zero (within : level ≤ capacity) : refilled capacity rate level 0 = level := by
  simp [refilled, within]

variable [IsStrictOrderedRing K]

theorem refilled_refilled {later : K} (positive : 0 ≤ rate) (first : 0 ≤ elapsed)
    (second : 0 ≤ later) :
    refilled capacity rate (refilled capacity rate level elapsed) later =
      refilled capacity rate level (elapsed + later) := by
  have gained : 0 ≤ later * rate := mul_nonneg second positive
  unfold refilled
  rw [max_eq_left first, max_eq_left second, max_eq_left (add_nonneg first second), add_mul]
  rcases le_total capacity (level + elapsed * rate) with full | room
  · rw [min_eq_left full, min_eq_left (by linarith), min_eq_left (by linarith)]
  · rw [min_eq_right room]
    rw [add_assoc]

/-- An amount within the capacity is reached exactly when the shortfall has been refilled. -/
theorem le_refilled_iff {amount : K} (positive : 0 < rate) (within : amount ≤ capacity)
    (forward : 0 ≤ elapsed) :
    amount ≤ refilled capacity rate level elapsed ↔ (amount - level) / rate ≤ elapsed := by
  unfold refilled
  rw [max_eq_left forward, le_min_iff, div_le_iff₀ positive]
  constructor
  · rintro ⟨-, reached⟩
    linarith
  · intro enough
    exact ⟨within, by linarith⟩

end Refilled

section Entries

variable {K : Type} [Field K]

/-- Units taken and returned at a moment. -/
structure Entry (K : Type) where
  time : K
  taken : K
  returned : K
  deriving DecidableEq, Repr

/-- The net units of the entries a condition selects. -/
def net (inside : Entry K → Bool) (log : List (Entry K)) : K :=
  ((log.filter inside).map fun entry => entry.taken - entry.returned).sum

@[simp] theorem net_nil (inside : Entry K → Bool) : net inside [] = 0 := rfl

theorem net_append (inside : Entry K → Bool) (first second : List (Entry K)) :
    net inside (first ++ second) = net inside first + net inside second := by
  simp [net]

theorem net_singleton (inside : Entry K → Bool) (entry : Entry K) :
    net inside [entry] = if inside entry then entry.taken - entry.returned else 0 := by
  cases chosen : inside entry <;> simp [net, chosen]

theorem net_congr {inside other : Entry K → Bool} {log : List (Entry K)}
    (same : ∀ entry ∈ log, inside entry = other entry) : net inside log = net other log := by
  unfold net
  rw [List.filter_congr same]

theorem net_none {inside : Entry K → Bool} {log : List (Entry K)}
    (outside : ∀ entry ∈ log, inside entry = false) : net inside log = 0 := by
  have empty : log.filter inside = [] := by
    rw [List.filter_eq_nil_iff]
    intro entry member
    simp [outside entry member]
  simp [net, empty]

end Entries

section Runs

variable {K : Type} [Field K] [LinearOrder K]

/-- A level, the time it was stored and the log that led to it. A step may lower the level
further than its entry says, and one that takes units leaves none missing. -/
inductive Run (capacity rate : K) : K → K → List (Entry K) → Prop
  | start {level time : K} : level ≤ capacity → Run capacity rate level time []
  | move {level time next : K} {log : List (Entry K)} {entry : Entry K} :
      Run capacity rate level time log → time ≤ entry.time → 0 ≤ entry.returned →
      next ≤ capacity →
      next + entry.taken ≤ refilled capacity rate level (entry.time - time) + entry.returned →
      (0 < entry.taken → 0 ≤ next) →
      Run capacity rate next entry.time (log ++ [entry])

namespace Run

variable {capacity rate level time : K} {log : List (Entry K)}

theorem le_capacity (run : Run capacity rate level time log) : level ≤ capacity := by
  cases run with
  | start within => exact within
  | move _ _ _ within _ _ => exact within

theorem time_le (run : Run capacity rate level time log) : ∀ entry ∈ log, entry.time ≤ time := by
  induction run with
  | start _ => simp
  | move _ later _ _ _ _ ih =>
      intro entry member
      rcases List.mem_append.mp member with earlier | last
      · exact le_trans (ih entry earlier) later
      · rw [List.mem_singleton.mp last]

def since (first : K) (entry : Entry K) : Bool := decide (first ≤ entry.time)

def during (first last : K) (entry : Entry K) : Bool :=
  decide (first ≤ entry.time ∧ entry.time ≤ last)

variable [IsStrictOrderedRing K]

/-- What was taken since a moment and what is left never exceed the capacity and what was
refilled since. -/
theorem since_le (run : Run capacity rate level time log) (positive : 0 ≤ rate) (first : K) :
    level + net (since first) log ≤ capacity + max (time - first) 0 * rate := by
  induction run with
  | @start level time within =>
      have gained : 0 ≤ max (time - first) 0 * rate := mul_nonneg (le_max_right _ _) positive
      rw [net_nil]
      linarith
  | @move level time next log entry run later _ within paid _ ih =>
      by_cases inside : first ≤ entry.time
      · have last : since first entry = true := by simpa [since] using inside
        rw [net_append, net_singleton, if_pos last, max_eq_left (sub_nonneg.mpr inside)]
        by_cases earlier : first ≤ time
        · have refill : refilled capacity rate level (entry.time - time) ≤
              level + (entry.time - time) * rate := refilled_le_add (sub_nonneg.mpr later)
          rw [max_eq_left (sub_nonneg.mpr earlier)] at ih
          linarith
        · -- The span starts after everything logged so far.
          have outside : ∀ other ∈ log, since first other = false := by
            intro other member
            have before := run.time_le other member
            simp only [since, decide_eq_false_iff_not, not_le]
            exact lt_of_le_of_lt before (not_le.mp earlier)
          have gained : 0 ≤ (entry.time - first) * rate :=
            mul_nonneg (sub_nonneg.mpr inside) positive
          have full := @refilled_le K _ _ capacity rate level (entry.time - time)
          rw [net_none outside]
          linarith
      · have outside : ∀ other ∈ log ++ [entry], since first other = false := by
          intro other member
          simp only [since, decide_eq_false_iff_not, not_le]
          rcases List.mem_append.mp member with earlier | last
          · exact lt_of_le_of_lt (le_trans (run.time_le other earlier) later) (not_le.mp inside)
          · rw [List.mem_singleton.mp last]
            exact not_le.mp inside
        have gained : 0 ≤ max (entry.time - first) 0 * rate :=
          mul_nonneg (le_max_right _ _) positive
        rw [net_none outside]
        linarith

/-- Over any span no more is taken, net of what is returned, than the capacity and the refill
of the span. -/
theorem during_le (run : Run capacity rate level time log) (positive : 0 ≤ rate)
    {first last : K} (forward : first ≤ last) (capacious : 0 ≤ capacity) :
    net (during first last) log ≤ capacity + (last - first) * rate := by
  have gained : 0 ≤ (last - first) * rate := mul_nonneg (sub_nonneg.mpr forward) positive
  induction run with
  | start _ =>
      rw [net_nil]
      linarith
  | @move level time next log entry run later returned within paid covered ih =>
      by_cases inside : during first last entry = true
      · have bounds : first ≤ entry.time ∧ entry.time ≤ last := by simpa [during] using inside
        by_cases taken : 0 < entry.taken
        · -- The units just taken were there, so what is left is not negative.
          have same : net (during first last) (log ++ [entry]) =
              net (since first) (log ++ [entry]) := by
            apply net_congr
            intro other member
            have before : other.time ≤ last := by
              rcases List.mem_append.mp member with earlier | only
              · exact le_trans (le_trans (run.time_le other earlier) later) bounds.2
              · rw [List.mem_singleton.mp only]
                exact bounds.2
            simp [during, since, before]
          have whole := since_le (run.move later returned within paid covered) positive first
          have left := covered taken
          have shorter : (entry.time - first) * rate ≤ (last - first) * rate :=
            mul_le_mul_of_nonneg_right (by linarith [bounds.2]) positive
          rw [max_eq_left (sub_nonneg.mpr bounds.1)] at whole
          rw [same]
          linarith
        · rw [net_append, net_singleton, if_pos inside]
          linarith
      · rw [net_append, net_singleton, if_neg inside, add_zero]
        exact ih

end Run

end Runs

end Metered
