import Mathlib

/-!
Rolling windows over a log of weighted entries.

An entry is admitted when it fits beside the entries that lie less than a width before it or
anywhere after it. The log is in order of admission, and its times need not be: looking back
from the entry admitted last covers every window that holds it.
-/

namespace Window

variable {ρ τ : Type}

def usage (weight : ρ → Nat) (inside : ρ → Bool) (log : List ρ) : Nat :=
  ((log.filter inside).map weight).sum

section Usage

variable {weight : ρ → Nat} {inside wider : ρ → Bool} {log : List ρ}

@[simp] theorem usage_nil : usage weight inside [] = 0 := rfl

theorem usage_append (first second : List ρ) :
    usage weight inside (first ++ second) =
      usage weight inside first + usage weight inside second := by
  simp [usage]

theorem usage_singleton (entry : ρ) :
    usage weight inside [entry] = if inside entry then weight entry else 0 := by
  cases chosen : inside entry <;> simp [usage, chosen]

theorem usage_mono (covered : ∀ entry ∈ log, inside entry = true → wider entry = true) :
    usage weight inside log ≤ usage weight wider log := by
  induction log with
  | nil => simp
  | cons entry rest ih =>
      have tail := ih fun other member => covered other (List.mem_cons_of_mem _ member)
      have head := covered entry List.mem_cons_self
      rw [← List.singleton_append, usage_append, usage_append, usage_singleton, usage_singleton]
      cases chosen : inside entry with
      | true =>
          rw [head chosen]
          simpa using tail
      | false =>
          simp only [Bool.false_eq_true, if_false]
          omega

end Usage

/-- A queue whose expired entries stand in front has only the others left once the front no
longer expires. -/
theorem dropWhile_expired {expired : ρ → Bool} {queue : List ρ}
    (ordered : queue.Pairwise fun first second => expired second = true → expired first = true) :
    queue.dropWhile expired = queue.filter (!expired ·) := by
  induction queue with
  | nil => rfl
  | cons first rest ih =>
      obtain ⟨head, tail⟩ := List.pairwise_cons.mp ordered
      by_cases gone : expired first = true
      · rw [List.dropWhile_cons_of_pos gone, List.filter_cons_of_neg (by simp [gone]), ih tail]
      · rw [List.dropWhile_cons_of_neg gone, List.filter_cons_of_pos (by simp [gone]),
          List.filter_eq_self.mpr]
        intro other member
        by_contra late
        exact gone (head other member (by simpa using late))

variable [AddCommGroup τ] [LinearOrder τ] [IsOrderedAddMonoid τ]

/-- Later than a width before the given time; times after it count as well. -/
def recent (time : ρ → τ) (width reading : τ) (entry : ρ) : Bool :=
  decide (reading - width < time entry)

/-- In the window of a width that ends at the given time. -/
def within (time : ρ → τ) (width reading : τ) (entry : ρ) : Bool :=
  decide (reading - width < time entry ∧ time entry ≤ reading)

/-- A log in which every entry fitted under the limit when it was admitted. -/
inductive Admitted (time : ρ → τ) (weight : ρ → Nat) (width : τ) (limit : Nat) : List ρ → Prop
  | nil : Admitted time weight width limit []
  | snoc {log : List ρ} {entry : ρ} : Admitted time weight width limit log →
      usage weight (recent time width (time entry)) log + weight entry ≤ limit →
      Admitted time weight width limit (log ++ [entry])

/-- No window of the width weighs more than the limit, wherever it ends. -/
theorem Admitted.bounded {time : ρ → τ} {weight : ρ → Nat} {width : τ} {limit : Nat}
    {log : List ρ} (admitted : Admitted time weight width limit log) (reading : τ) :
    usage weight (within time width reading) log ≤ limit := by
  induction admitted with
  | nil => exact Nat.zero_le _
  | @snoc log entry _ fits ih =>
      rw [usage_append, usage_singleton]
      by_cases last : within time width reading entry = true
      · -- The look-back of the last entry in the window covers the others.
        have covered : usage weight (within time width reading) log ≤
            usage weight (recent time width (time entry)) log := by
          apply usage_mono
          intro other _ chosen
          simp only [within, recent, decide_eq_true_eq] at last chosen ⊢
          exact lt_of_le_of_lt (sub_le_sub_right last.2 width) chosen.1
        rw [if_pos last]
        omega
      · rw [if_neg last]
        omega

end Window
